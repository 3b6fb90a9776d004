import PageDesigner.Proofs.Host.Refused

/-!
# Operations that succeed

Every operation on components settles the host first and then works in a transaction of
its own.  When it succeeds, the document is the one that its work leaves
(`withTransaction_ok`).
-/

namespace PageDesigner.Host

variable {registry : Registry} {host after : Host}

theorem ok_of_attempt {α β : Type} {action : Action α} {next : Except DesignError α → Action β}
    {result : β} (done : (attempt action >>= next) host = .ok result after) :
    (∃ outcome middle, action host = .ok outcome middle ∧
        next (.ok outcome) middle = .ok result after) ∨
      ∃ cause middle, action host = .error cause middle ∧
        next (.error cause) middle = .ok result after := by
  cases ran : action host with
  | ok outcome middle =>
      rw [bind_of_ok (attempt_of_ok ran)] at done
      exact .inl ⟨outcome, middle, rfl, done⟩
  | error cause middle =>
      rw [bind_of_ok (attempt_of_error ran)] at done
      exact .inr ⟨cause, middle, rfl, done⟩

theorem onDocument_ok {α : Type} {action : Document.Action α} {document : Document} {result : α}
    (kept : host.document? = some document)
    (done : onDocument action host = .ok result after) :
    ∃ document', action document = .ok result document' ∧
      after = { host with document? := some document' } := by
  unfold onDocument at done
  rw [kept] at done
  dsimp only at done
  cases ran : action document with
  | ok result' document' =>
      rw [ran] at done
      obtain ⟨rfl, rfl⟩ := EStateM.Result.ok.inj done
      exact ⟨document', rfl, rfl⟩
  | error failure document' => rw [ran] at done; cases done

theorem onDocument_of_ok {α : Type} {action : Document.Action α} {result : α}
    {document document' : Document} (kept : host.document? = some document)
    (ran : action document = .ok result document') :
    onDocument action host = .ok result { host with document? := some document' } := by
  unfold onDocument
  rw [kept]
  dsimp only
  rw [ran]

theorem onDocument_of_error {α : Type} {action : Document.Action α} {failure : DesignError}
    {document document' : Document} (kept : host.document? = some document)
    (ran : action document = .error failure document') :
    onDocument action host = .error failure { host with document? := some document' } := by
  unfold onDocument
  rw [kept]
  dsimp only
  rw [ran]

/-- What settles first succeeds in the settled host. -/
theorem ok_of_settle {α : Type} {next : Action α} {result : α}
    (done : (settle >>= fun _ => next) host = .ok result after) :
    next host.settled = .ok result after := by
  obtain ⟨_, middle, ran, ends⟩ := ok_of_bind done
  have same : host.settled = middle := leaves_of_ok ran
  rw [same]
  exact ends

theorem ok_of_loaded {α : Type} {next : Document → Action α} {result : α}
    (done : (loaded >>= next) host = .ok result after) :
    ∃ document, host.document? = some document ∧ next document host = .ok result after := by
  obtain ⟨document, middle, ran, ends⟩ := ok_of_bind done
  rw [loaded_eq] at ran
  cases kept : host.document? with
  | none => rw [kept] at ran; cases ran
  | some document' =>
      rw [kept] at ran
      obtain ⟨rfl, rfl⟩ := EStateM.Result.ok.inj ran
      exact ⟨document', rfl, ends⟩

/-- A host that settles without a refresh that waits stays as it is. -/
theorem settled_of_waiting (none' : host.waiting = []) : host.settled = host := by
  obtain ⟨registry, designers, options, phase, document?, transactions, waiting, events⟩ := host
  obtain rfl : waiting = [] := none'
  rfl

theorem settle_of_waiting (idle : host.waiting = []) : settle host = .ok () host := by
  have same := settle_settled host
  rw [settled_of_waiting idle] at same
  exact same

/-- Settling a single refresh is doing it. -/
theorem settled_of_single {refresh : Refresh} (waits : host.waiting = [refresh]) :
    host.settled = leaves (perform refresh) { host with waiting := [] } := by
  unfold settled settle
  rw [leaves_bind_of_ok (get_eq host), leaves_bind_of_ok (modify_eq _ _), waits]
  rcases ends (perform refresh) { host with waiting := [] } with ⟨_, ran⟩ | ⟨_, ran⟩
  · exact leaves_bind_of_ok ran _
  · exact leaves_bind_of_error ran _

/-- Without a refresh that waits, a reset tells that every component is gone. -/
theorem reset_of_waiting (idle : host.waiting = []) :
    reset host = .ok () { host with
      document? := none
      phase := .idle
      events := host.events ++
        ((host.document?.map (·.surface.clear.1)).getD []).map .removed } := by
  unfold reset
  rw [bind_of_ok (settle_of_waiting idle), bind_of_ok (get_eq host)]
  cases kept : host.document? with
  | none => exact congrArg (EStateM.Result.ok ()) (by rw [Option.map_none, Option.getD_none,
      List.map_nil, List.append_nil])
  | some document => rfl

/-- Committing leaves the document. -/
theorem document?_commit {handle closed : Transaction} {middle : Host}
    (closes : closeTransaction handle true host = .ok closed middle)
    (commits : commit handle host = .ok closed after) :
    after.document? = middle.document? := by
  unfold commit at commits
  rw [bind_of_ok closes] at commits
  obtain ⟨_, _, ran, ends⟩ := ok_of_bind commits
  cases ran
  split at ends
  · next waits =>
      obtain ⟨_, _, asked, ends⟩ := ok_of_bind ends
      obtain ⟨-, rfl⟩ := EStateM.Result.ok.inj ends
      unfold askRefresh at asked
      obtain ⟨-, rfl⟩ := EStateM.Result.ok.inj asked
      dsimp only
      split <;> rfl
  · obtain ⟨-, rfl⟩ := EStateM.Result.ok.inj ends
    rfl

/-- Work that leaves the transactions alone is committed when it succeeds. -/
theorem withTransaction_of_ok {α : Type} {description : Text} {work : Action α} {result : α}
    {base middle : Host} (same : base.transactions = host.transactions)
    (beside : (base.opened description).Beside middle)
    (ran : work (host.opened description) = .ok result middle) :
    ∃ after, withTransaction description work host = .ok result after ∧
      after.document? = middle.document? := by
  obtain ⟨closed, last, closes, document, _⟩ := closeTransaction_eq beside true
  rw [same] at closes
  obtain ⟨final, commits⟩ := commit_of_close closes
  refine ⟨final, ?_, (document?_commit closes commits).trans document⟩
  unfold withTransaction
  rw [bind_of_ok (openTransaction_eq host description), bind_of_ok (attempt_of_ok ran)]
  exact bind_of_ok (discard_of_ok commits) _

/-- Work that leaves the transactions alone is rolled back when it fails. -/
theorem withTransaction_of_error {α : Type} {description : Text} {work : Action α}
    {failure : DesignError} {base middle : Host} (same : base.transactions = host.transactions)
    (beside : (base.opened description).Beside middle)
    (ran : work (host.opened description) = .error failure middle) :
    ∃ after, withTransaction description work host = .error failure after ∧
      after.document? = middle.document? ∧
      after.transactions.frames = host.transactions.frames := by
  obtain ⟨closed, last, closes, document, frames, _⟩ := closeTransaction_eq beside false
  rw [same] at closes frames
  refine ⟨last, ?_, document, frames⟩
  unfold withTransaction
  rw [bind_of_ok (openTransaction_eq host description), bind_of_ok (attempt_of_error ran)]
  exact bind_of_ok (discard_of_ok closes) _

/-- An operation only succeeds in a transaction of its own if its work does. -/
theorem work_of_withTransaction {α : Type} {description : Text} {work : Action α} {result : α}
    (done : withTransaction description work host = .ok result after) :
    ∃ middle, work (host.opened description) = .ok result middle := by
  unfold withTransaction at done
  rw [bind_of_ok (openTransaction_eq host description)] at done
  rcases ok_of_attempt done with ⟨outcome, middle, ran, ends⟩ | ⟨cause, middle, ran, ends⟩
  · obtain ⟨_, _, _, ends⟩ := ok_of_bind ends
    obtain ⟨rfl, -⟩ := EStateM.Result.ok.inj ends
    exact ⟨middle, ran⟩
  · obtain ⟨_, _, _, ends⟩ := ok_of_bind ends
    cases ends

/-- An operation that succeeds in a transaction of its own leaves the document as its work
leaves it. -/
theorem withTransaction_ok {α : Type} {description : Text} {work : Action α} {result : α}
    (keeps : ∀ base, Keeps (Working registry base) work) (orderly : host.Orderly registry)
    (done : withTransaction description work host = .ok result after) :
    ∃ middle, work (host.opened description) = .ok result middle ∧
      after.document? = middle.document? := by
  have working : Working registry (host.opened description) (host.opened description) :=
    ⟨⟨orderly.document, orderly.registry_eq⟩, .refl _⟩
  obtain ⟨middle, ran⟩ := work_of_withTransaction done
  have beside := ((keeps _).ok working ran).beside
  obtain ⟨last, done', document⟩ := withTransaction_of_ok rfl beside ran
  obtain ⟨-, rfl⟩ := EStateM.Result.ok.inj (done'.symm.trans done)
  exact ⟨middle, ran, document⟩

/-! ## Settling -/

/-- The document after a refresh. -/
def refreshed (document : Document) : Refresh → Document
  | .soft => document.designHtml.2
  | .hard => (leaves Document.persist document).designHtml.2

/-- The surface of a document is drawn, and told of. -/
theorem drawSurface_eq {document : Document} (kept : host.document? = some document) :
    drawSurface host = .ok document.designHtml.1 { host with
      document? := some document.designHtml.2
      events := host.events ++ [.drawn document.designHtml.1] } := by
  have draws : onDocument (modifyGet Document.designHtml) host = .ok document.designHtml.1
      { host with document? := some document.designHtml.2 } := onDocument_of_ok kept rfl
  exact bind_of_ok draws _

/-- A refresh succeeds where there is a document, and changes nothing else but what was told. -/
theorem perform_eq {document : Document} (kept : host.document? = some document)
    (refresh : Refresh) :
    ∃ events, perform refresh host =
      .ok () { host with document? := some (refreshed document refresh), events } := by
  have drawn : ∀ (host : Host) (document : Document), host.document? = some document →
      ∃ events, (discard drawSurface : Action Unit) host =
        .ok () { host with document? := some document.designHtml.2, events } :=
    fun _ _ kept => ⟨_, discard_of_ok (drawSurface_eq kept)⟩
  cases refresh with
  | soft => exact drawn host document kept
  | hard =>
      unfold perform refreshed
      rcases ends Document.persist document with ⟨report, ran⟩ | ⟨failure, ran⟩
      · have persists := onDocument_of_ok kept ran
        obtain ⟨events, draws⟩ := drawn { host with
            document? := some (leaves Document.persist document)
            events := host.events ++ (report.removed.map .removed ++
              report.created.map fun entry => .added entry.1 entry.2) }
          (leaves Document.persist document) rfl
        refine ⟨events, ?_⟩
        dsimp only
        rw [bind_of_ok (attempt_of_ok persists)]
        exact draws
      · have persists := onDocument_of_error kept ran
        obtain ⟨events, draws⟩ := drawn { host with
            document? := some (leaves Document.persist document) }
          (leaves Document.persist document) rfl
        refine ⟨events, ?_⟩
        dsimp only
        rw [bind_of_ok (attempt_of_error persists)]
        exact draws

/-- A host with a document settles, and only its document and the refreshes that waited change. -/
theorem settle_eq {document : Document} (kept : host.document? = some document) :
    ∃ events, settle host = .ok () { host with
      document? := some (host.waiting.foldl refreshed document), waiting := [], events } := by
  suffices refreshes : ∀ (waiting : List Refresh) (host : Host) (document : Document),
      host.document? = some document → ∃ events, waiting.forM perform host =
        .ok () { host with document? := some (waiting.foldl refreshed document), events } from
    refreshes host.waiting { host with waiting := [] } document kept
  intro waiting
  induction waiting with
  | nil =>
      intro host document kept
      refine ⟨host.events, ?_⟩
      rw [List.foldl_nil, ← kept]
      rfl
  | cons refresh rest ih =>
      intro host document kept
      obtain ⟨events, performs⟩ := perform_eq kept refresh
      obtain ⟨events', others⟩ := ih { host with
        document? := some (refreshed document refresh), events } _ rfl
      exact ⟨events', (bind_of_ok performs _).trans others⟩

/-- A settled host that has a document has settled without a failure. -/
theorem settle_of_kept {document : Document} (kept : host.settled.document? = some document) :
    settle host = .ok () host.settled := by
  rcases ends settle host with ⟨_, ran⟩ | ⟨failure, ran⟩
  · exact ran
  · have unloaded := unloaded_of_settle ran
    have none' : host.settled.document? = none := unloaded
    rw [kept] at none'
    cases none'

theorem settled_eq {document : Document} (kept : host.document? = some document) :
    ∃ events, host.settled = { host with
      document? := some (host.waiting.foldl refreshed document), waiting := [], events } := by
  obtain ⟨events, settles⟩ := settle_eq kept
  exact ⟨events, leaves_of_ok settles⟩

/-- Opening a transaction first does not change how a host settles. -/
theorem settled_opened {document : Document} (kept : host.document? = some document)
    (description : Text) :
    (host.opened description).settled.document? = host.settled.document? ∧
      ({ host with waiting := [] }.opened description).Beside
        (host.opened description).settled := by
  have kept' : (host.opened description).document? = some document := kept
  obtain ⟨_, settles⟩ := settled_eq kept
  obtain ⟨_, settles'⟩ := settled_eq kept'
  rw [settles, settles']
  exact ⟨rfl, _, _, rfl⟩

end PageDesigner.Host
