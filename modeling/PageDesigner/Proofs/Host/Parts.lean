import PageDesigner.Host.Components
import PageDesigner.Proofs.Keeping

/-!
# Parts of operations

Whether an operation keeps a property of hosts comes down to the few changes that its parts make:
to the document, to what was told, to the refreshes that wait.  What depends neither on the
transactions nor on what was told is kept by all that is done with transactions, as long as asking
for a refresh keeps it (`Host.Aloof`).
-/

namespace PageDesigner.Host

variable {α : Type} {holds : Host → Prop}

theorem keeps_attempt {action : Action α} (keeps : Keeps holds action) :
    Keeps holds (attempt action) := by
  intro host held
  have left := keeps host held
  unfold leaves attempt at *
  cases ran : action host <;> rw [ran] at left <;> exact left

/-- What is attempted ends in the state that it leaves. -/
theorem attempt_ends (action : Action α) (host : Host) :
    ∃ outcome, attempt action host = .ok outcome (leaves action host) := by
  unfold attempt leaves
  cases action host with
  | ok result after => exact ⟨.ok result, rfl⟩
  | error failure after => exact ⟨.error failure, rfl⟩

/-! ## The document at hand -/

theorem leaves_onDocument (action : Document.Action α) {host : Host} {document : Document}
    (kept : host.document? = some document) :
    leaves (onDocument action) host =
      { host with document? := some (leaves action document) } := by
  unfold leaves onDocument
  rw [kept]
  cases ran : action document <;> simp only [ran]

/-- An action on the document keeps what the document that it leaves keeps. -/
theorem keeps_onDocument_of {action : Document.Action α}
    (keeps : ∀ {host document}, holds host → host.document? = some document →
      holds { host with document? := some (leaves action document) }) :
    Keeps holds (onDocument action) := by
  intro host held
  cases kept : host.document? with
  | none =>
      unfold leaves onDocument
      rw [kept]
      exact held
  | some document =>
      rw [leaves_onDocument action kept]
      exact keeps held kept

/-- The document of a host that has one, or the failure to have one. -/
theorem loaded_eq (host : Host) :
    loaded host =
      match host.document? with
      | some document => .ok document host
      | none => .error .notLoaded host := by
  unfold loaded
  simp only [bind, EStateM.bind, get_eq]
  cases host.document? <;> rfl

theorem siteNamed_eq (name : Text) (host : Host) :
    siteNamed name host =
      match host.site? name with
      | some site => .ok site host
      | none => .error (.componentNotFound name) host := by
  unfold siteNamed
  simp only [bind, EStateM.bind, get_eq]
  cases host.site? name <;> rfl

theorem keeps_loaded : Keeps holds loaded := by
  intro host held
  unfold leaves
  rw [loaded_eq]
  cases host.document? <;> exact held

/-- What is done with the document at hand. -/
theorem keeps_loaded_bind {next : Document → Action α}
    (keeps : ∀ host document, holds host → host.document? = some document →
      holds (leaves (next document) host)) : Keeps holds (loaded >>= next) := by
  refine keeps_loaded.bind fun host document middle held ran _ => ?_
  rw [loaded_eq] at ran
  cases kept : host.document? with
  | none => rw [kept] at ran; cases ran
  | some document' =>
      rw [kept] at ran
      obtain ⟨rfl, rfl⟩ := EStateM.Result.ok.inj ran
      exact keeps _ _ held kept

theorem keeps_siteNamed (name : Text) : Keeps holds (siteNamed name) := by
  intro host held
  unfold leaves
  rw [siteNamed_eq]
  cases host.site? name <;> exact held

/-! ## Refreshes and messages -/

/-- The surface is drawn, and told of. -/
theorem keeps_drawing
    (draws : Keeps holds (onDocument (modifyGet Document.designHtml) : Action DesignHtml))
    (tells : ∀ html, Keeps holds (tell [.drawn html])) : Keeps holds drawSurface :=
  draws.seq fun _ => (tells _).seq fun _ => .pure _

/-- A refresh draws the surface, a hard one behind a scan. -/
theorem keeps_performing (draws : Keeps holds drawSurface)
    (scans : Keeps holds (onDocument Document.persist))
    (tells : ∀ report, Keeps holds (tellChanges report)) (refresh : Refresh) :
    Keeps holds (perform refresh) := by
  have drawn : Keeps holds (discard drawSurface) := draws.discard
  unfold perform
  cases refresh with
  | soft => exact drawn
  | hard =>
      refine (keeps_attempt scans).seq fun outcome => ?_
      split
      · exact (tells _).seq fun _ => drawn
      · exact drawn

/-- Settling does the refreshes that waited. -/
theorem keeps_settling
    (empties : Keeps holds (modify fun host => { host with waiting := [] } : Action Unit))
    (performs : ∀ refresh, Keeps holds (perform refresh)) : Keeps holds settle :=
  Keeps.get.seq fun _ => empties.seq fun _ => .forM performs _

/-- An edit of the text that is taken back or made again. -/
theorem keeps_replaying {edit : Edit} (settles : Keeps holds settle)
    (edits : Keeps holds (onDocument (modifyGet (·.edit edit)) : Action Bool))
    (marks : Keeps holds (onDocument (modify fun document =>
      { document with buffer := document.buffer.markDirty }) : Action Unit))
    (asks : Keeps holds (askRefresh .hard)) : Keeps holds (replay edit) := by
  refine settles.seq fun _ => edits.seq fun done => ?_
  split
  · exact marks.seq fun _ => asks.seq fun _ => .pure _
  · exact .pure _

/-- A message of the surface selects, or asks for a menu. -/
theorem keeps_receiving (settles : Keeps holds settle)
    (selects : ∀ names primary, Keeps holds (select names primary))
    (tells : ∀ x y name?, Keeps holds (tell [.contextMenu x y name?])) (raw : Text) :
    Keeps holds (receive raw) := by
  unfold receive
  split
  · exact .pure _
  · refine Keeps.seq (settles.seq fun _ => ?_) fun _ => .pure _
    split
    · exact selects _ _
    · exact Keeps.get.seq fun _ => tells _ _ _

/-! ## Letting go -/

/-- A reset lets go of the document behind telling what goes with it. -/
theorem keeps_resetting (settles : Keeps holds settle)
    (tells : ∀ names : List Text, Keeps holds (tell (names.map .removed)))
    (empties : Keeps holds
      (modify fun host => { host with document? := none, phase := .idle } : Action Unit)) :
    Keeps holds reset := by
  refine settles.seq fun _ => Keeps.get.seq fun host => ?_
  dsimp only
  split
  · exact empties
  · exact (tells _).seq fun _ => empties

/-- Only a surface that is shown is hidden. -/
theorem keeps_deactivating (settles : Keeps holds settle)
    (hides : Keeps holds (modify fun host => { host with phase := .deactivated } : Action Unit))
    (tells : Keeps holds (tell [.deactivated])) : Keeps holds deactivate := by
  refine Keeps.get.seq fun host => ?_
  split
  · exact settles.seq fun _ => hides.seq fun _ => tells
  · exact .pure _

/-- A tag that is not there need not be removed. -/
theorem keeps_removingTag {name : Text}
    (removes : Keeps holds (onDocument (Document.removeTag name))) :
    Keeps holds (removeTagOf name) := by
  refine (keeps_attempt removes).seq fun outcome => ?_
  split
  · exact .pure _
  · exact .pure _
  · exact .throw _

/-- A component goes behind its tag, and the root page without one. -/
theorem keeps_destroying (settles : Keeps holds settle)
    (removes : ∀ stored, Keeps holds (removeTagOf stored))
    (destroys : ∀ stored, Keeps holds (do
      match ← onDocument (Document.destroy stored) with
      | some removed => tell [.removed removed]
      | none => pure () : Action Unit)) (name : Text) : Keeps holds (destroy name) := by
  refine settles.seq fun _ => keeps_loaded.seq fun document => ?_
  split
  · exact .throw _
  next stored _ =>
    split
    · exact (removes stored).seq fun _ => destroys stored
    · exact destroys stored

theorem keeps_destroyingEach (destroys : ∀ name, Keeps holds (destroy name))
    (names : List Text) : Keeps holds (destroyEach names) := by
  induction names with
  | nil => exact .pure _
  | cons name rest ih =>
      refine keeps_loaded.seq fun document => ?_
      split
      · exact ih
      · exact (destroys name).seq fun _ => ih.seq fun _ => .pure _

/-! ## Transactions -/

/-- What depends neither on the transactions nor on what was told. -/
structure Aloof (holds : Host → Prop) : Prop where
  of_eq : ∀ {host after : Host}, holds host →
    after = { host with transactions := after.transactions, events := after.events } → holds after

namespace Aloof

variable (aloof : Aloof holds)

include aloof

theorem keeps_tell (events : List HostEvent) : Keeps holds (tell events) :=
  .modify fun _ held => aloof.of_eq held rfl

theorem keeps_openTransaction (description : Text) :
    Keeps holds (openTransaction description) := fun _ held => aloof.of_eq held rfl

theorem keeps_closeTransaction (handle : Transaction) (commit : Bool) :
    Keeps holds (closeTransaction handle commit) := by
  refine Keeps.get.seq fun host => ?_
  split
  · exact .throw _
  · exact Keeps.seq (.modify fun _ held => aloof.of_eq held rfl) fun _ =>
      (aloof.keeps_tell _).seq fun _ => .pure _

theorem keeps_dropTransaction (handle : Transaction) : Keeps holds (dropTransaction handle) :=
  fun _ held => aloof.of_eq held rfl

theorem keeps_commit (asks : Keeps holds (askRefresh .soft)) (handle : Transaction) :
    Keeps holds (commit handle) := by
  refine (aloof.keeps_closeTransaction handle true).seq fun closed => Keeps.get.seq fun host => ?_
  split
  · exact asks.seq fun _ => .pure _
  · exact .pure _

/-- Work in a transaction of its own keeps what the work keeps. -/
theorem keeps_withTransaction (asks : Keeps holds (askRefresh .soft)) (description : Text)
    {work : Action α} (keeps : Keeps holds work) :
    Keeps holds (withTransaction description work) := by
  refine (aloof.keeps_openTransaction description).seq fun handle =>
    (keeps_attempt keeps).seq fun outcome => ?_
  split
  · exact (aloof.keeps_commit asks handle).discard.seq fun _ => .pure _
  · exact (aloof.keeps_closeTransaction handle false).discard.seq fun _ => .throw _

end Aloof

end PageDesigner.Host
