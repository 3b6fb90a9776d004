import PageDesigner.Proofs.Host.Nesting
import PageDesigner.Proofs.Host.Steady

/-!
# What operations do with transactions

Most of what a host does leaves the transactions alone and tells nothing of them
(`Host.Transactional`).  What runs in a transaction of its own opens one and closes it again, so
the transactions that were open before are open behind it, and what was told in between is
properly nested (`Host.Balanced`).  This is all that operations do with transactions unless
they give or take a handle (`Host.keeps_operation_balanced`).
-/

namespace PageDesigner

/-- What an event tells of a transaction. -/
def HostEvent.transaction? : HostEvent → Option TransactionEvent
  | .transaction event => some event
  | _ => none

theorem HostEvent.transaction?_of_isOfComponents {event : HostEvent}
    (own : event.isOfComponents = true) : event.transaction? = none := by
  cases event with
  | transaction => cases own
  | _ => rfl

namespace Host

open TransactionEvent TransactionStack

/-- What was told of transactions. -/
def transactionLog (host : Host) : List TransactionEvent :=
  host.events.filterMap HostEvent.transaction?

/-- Whether an operation gives or takes the handle of a transaction. -/
def Operation.isOfHandles : Operation → Bool
  | openTransaction _ | commit _ | rollback _ | dropTransaction _ => true
  | _ => false

/-- What only depends on the transactions and on what was told of them. -/
structure Transactional (holds : Host → Prop) : Prop where
  of_eq : ∀ {host after : Host}, holds host → after.transactions = host.transactions →
    after.transactionLog = host.transactionLog → holds after

variable {α : Type} {holds : Host → Prop} {host : Host} {handle : Transaction}
  {frames : List TransactionFrame} {least : Nat}

theorem transactionLog_telling (host : Host) (transactions : TransactionStack)
    (events : List TransactionEvent) :
    transactionLog { host with transactions, events := host.events ++ events.map .transaction } =
      host.transactionLog ++ events := by
  have told : (events.map HostEvent.transaction).filterMap HostEvent.transaction? = events := by
    rw [List.filterMap_map]
    exact List.filterMap_some
  unfold transactionLog
  dsimp only
  rw [List.filterMap_append, told]

/-! ## What leaves the transactions alone -/

namespace Transactional

variable (transactional : Transactional holds)

include transactional

theorem keeps_modify {change : Host → Host} (transactions : ∀ host,
    (change host).transactions = host.transactions)
    (events : ∀ host, (change host).events = host.events) :
    Keeps holds (modify change : Action PUnit) := by
  refine .modify fun host held => transactional.of_eq held (transactions host) ?_
  unfold transactionLog
  rw [events host]

theorem keeps_tell {events : List HostEvent}
    (silent : events.filterMap HostEvent.transaction? = []) : Keeps holds (tell events) := by
  refine .modify fun host held => transactional.of_eq held rfl ?_
  unfold transactionLog
  rw [List.filterMap_append, silent, List.append_nil]

theorem keeps_onDocument (action : Document.Action α) : Keeps holds (onDocument action) :=
  keeps_onDocument_of fun held _ => transactional.of_eq held rfl rfl

theorem keeps_onSurface (change : Surface → Surface) : Keeps holds (onSurface change) :=
  transactional.keeps_modify (fun _ => rfl) fun _ => rfl

theorem keeps_tellChanges (report : ScanReport) : Keeps holds (tellChanges report) := by
  refine transactional.keeps_tell ?_
  rw [List.filterMap_append, List.filterMap_map, List.filterMap_map]
  refine List.append_eq_nil_iff.mpr ⟨?_, ?_⟩
  · exact List.filterMap_eq_nil_iff.mpr fun _ _ => rfl
  · exact List.filterMap_eq_nil_iff.mpr fun _ _ => rfl

theorem keeps_drawSurface : Keeps holds drawSurface :=
  keeps_drawing (transactional.keeps_onDocument _) fun _ => transactional.keeps_tell rfl

theorem keeps_settle : Keeps holds settle :=
  keeps_settling (transactional.keeps_modify (fun _ => rfl) fun _ => rfl) (keeps_performing
    transactional.keeps_drawSurface (transactional.keeps_onDocument _)
    transactional.keeps_tellChanges)

theorem keeps_askRefresh (refresh : Refresh) : Keeps holds (askRefresh refresh) := by
  refine transactional.keeps_modify (fun host => ?_) fun host => ?_
  · split <;> rfl
  · split <;> rfl

/-! ### From loading to reset -/

theorem keeps_reset : Keeps holds reset := by
  refine keeps_resetting transactional.keeps_settle (fun names => transactional.keeps_tell ?_)
    (transactional.keeps_modify (fun _ => rfl) fun _ => rfl)
  rw [List.filterMap_map]
  exact List.filterMap_eq_nil_iff.mpr fun _ _ => rfl

theorem keeps_load (text : Text) : Keeps holds (load text) := by
  refine Keeps.get.bind fun state host middle held ran _ => ?_
  obtain ⟨rfl, rfl⟩ := EStateM.Result.ok.inj ran
  have loading (document : Document) :
      holds { state with phase := .loading, document? := some document } :=
    transactional.of_eq held rfl rfl
  dsimp only
  split
  · exact held
  rw [leaves_bind_set]
  refine (transactional.keeps_onDocument _).seq (fun root => ?_) _ (loading _)
  refine (transactional.keeps_tell rfl).seq fun _ =>
    (keeps_attempt (transactional.keeps_onDocument _)).seq fun outcome => ?_
  split
  · exact transactional.keeps_reset.seq fun _ => .throw _
  · exact (transactional.keeps_tellChanges _).seq fun _ =>
      Keeps.seq (transactional.keeps_modify (fun _ => rfl) fun _ => rfl) fun _ =>
        Keeps.seq (transactional.keeps_tell rfl) fun _ => .pure _

theorem keeps_activate : Keeps holds activate := by
  refine Keeps.get.seq fun host => ?_
  dsimp only
  split
  · exact .throw _
  refine keeps_loaded.seq fun document => ?_
  split
  · exact .throw _
  · exact (transactional.keeps_onSurface _).seq fun _ =>
      Keeps.seq (transactional.keeps_modify (fun _ => rfl) fun _ => rfl) fun _ =>
        Keeps.seq (transactional.keeps_tell rfl) fun _ => transactional.keeps_askRefresh _

theorem keeps_deactivate : Keeps holds deactivate :=
  keeps_deactivating transactional.keeps_settle
    (transactional.keeps_modify (fun _ => rfl) fun _ => rfl) (transactional.keeps_tell rfl)

/-! ### Other operations -/

theorem steady : Steady holds where
  withDocument held _ _ := transactional.of_eq held rfl rfl
  telling held own := transactional.keeps_tell (List.filterMap_eq_nil_iff.mpr fun event told =>
    HostEvent.transaction?_of_isOfComponents (own event told)) _ held
  settle := transactional.keeps_settle

theorem keeps_replay (edit : Edit) : Keeps holds (replay edit) :=
  keeps_replaying transactional.keeps_settle (transactional.keeps_onDocument _)
    (transactional.keeps_onDocument _) (transactional.keeps_askRefresh _)

theorem keeps_receive (raw : Text) : Keeps holds (receive raw) :=
  keeps_receiving transactional.keeps_settle transactional.steady.keeps_select
    (fun _ _ _ => transactional.keeps_tell rfl) raw

end Transactional

/-! ## Transactions of an operation -/

/-- Closing a transaction tells so, or nothing happens. -/
theorem finish_cases (committed : Bool) (handle : Transaction) (host : Host) :
    (∃ failure, host.transactions.close handle committed = .error failure ∧
        finish committed handle host = .error failure host) ∨
      ∃ closed transactions events after,
        host.transactions.close handle committed = .ok (closed, transactions, events) ∧
        finish committed handle host = .ok closed after ∧
        after.transactions = transactions ∧
        after.transactionLog = host.transactionLog ++ events := by
  cases closes : host.transactions.close handle committed with
  | error failure =>
      have refused : closeTransaction handle committed host = .error failure host := by
        unfold closeTransaction
        rw [bind_of_ok (get_eq host), closes]
        rfl
      refine .inl ⟨failure, rfl, ?_⟩
      cases committed with
      | true => exact bind_of_error refused _
      | false => exact refused
  | ok outcome =>
      obtain ⟨closed, transactions, events⟩ := outcome
      have done : closeTransaction handle committed host = .ok closed { host with
          transactions, events := host.events ++ events.map .transaction } := by
        unfold closeTransaction
        rw [bind_of_ok (get_eq host), closes]
        rfl
      refine .inr ⟨closed, transactions, events, ?_⟩
      have told := host.transactionLog_telling transactions events
      cases committed with
      | false => exact ⟨_, rfl, done, rfl, told⟩
      | true =>
          change ∃ after, _ ∧ commit handle host = _ ∧ _
          unfold commit
          rw [bind_of_ok done, bind_of_ok (get_eq _)]
          split
          · refine ⟨_, rfl, bind_of_ok (modify_eq _ _) _, ?_, ?_⟩
            · dsimp only
              split <;> rfl
            · refine Eq.trans ?_ told
              dsimp only
              split <;> rfl
          · exact ⟨_, rfl, rfl, rfl, told⟩

/-- The transactions that were open are open, and what was told is the beginning of a properly
nested sequence. -/
structure Balanced (frames : List TransactionFrame) (least : Nat) (host : Host) : Prop where
  frames_eq : host.transactions.frames = frames
  least_le : least ≤ host.transactions.nextId
  bracketed : host.transactions.Bracketed host.transactionLog

theorem transactional_balanced : Transactional (Balanced frames least) where
  of_eq := by
    intro host after balanced transactions log
    refine ⟨?_, ?_, ?_⟩
    · rw [transactions]
      exact balanced.frames_eq
    · rw [transactions]
      exact balanced.least_le
    · rw [transactions, log]
      exact balanced.bracketed

namespace Balanced

theorem opened (balanced : Balanced frames least host) (description : Text) :
    Balanced (⟨host.transactions.nextId, description⟩ :: frames) least
      (host.opened description) where
  frames_eq := congrArg (List.cons _) balanced.frames_eq
  least_le := Nat.le_succ_of_le balanced.least_le
  bracketed := by
    have told : (host.opened description).transactionLog =
        host.transactionLog ++ openings description :=
      host.transactionLog_telling (host.transactions.push description).2.1 (openings description)
    rw [told]
    exact balanced.bracketed.push description

/-- The innermost transaction is closed with its handle. -/
theorem finish {top : TransactionFrame} (balanced : Balanced (top :: frames) least host)
    (unclosed : handle.isClosed = false) (own : top.id = handle.id)
    (described : top.description = handle.description) (committed : Bool) :
    ∃ closed after, Host.finish committed handle host = .ok closed after ∧
      Balanced frames least after := by
  have closes : host.transactions.close handle committed =
      .ok ({ handle with isClosed := true }, { host.transactions with frames },
        closings handle.description committed) :=
    close_of_top unclosed balanced.frames_eq own committed
  obtain ⟨_, refused, -⟩ | ⟨closed, _, _, after, done, ran, stack, log⟩ :=
    finish_cases committed handle host
  · rw [closes] at refused
    cases refused
  · rw [closes] at done
    obtain ⟨rfl, rfl, rfl⟩ : _ ∧ _ ∧ _ := by simpa using done
    have bracketed := balanced.bracketed
    rw [show host.transactions = ⟨top :: frames, host.transactions.nextId⟩ by
      rw [← balanced.frames_eq]] at bracketed
    refine ⟨_, after, ran, ?_, ?_, ?_⟩
    · rw [stack]
    · rw [stack]
      exact balanced.least_le
    · rw [stack, log, ← described]
      exact bracketed.pop committed

end Balanced

/-- What runs in a transaction of its own leaves the others open. -/
theorem enclosing_balanced : Enclosing fun around : List TransactionFrame × Nat =>
    Balanced around.1 around.2 where
  steady _ := transactional_balanced.steady
  withTransaction description keeps around host balanced := by
    have inside := keeps (_, around.2) _ (balanced.opened description)
    exact holds_withTransaction fun committed => inside.finish rfl rfl rfl committed

/-- An operation without handles leaves the transactions open that were open. -/
theorem keeps_operation_balanced (operation : Operation)
    (apart : operation.isOfHandles = false) : Keeps (Balanced frames least) operation.run := by
  have transactional : Transactional (Balanced frames least) := transactional_balanced
  cases operation with
  | component operation => exact enclosing_balanced.keeps_component (frames, least) operation
  | bind name event handler? =>
      exact enclosing_balanced.keeps_setHandler (frames, least) name event handler?
  | removeSelected => exact (enclosing_balanced.keeps_removeSelected (frames, least)).discard
  | load text => exact (transactional.keeps_load text).discard
  | loadFile content =>
      cases content with
      | ok text => exact (transactional.keeps_load text).discard
      | error reason => exact Keeps.discard (.throw _)
  | activate => exact transactional.keeps_activate
  | deactivate => exact transactional.keeps_deactivate
  | reset => exact transactional.keeps_reset
  | askRefresh refresh => exact transactional.keeps_askRefresh refresh
  | settle => exact transactional.keeps_settle
  | serialize =>
      exact (transactional.keeps_settle.seq fun _ => transactional.keeps_drawSurface).discard
  | openTransaction | commit | rollback | dropTransaction => cases apart
  | replay change => exact (transactional.keeps_replay change).discard
  | select names primary => exact transactional.steady.keeps_select names primary
  | receive raw => exact (transactional.keeps_receive raw).discard
  | edit change => exact (transactional.keeps_onDocument _).discard
  | markDirty =>
      unfold Operation.run
      exact transactional.keeps_onDocument _
  | parse => exact (transactional.keeps_onDocument _).discard
  | draw => exact (transactional.keeps_onDocument _).discard
  | scan mode => exact (transactional.keeps_onDocument _).discard
  | reselect selection => exact transactional.keeps_onSurface _
  | directives table =>
      unfold Operation.run
      exact transactional.keeps_onDocument _

end Host

end PageDesigner
