import PageDesigner.Proofs.Host.Poised

/-!
# One refresh for a transaction

A surface that is shown is refreshed when a transaction is committed and no other is open around
it.  Work on components inside of a transaction, each operation in one of its own, that fails or
not, asks for no refresh (`Host.enclosing_resting`).  So what is done in one transaction draws the
surface once when it is committed, and not at all when it is rolled back
(`Host.drawings_of_transaction`).
-/

namespace PageDesigner

/-- What an event shows of the surface. -/
def HostEvent.drawing? : HostEvent → Option DesignHtml
  | drawn html => some html
  | _ => none

namespace Host

/-- What was drawn of the surface. -/
def drawings (host : Host) : List DesignHtml := host.events.filterMap HostEvent.drawing?

/-- A surface that is shown, inside of some transactions.  No refresh waits, and nothing more was
drawn of it. -/
structure Resting (drawn : List DesignHtml) (frames : List TransactionFrame) (host : Host) :
    Prop where
  phase_eq : host.phase = .activated
  loaded : host.document?.isSome = true
  waiting_eq : host.waiting = []
  frames_eq : host.transactions.frames = frames
  drawings_eq : host.drawings = drawn

variable {α : Type} {host after : Host} {drawn : List DesignHtml} {top : TransactionFrame}
  {rest frames : List TransactionFrame}

theorem drawings_of_silent {told : List HostEvent} (events : after.events = host.events ++ told)
    (silent : ∀ event ∈ told, event.drawing? = none) : after.drawings = host.drawings := by
  unfold drawings
  rw [events, List.filterMap_append, List.filterMap_eq_nil_iff.mpr silent, List.append_nil]

theorem drawing?_of_isOfComponents {event : HostEvent} (own : event.isOfComponents = true) :
    event.drawing? = none := by
  cases event with
  | drawn => cases own
  | _ => rfl

/-! ## Closing a transaction -/

/-- Inside of a transaction, a commit asks for no refresh. -/
theorem commit_of_enclosed {handle closed : Transaction}
    (closes : closeTransaction handle true host = .ok closed after)
    (enclosed : after.transactions.isOpen = true) : commit handle host = .ok closed after := by
  unfold commit
  rw [bind_of_ok closes, bind_of_ok (get_eq after), if_neg (by simp [enclosed])]
  rfl

/-- The outermost commit of a surface that is shown asks for a soft refresh. -/
theorem commit_of_outermost {handle closed : Transaction}
    (closes : closeTransaction handle true host = .ok closed after)
    (shown : after.phase = .activated) (outside : after.transactions.isOpen = false)
    (loaded : after.document?.isSome = true) :
    commit handle host = .ok closed { after with waiting := after.waiting ++ [.soft] } := by
  have asks : askRefresh .soft after =
      .ok () { after with waiting := after.waiting ++ [.soft] } := by
    unfold askRefresh
    rw [modify_eq, if_pos loaded]
  unfold commit
  rw [bind_of_ok closes, bind_of_ok (get_eq after), if_pos (by simp [shown, outside]),
    bind_of_ok asks]
  rfl

namespace Resting

variable (resting : Resting drawn frames host)

include resting

theorem isOpen_eq : host.transactions.isOpen = !frames.isEmpty := by
  unfold TransactionStack.isOpen
  rw [resting.frames_eq]

theorem opened (description : Text) :
    Resting drawn (⟨host.transactions.nextId, description⟩ :: frames) (host.opened description) where
  phase_eq := resting.phase_eq
  loaded := resting.loaded
  waiting_eq := resting.waiting_eq
  frames_eq := congrArg (List.cons _) resting.frames_eq
  drawings_eq := by
    rw [← resting.drawings_eq]
    refine drawings_of_silent rfl fun event told => ?_
    obtain rfl | rfl : _ ∨ _ := by simpa using told
    · rfl
    · rfl

end Resting

/-- The innermost transaction is closed with its handle, and the others are open. -/
theorem Resting.close (resting : Resting drawn (top :: rest) host) (handle : Transaction)
    (unclosed : handle.isClosed = false) (own : top.id = handle.id) (commit : Bool) :
    ∃ closed after, closeTransaction handle commit host = .ok closed after ∧
      Resting drawn rest after ∧ after.document? = host.document? := by
  refine ⟨_, _, closeTransaction_of_top unclosed resting.frames_eq own commit,
    ⟨resting.phase_eq, resting.loaded, resting.waiting_eq, rfl, ?_⟩, rfl⟩
  rw [← resting.drawings_eq]
  refine drawings_of_silent rfl fun event told => ?_
  obtain rfl | rfl : _ ∨ _ := by simpa using told
  · rfl
  · rfl

/-- Inside of others, a transaction is committed or rolled back without a refresh. -/
theorem Resting.finish {around : TransactionFrame}
    (resting : Resting drawn (top :: around :: rest) host) (handle : Transaction)
    (unclosed : handle.isClosed = false) (own : top.id = handle.id) (committed : Bool) :
    ∃ closed after, Host.finish committed handle host = .ok closed after ∧
      Resting drawn (around :: rest) after := by
  obtain ⟨closed, after, closes, resting', -⟩ := resting.close handle unclosed own committed
  cases committed with
  | true => exact ⟨closed, after, commit_of_enclosed closes resting'.isOpen_eq, resting'⟩
  | false => exact ⟨closed, after, closes, resting'⟩

/-! ## Work inside of a transaction -/

theorem steady_resting : Steady (Resting drawn frames) where
  withDocument resting _ _ :=
    ⟨resting.phase_eq, rfl, resting.waiting_eq, resting.frames_eq, resting.drawings_eq⟩
  telling resting own :=
    ⟨resting.phase_eq, resting.loaded, resting.waiting_eq, resting.frames_eq,
      (drawings_of_silent rfl fun event told => drawing?_of_isOfComponents (own event told)).trans
        resting.drawings_eq⟩
  settle host resting := by
    rw [leaves_of_ok (settle_of_waiting resting.waiting_eq)]
    exact resting

/-- Inside of a transaction, work on components asks for no refresh. -/
theorem enclosing_resting (drawn : List DesignHtml) :
    Enclosing fun around : TransactionFrame × List TransactionFrame =>
      Resting drawn (around.1 :: around.2) where
  steady _ := steady_resting
  withTransaction description keeps around host resting := by
    have inside := keeps (_, around.1 :: around.2) _ (resting.opened description)
    exact holds_withTransaction fun committed => inside.finish _ rfl rfl committed

/-! ## The outermost transaction -/

/-- A soft refresh that is asked for draws the surface once. -/
theorem drawings_settled_asked {document : Document} (kept : host.document? = some document)
    (idle : host.waiting = []) :
    (settled { host with waiting := host.waiting ++ [.soft] }).drawings =
      host.drawings ++ [document.designHtml.1] := by
  have waits : host.waiting ++ [Refresh.soft] = [.soft] := by
    rw [idle]
    rfl
  have kept' : { host with waiting := [] }.document? = some document := kept
  have performs : perform .soft { host with waiting := [] } = _ :=
    discard_of_ok (drawSurface_eq kept')
  rw [waits, settled_of_single rfl, leaves_of_ok performs]
  exact List.filterMap_append

variable {registry : Registry} {designers : DesignerRegistry} {options : Options}

/--
Inside of a transaction that is opened on a surface that is shown, work on components draws nothing,
whatever fails of it.  Committing the transaction then leads to the surface being drawn once, as
the work left it, and rolling it back to nothing.
-/
theorem drawings_of_transaction (reaches : Reaches registry designers options host)
    (shown : host.phase = .activated) (settled : host.waiting = [])
    (outside : host.transactions.isOpen = false) (description : Text) {work : Action α}
    (allowed : Work work) :
    ∃ handle opened, openTransaction description host = .ok handle opened ∧
      (leaves work opened).drawings = host.drawings ∧
      (∃ closed after document, commit handle (leaves work opened) = .ok closed after ∧
        (leaves work opened).document? = some document ∧ after.drawings = host.drawings ∧
        after.settled.drawings = host.drawings ++ [document.designHtml.1]) ∧
      ∃ closed after, rollback handle (leaves work opened) = .ok closed after ∧
        after.drawings = host.drawings ∧ after.settled.drawings = host.drawings := by
  have poised := poised_of_reaches reaches
  have loaded : host.document?.isSome = true := by
    rw [Option.isSome_iff_ne_none]
    intro none'
    rw [poised.idle_iff.mpr none'] at shown
    cases shown
  have frames : host.transactions.frames = [] := by
    unfold TransactionStack.isOpen at outside
    exact List.isEmpty_iff.mp (Bool.not_eq_eq_eq_not.mp outside)
  have resting : Resting host.drawings [] host := ⟨shown, loaded, settled, frames, rfl⟩
  let handle : Transaction := (host.transactions.push description).1
  have inside := (enclosing_resting host.drawings).keeps_work (_, []) allowed _
    (resting.opened description)
  refine ⟨_, _, openTransaction_eq host description, inside.drawings_eq, ?_, ?_⟩
  · obtain ⟨document, kept⟩ := Option.isSome_iff_exists.mp inside.loaded
    obtain ⟨closed, middle, closes, resting', document?⟩ := inside.close handle rfl rfl true
    have commits :=
      commit_of_outermost closes resting'.phase_eq resting'.isOpen_eq resting'.loaded
    refine ⟨_, _, document, commits, kept, resting'.drawings_eq, ?_⟩
    rw [drawings_settled_asked (document?.trans kept) resting'.waiting_eq]
    exact congrArg (· ++ _) resting'.drawings_eq
  · obtain ⟨closed, after, closes, resting', -⟩ := inside.close handle rfl rfl false
    refine ⟨_, after, closes, resting'.drawings_eq, ?_⟩
    rw [settled_of_waiting resting'.waiting_eq]
    exact resting'.drawings_eq

/-- A page with a form is shown. -/
def shownPage : Host :=
  runAll [.load "<form runat=\"server\"></form>", .activate, .settle]
    (new .standard .standard .standard)

/-- A label is created and removed again.  In between, a transaction fails behind the creation of a
button, whose text is to be a flag. -/
def placing : Action Unit := do
  discard (create "Label" (some "A"))
  let _ ← attempt (withTransaction "Place a button" (do
    let _ ← create "Button" (some "B")
    setProperty "B" "Text" (.boolean true)))
  remove "A"

theorem work_placing : Work placing := by
  refine .bind (.component (.create "Label" (some "A"))) fun _ => ?_
  refine .bind (.attempt (.withTransaction _ ?_)) fun _ => .remove "A"
  exact .bind (.create "Button" (some "B")) fun _ =>
    .component (.set "B" "Text" (.boolean true))

theorem drawings_of_transaction_placing :
    Reaches .standard .standard .standard shownPage ∧ shownPage.phase = .activated ∧
      shownPage.waiting = [] ∧ shownPage.transactions.isOpen = false ∧ Work placing ∧
      ∃ handle opened, openTransaction "Place" shownPage = .ok handle opened ∧
        (leaves placing opened).drawings = shownPage.drawings ∧
        (∃ closed after document, commit handle (leaves placing opened) = .ok closed after ∧
          (leaves placing opened).document? = some document ∧
          after.drawings = shownPage.drawings ∧
          after.settled.drawings = shownPage.drawings ++ [document.designHtml.1]) ∧
        ∃ closed after, rollback handle (leaves placing opened) = .ok closed after ∧
          after.drawings = shownPage.drawings ∧ after.settled.drawings = shownPage.drawings := by
  have reaches : Reaches .standard .standard .standard shownPage := reaches_runAll _ .refl
  have shown : shownPage.phase = .activated := by decide +kernel
  have settled : shownPage.waiting = [] := by decide +kernel
  have outside : shownPage.transactions.isOpen = false := by decide +kernel
  exact ⟨reaches, shown, settled, outside, work_placing,
    drawings_of_transaction reaches shown settled outside "Place" work_placing⟩

end Host

end PageDesigner
