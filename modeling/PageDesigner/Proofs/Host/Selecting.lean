import PageDesigner.Proofs.Host.Succeeding
import PageDesigner.Proofs.Surface.Selecting

/-!
# Selecting by index

The primary selection is asked for by an index into the names as they are sent, and taken by the
same index from what is left of them when unknown names are dropped and repeated ones merged.
`Host.primary_of_select_iff` says when both are the same.
-/

namespace PageDesigner.Host

variable {host : Host} {document : Document}

/-- Selecting replaces the selection, and tells it. -/
theorem select_eq (kept : host.document? = some document) (names : List Text) (index : Nat) :
    select names index host = .ok () { host with
      document? := some (document.onSurface fun surface =>
        surface.select (surface.known names) index)
      events := host.events ++ [.selected
        (document.surface.select (document.surface.known names) index).selection.names
        (document.surface.select (document.surface.known names) index).selection.primary?] } := by
  obtain ⟨registry, designers, options, phase, document?, transactions, waiting, events⟩ := host
  obtain rfl : document? = some document := kept
  rfl

/-- A message that changes the selection is a selection by the settled host. -/
theorem receive_selectionChanged {raw : Text} {names : List Text} {primary : UInt64}
    (message : SurfaceMessage.parse? raw = some (.selectionChanged names primary))
    (kept : host.settled.document? = some document) {after : Host}
    (selects : select names primary.toNat host.settled = .ok () after) :
    receive raw host = .ok (some (.selectionChanged names primary)) after := by
  have obeys : obey (.selectionChanged names primary) host = .ok () after := by
    unfold obey
    rw [bind_of_ok (settle_of_kept kept)]
    exact selects
  unfold receive
  rw [message]
  dsimp only
  rw [bind_of_ok obeys]
  rfl

/--
Whether the names come from a call or from a message, the stored names of the components that they
stand for are selected in the order of their first appearance.  The name at the index gives the
primary one just when every name before it stands for a component, none of them and it for the same
one, or when its component is the last one that is selected.
-/
theorem primary_of_select_iff {names : List Text} {index : Nat} {name stored : Text}
    (kept : host.document? = some document) (asked : names[index]? = some name)
    (found : document.surface.container.storedName? name = some stored) :
    ∃ after, select names index host = .ok () after ∧
      (∀ raw primary before,
        SurfaceMessage.parse? raw = some (.selectionChanged names primary) →
        primary.toNat = index → before.settled = host →
          receive raw before = .ok (some (.selectionChanged names primary)) after) ∧
      after.events =
        host.events ++ [.selected after.selection.names after.selection.primary?] ∧
      after.selection.names =
        (names.filterMap document.surface.container.storedName?).eraseDups ∧
      (after.selection.primary? = some stored ↔
        ((∀ former ∈ names.take index,
            (document.surface.container.storedName? former).isSome = true) ∧
          ((names.take (index + 1)).map Text.lower).Nodup) ∨
        after.selection.names.getLast? = some stored) := by
  refine ⟨_, select_eq kept names index, ?_, rfl,
    document.surface.names_select_known names index,
    Surface.primary?_select_known_iff asked found⟩
  rintro raw primary before message rfl rfl
  exact receive_selectionChanged message kept (select_eq kept names _)

/-- An unknown name in front of two labels makes the second of them the primary one where the first
one is asked for. -/
theorem primary_of_select_ghost :
    ∃ report host after,
      load "<asp:Label id=\"A\" runat=\"server\"/><asp:Label id=\"B\" runat=\"server\"/>"
        (new .standard .standard .standard) = .ok report host ∧
      select ["ghost", "a", "B"] 1 host = .ok () after ∧
      after.selection.names = ["A", "B"] ∧ after.selection.primary? ≠ some ("A" : Text) := by
  have runs : succeedsWith (fun _ host => host.document?.any fun document =>
        document.surface.container.storedName? "a" = some ("A" : Text) &&
        document.surface.container.storedName? "ghost" = none &&
        ((["ghost", "a", "B"] : List Text).filterMap
          document.surface.container.storedName?).eraseDups = (["A", "B"] : List Text))
      (load "<asp:Label id=\"A\" runat=\"server\"/><asp:Label id=\"B\" runat=\"server\"/>")
      (new .standard .standard .standard) = true := by decide +kernel
  obtain ⟨report, host, loaded, facts⟩ := exists_of_succeedsWith runs
  simp only [Option.any_eq_true, Bool.and_eq_true, decide_eq_true_eq] at facts
  obtain ⟨document, kept, ⟨found, unknown⟩, names⟩ := facts
  obtain ⟨after, selects, -, -, selected, primary⟩ := @primary_of_select_iff host document
    ["ghost", "a", "B"] 1 "a" "A" kept rfl found
  rw [names] at selected
  refine ⟨report, host, after, loaded, selects, selected, ?_⟩
  rw [Ne, primary, selected]
  rintro (⟨sited, -⟩ | last)
  · have sited' := sited "ghost" (by decide)
    rw [unknown] at sited'
    cases sited'
  · exact absurd last (by decide)

end PageDesigner.Host
