import PageDesigner.Proofs.Markup.Extent

/-!
# Every element left open is reported

An element is left open in three ways: a closing tag skips it, the text ends before it is
closed, or it holds raw text that is never closed.  In the first two ways it leaves the stack
together with its warning, in the third the two are events that follow each other.  So a
growing tree always has as many warnings more than it has elements left open as the events
that were read so far have (`Growth.Accounts`), and all events of a text have as many of the
one as of the other (`Event.tallies_events`).  What is left open in a parsed tree and what is
reported of it therefore correspond one to one (`Tree.warnings_parse`).
-/

namespace PageDesigner

namespace Element

/-- Whether nothing in the text ends the element. -/
def isUnterminated (element : Element) : Bool := element.ending = .unterminated

/-- The warning about an element that is left open: its full name, where it begins, and its opening
tag. -/
def warning (element : Element) : Diagnostic :=
  ⟨.warning, .unterminatedTag element.name.text element.region.first, element.region⟩

end Element

/-- The warnings that the elements of a forest call for. -/
def Node.warningsOf (nodes : List Node) : List Diagnostic :=
  ((Node.elementsOf nodes).filter (·.isUnterminated)).map Element.warning

namespace Tree

/-- The elements of a tree that are left open. -/
def unterminated (tree : Tree) : List Element := tree.elements.filter (·.isUnterminated)

/-- What is reported about elements that are left open. -/
def unclosed (tree : Tree) : List Diagnostic := tree.diagnostics.filter (·.isUnclosed)

end Tree

namespace Node

theorem warningsOf_append (first second : List Node) :
    warningsOf (first ++ second) = warningsOf first ++ warningsOf second := by
  simp [warningsOf, elementsOf_append]

/-- An element calls for its own warning, and for those of its children. -/
theorem warningsOf_element (tag : Tag) (ending : TagEnd) (children : List Node) :
    warningsOf [.element tag ending children] =
      (if ending = .unterminated then [(⟨tag, ending, children⟩ : Element).warning] else []) ++
        warningsOf children := by
  unfold warningsOf
  rw [elementsOf_element, List.filter_cons]
  by_cases left : ending = .unterminated
  · simp [left, Element.isUnterminated]
  · simp [left, Element.isUnterminated]

end Node

/-! ## What events report and what they leave open -/

namespace Event

/-- What an event reports about an element that is left open. -/
def reported : Event → List Diagnostic
  | .problem diagnostic => [diagnostic].filter (·.isUnclosed)
  | _ => []

/-- The warnings that an event calls for. -/
def due : Event → List Diagnostic
  | .leaf node => Node.warningsOf [node]
  | _ => []

/-- The events report what they leave open. -/
def Tallies (events : List Event) : Prop := events.flatMap reported = events.flatMap due

variable {events later : List Event}

theorem Tallies.append (first : Tallies events) (second : Tallies later) :
    Tallies (events ++ later) := by
  unfold Tallies at *
  rw [List.flatMap_append, List.flatMap_append, first, second]

theorem tallies_nil : Tallies [] := rfl

/-- A problem of another kind. -/
theorem tallies_problem {diagnostic : Diagnostic} (other : diagnostic.isUnclosed = false) :
    Tallies [.problem diagnostic] := by
  simp [Tallies, reported, due, other]

/-- A node that is no element, or one that is ended. -/
theorem tallies_leaf {node : Node} (ended : Node.warningsOf [node] = []) :
    Tallies [.leaf node] := by
  simp [Tallies, reported, due, ended]

/-- A construct that may never be closed, which is a problem of its own. -/
theorem tallies_enclosed (part : Enclosed) {problem : Problem} {region : Region} {node : Node}
    (other : Diagnostic.isUnclosed ⟨.error, problem, region⟩ = false)
    (ended : Node.warningsOf [node] = []) :
    Tallies (unlessClosed part problem region ++ [.leaf node]) := by
  refine .append ?_ (tallies_leaf ended)
  unfold unlessClosed
  split
  · exact tallies_nil
  · exact tallies_problem other

theorem tallies_malformed (first : Location) (tag : TagText) : Tallies (malformed first tag) := by
  unfold malformed
  split
  · exact tallies_nil
  · exact tallies_nil
  · exact tallies_problem rfl

/-- Only raw text without a closing tag leaves its element open at once, and reports it. -/
theorem tallies_openingTag (first : Location) (tag : TagText) :
    Tallies (openingTag first tag.text).1 := by
  have quiet := tallies_malformed first tag
  have whole : ∀ {ending : TagEnd}, ending ≠ .unterminated →
      Tallies (malformed first tag ++ [.leaf (.element (tag.tagOf first) ending [])]) := by
    intro ending ended
    refine quiet.append (tallies_leaf ?_)
    rw [Node.warningsOf_element, if_neg ended]
    rfl
  rw [openingTag_text]
  split
  · exact whole TagEnd.noConfusion
  split
  · exact whole TagEnd.noConfusion
  split
  · split
    · exact whole TagEnd.noConfusion
    · exact quiet.append rfl
  · exact quiet.append rfl

theorem tallies_construct (first : Location) (text : Text) :
    Tallies (construct first text).1 := by
  by_cases named : text.head?.any startsTagName = true
  · obtain ⟨tag, rfl⟩ := TagText.exists_tagText named
    rw [construct_of_name named]
    exact tallies_openingTag first tag
  unfold construct
  split
  · exact tallies_enclosed _ rfl rfl
  split
  · exact tallies_enclosed _ rfl rfl
  split
  · exact tallies_enclosed _ rfl rfl
  split
  · exact tallies_enclosed _ rfl rfl
  split
  · exact tallies_leaf rfl
  split
  · exact tallies_nil
  split
  · rfl
  · next plain =>
      rw [if_neg (by simpa using named)]
      exact tallies_nil

theorem tallies_eventsFrom (location : Location) (skip : Nat) (text : Text) :
    Tallies (eventsFrom location skip text) := by
  induction text generalizing location skip with
  | nil => cases skip <;> exact tallies_nil
  | cons char rest ih =>
      cases skip with
      | succ skip => exact ih _ _
      | zero =>
          unfold eventsFrom
          split
          · exact (tallies_construct location rest).append (ih _ _)
          · exact ih _ _

/-- The events of a text report every element that they leave open. -/
theorem tallies_events (text : Text) : Tallies (Event.events text) :=
  tallies_eventsFrom .start 0 text

end Event

/-! ## What a growing tree reports and what it leaves open -/

namespace Growth

/-- What has been reported about elements that are left open. -/
def reported (growth : Growth) : List Diagnostic := growth.diagnostics.filter (·.isUnclosed)

/-- The warnings that everything finished so far calls for. -/
def due (growth : Growth) : List Diagnostic :=
  Node.warningsOf growth.nodes ++ growth.stack.flatMap (Node.warningsOf ·.children)

/-- What is reported beyond what is left open is due to the events. -/
def Accounts (events : List Event) (growth : Growth) : Prop :=
  (growth.reported ++ events.flatMap Event.due).Perm (growth.due ++ events.flatMap Event.reported)

variable {events : List Event} {growth : Growth}

theorem due_add (growth : Growth) (node : Node) :
    (growth.add node).due.Perm (growth.due ++ Node.warningsOf [node]) := by
  obtain ⟨nodes, stack, diagnostics⟩ := growth
  rw [List.perm_iff_count]
  intro diagnostic
  cases stack with
  | nil => simp [add, due, Node.warningsOf_append]
  | cons top rest =>
      simp only [add, due, Node.warningsOf_append, List.flatMap_cons, List.count_append]
      omega

theorem reported_add (growth : Growth) (node : Node) :
    (growth.add node).reported = growth.reported := by
  obtain ⟨nodes, stack, diagnostics⟩ := growth
  cases stack with
  | nil => rfl
  | cons top rest => rfl

theorem reported_endInnermost (growth : Growth) (ending : TagEnd) :
    (growth.endInnermost ending).reported = growth.reported := by
  obtain ⟨nodes, stack, diagnostics⟩ := growth
  cases stack with
  | nil => rfl
  | cons top rest => exact reported_add _ _

/-- Ending the innermost open element calls for a warning just if it is left open. -/
theorem due_endInnermost {top : OpenElement} {rest : List OpenElement}
    (shape : growth.stack = top :: rest) (ending : TagEnd) :
    (growth.endInnermost ending).due.Perm (growth.due ++
      if ending = .unterminated then [(⟨top.tag, ending, top.children⟩ : Element).warning]
      else []) := by
  obtain ⟨nodes, stack, diagnostics⟩ := growth
  obtain rfl : stack = top :: rest := shape
  refine (due_add _ _).trans ?_
  rw [Node.warningsOf_element, List.perm_iff_count]
  intro diagnostic
  simp only [due, List.flatMap_cons, List.count_append]
  omega

namespace Accounts

theorem empty : Accounts [] .empty := .refl _

/-- An element that is closed calls for nothing. -/
theorem endInnermost (accounts : Accounts events growth) {ending : TagEnd}
    (ended : ending ≠ .unterminated) : Accounts events (growth.endInnermost ending) := by
  cases shape : growth.stack with
  | nil =>
      unfold Growth.endInnermost
      rw [shape]
      exact accounts
  | cons top rest =>
      have due := due_endInnermost shape ending
      rw [if_neg ended, List.append_nil] at due
      unfold Accounts
      rw [reported_endInnermost]
      exact accounts.trans (due.symm.append_right _)

/-- An element that is left open is reported at once. -/
theorem abandonInnermost (accounts : Accounts events growth) :
    Accounts events growth.abandonInnermost := by
  unfold Growth.abandonInnermost
  split
  · exact accounts
  · next top rest shape =>
      have due := @due_endInnermost (growth.report (.unclosed top.tag.name.text top.tag.region))
        top rest shape .unterminated
      unfold Accounts at accounts ⊢
      rw [reported_endInnermost]
      rw [List.perm_iff_count] at *
      intro diagnostic
      have before := accounts diagnostic
      have behind := due diagnostic
      have told : (growth.report (.unclosed top.tag.name.text top.tag.region)).reported =
          growth.reported ++ [(⟨top.tag, .unterminated, top.children⟩ : Element).warning] := by
        unfold reported report
        rw [List.filter_append]
        rfl
      have same : (growth.report (.unclosed top.tag.name.text top.tag.region)).due =
          growth.due := rfl
      rw [same, if_pos rfl] at behind
      rw [told]
      simp only [List.count_append] at before behind ⊢
      omega

theorem abandon (accounts : Accounts events growth) (count : Nat) :
    Accounts events (Growth.abandon count growth) := by
  induction count generalizing growth with
  | zero => exact accounts
  | succ count ih => exact ih accounts.abandonInnermost

/-- Taking in an event keeps the account. -/
theorem take (accounts : Accounts events growth) (event : Event) :
    Accounts (events ++ [event]) (growth.take event) := by
  -- An event that neither reports nor leaves anything open does not count.
  have idle : ∀ {after : Growth}, event.reported = [] → event.due = [] →
      Accounts events after → Accounts (events ++ [event]) after := by
    intro after quiet ended accounts'
    unfold Accounts at *
    simpa [List.flatMap_append, quiet, ended] using accounts'
  cases event with
  | problem diagnostic =>
      unfold Accounts at *
      have told : (growth.report diagnostic).reported =
          growth.reported ++ [diagnostic].filter (·.isUnclosed) := List.filter_append _ _
      have same : (growth.report diagnostic).due = growth.due := rfl
      unfold Growth.take
      dsimp only
      rw [told, same, List.perm_iff_count] at *
      intro other
      have before := accounts other
      simp only [List.flatMap_append, List.flatMap_singleton, Event.reported, Event.due,
        List.count_append, List.count_nil] at before ⊢
      omega
  | leaf node =>
      unfold Accounts at *
      unfold Growth.take
      dsimp only
      have due := due_add growth node
      rw [reported_add, List.perm_iff_count] at *
      intro other
      have before := accounts other
      have behind := due other
      simp only [List.flatMap_append, List.flatMap_singleton, Event.reported, Event.due,
        List.count_append, List.count_nil] at before behind ⊢
      omega
  | opened tag =>
      refine idle rfl rfl ?_
      have same : (growth.take (.opened tag)).due = growth.due := by
        simp [Growth.take, due, Node.warningsOf, Node.elementsOf]
      unfold Accounts
      rw [same]
      exact accounts
  | closed name region =>
      refine idle rfl rfl ?_
      unfold Growth.take
      dsimp only
      split
      · exact (accounts.abandon _).endInnermost (by simp)
      · have told : (growth.report
            ⟨.warning, .strayClosingTag name region.first, region⟩).reported =
              growth.reported := by
          unfold reported report
          rw [List.filter_append]
          exact List.append_nil _
        unfold Accounts
        rw [told]
        exact accounts

theorem foldl (accounts : Accounts events growth) (later : List Event) :
    Accounts (events ++ later) (later.foldl Growth.take growth) := by
  induction later generalizing events growth with
  | nil =>
      rw [List.append_nil]
      exact accounts
  | cons event later ih =>
      have next := ih (accounts.take event)
      rw [List.append_assoc] at next
      exact next

end Accounts

/-- The finished tree accounts for all events. -/
theorem accounts_ofEvents (events : List Event) : Accounts events (ofEvents events) :=
  (Accounts.empty.foldl events).abandon _

end Growth

/-- The warnings that a text gets about elements left open are those that its elements call for. -/
theorem Tree.warnings_parse (text : Text) :
    (parse text).unclosed.Perm (Node.warningsOf (parse text).nodes) := by
  have accounts := Growth.accounts_ofEvents (Event.events text)
  have tallies := Event.tallies_events text
  unfold Growth.Accounts Event.Tallies at *
  rw [tallies] at accounts
  have both := (List.perm_append_right_iff _).mp accounts
  unfold Growth.due at both
  rw [Growth.stack_ofEvents, List.flatMap_nil, List.append_nil] at both
  exact both

end PageDesigner
