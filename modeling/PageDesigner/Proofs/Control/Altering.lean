import PageDesigner.Proofs.Control.Rereading

/-!
# What is done to a component

A component is only ever altered by the operations of this list (`Component.Alters`).  None
of them touches its type or the list of controls of a page.
-/

namespace PageDesigner

namespace Component

/-- What one operation makes of a component. -/
inductive Alters (component : Component) : Component → Prop
  | kept : Alters component component
  | set {name : Text} {value : Value} {old? : Option Value} {changed : Component}
      (done : component.set name value = .ok (old?, changed)) : Alters component changed
  | reset {name : Text} {old? : Option Value} {changed : Component}
      (done : component.reset name = .ok (old?, changed)) : Alters component changed
  | bind {event handler : Text} {changed : Component}
      (done : component.bind event handler = .ok changed) : Alters component changed
  | unbind (event : Text) : Alters component (component.unbind event)
  | prepared : Alters component component.prepared
  | readTag (element : Element) (restoring : Bool) :
      Alters component (component.readTag element restoring).1

/-- A caption is set like any other text. -/
theorem alters_initialized (component : Component) : component.Alters component.initialized := by
  unfold initialized
  split
  · exact .kept
  · split
    · split
      · next done => exact .set done
      · exact .kept
    · exact .kept

variable {component changed : Component}

theorem Alters.frame (alters : component.Alters changed) :
    changed.controlType = component.controlType ∧ changed.children = component.children := by
  cases alters with
  | kept => exact ⟨rfl, rfl⟩
  | set done =>
      obtain ⟨_, _, rfl⟩ := set_inv done
      exact ⟨rfl, rfl⟩
  | reset done =>
      obtain ⟨_, _, rfl⟩ := Reading.reset_inv done
      exact ⟨rfl, rfl⟩
  | bind done =>
      unfold Component.bind at done
      split at done
      · rw [← Except.ok.inj done]
        exact ⟨rfl, rfl⟩
      · cases done
  | unbind event =>
      unfold Component.unbind
      split <;> exact ⟨rfl, rfl⟩
  | prepared =>
      unfold Component.prepared
      split <;> exact ⟨rfl, rfl⟩
  | readTag => exact ⟨controlType_readTag _ _ _, (readTag_frame _ _ _).2.1⟩

end Component

end PageDesigner
