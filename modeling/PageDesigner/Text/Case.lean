import PageDesigner.Text.Basic

/-!
# Letter case

Names in markup are compared without regard to letter case.  Only the ASCII
letters take part: `É` and `é` are different characters everywhere in a page.
-/

namespace PageDesigner.Text

/-- The text with every ASCII capital replaced by its small letter. -/
def lower (text : Text) : Text := text.map Char.toLower

/-- Equality up to the case of ASCII letters. -/
def sameName (first second : Text) : Bool := first.lower == second.lower

/-- Replace a text that is the name `old` up to letter case. -/
def renamed (old new text : Text) : Text := if text.sameName old then new else text

/-! ## Laws -/

@[simp]
theorem length_lower (text : Text) : text.lower.length = text.length := List.length_map _

@[simp]
theorem lower_append (first second : Text) :
    lower (first ++ second) = first.lower ++ second.lower := List.map_append

theorem sameName_iff {first second : Text} :
    sameName first second = true ↔ first.lower = second.lower := by
  simp [sameName]

@[simp]
theorem sameName_refl (name : Text) : sameName name name = true := by
  simp [sameName]

theorem sameName_comm (first second : Text) : sameName first second = sameName second first := by
  simp only [sameName, Bool.beq_comm]

theorem sameName_trans {first second third : Text}
    (h : sameName first second = true) (h' : sameName second third = true) :
    sameName first third = true := by
  rw [sameName_iff] at *
  exact h.trans h'

end PageDesigner.Text
