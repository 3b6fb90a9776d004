import PageDesigner.Buffer.Basic

/-!
# Locations reached by walking

A location that is reached by walking over the beginning of a text names exactly
the place behind that beginning.  Reading and editing a text at such locations
therefore cuts it where the walk ended.
-/

namespace PageDesigner

namespace Location

theorem line_le_advance (location : Location) (walked : Text) :
    location.line ≤ (location.advance walked).line := by
  induction walked generalizing location with
  | nil => exact Nat.le_refl _
  | cons char rest ih =>
      rw [advance_cons]
      refine Nat.le_trans ?_ (ih _)
      unfold next
      split
      · exact Nat.le_succ _
      · exact Nat.le_refl _

theorem column_le_advance {location : Location} {walked : Text}
    (sameLine : (location.advance walked).line = location.line) :
    location.column ≤ (location.advance walked).column := by
  induction walked generalizing location with
  | nil => exact Nat.le_refl _
  | cons char rest ih =>
      rw [advance_cons] at sameLine ⊢
      have lower := line_le_advance (location.next char) rest
      unfold next at sameLine lower ⊢
      split at sameLine
      · next newline => simp only [newline, if_true] at lower; omega
      · next other =>
          rw [if_neg other]
          exact Nat.le_trans (Nat.le_succ _) (ih sameLine)

end Location

namespace History

/--
Seeking the place of a location that lies ahead walks exactly over the text in
between, counted from the location where the seeking starts.
-/
theorem seek_advance (location : Location) (walked rest : Text) :
    seek ((location.advance walked).line - location.line)
      ((location.advance walked).column -
        if (location.advance walked).line = location.line then location.column else 1)
      (walked ++ rest) = walked.length := by
  induction walked generalizing location with
  | nil => cases rest <;> simp [seek]
  | cons char walked ih =>
      rw [Location.advance_cons, List.cons_append, List.length_cons]
      have lower := Location.line_le_advance (location.next char) walked
      have further := ih (location.next char)
      by_cases newline : char = '\n'
      · have moved : location.next char = ⟨location.line + 1, 1⟩ := if_pos newline
        rw [moved] at lower further ⊢
        generalize Location.advance ⟨location.line + 1, 1⟩ walked = reached at lower further ⊢
        obtain ⟨lines, hlines⟩ : ∃ lines, reached.line - location.line = lines + 1 :=
          ⟨reached.line - (location.line + 1), by simp only at lower; omega⟩
        have hcount : reached.line - (location.line + 1) = lines := by omega
        have hne : reached.line ≠ location.line := by omega
        rw [hlines, if_neg hne]
        simp only [hcount, ite_self] at further
        simp only [seek, newline, if_true, further]
      · have moved : location.next char = ⟨location.line, location.column + 1⟩ :=
          if_neg newline
        rw [moved] at lower further ⊢
        have ahead := @Location.column_le_advance
          ⟨location.line, location.column + 1⟩ walked
        generalize Location.advance ⟨location.line, location.column + 1⟩ walked = reached
          at lower further ahead ⊢
        by_cases sameLine : reached.line = location.line
        · have hcolumn := ahead sameLine
          simp only [sameLine, if_true, Nat.sub_self] at further ⊢
          obtain ⟨columns, hcolumns⟩ : ∃ columns, reached.column - location.column = columns + 1 :=
            ⟨reached.column - (location.column + 1), by simp only at hcolumn; omega⟩
          have hcount : reached.column - (location.column + 1) = columns := by omega
          rw [hcount] at further
          rw [hcolumns]
          simp only [seek, newline, if_false, further]
        · obtain ⟨lines, hlines⟩ : ∃ lines, reached.line - location.line = lines + 1 :=
            ⟨reached.line - location.line - 1, by simp only at lower; omega⟩
          simp only [sameLine, if_false, hlines] at further ⊢
          simp only [seek, newline, if_false, further]

/-- The place of a location that a walk from the start reaches is the length of the walk. -/
theorem index_advance {history : History} {walked rest : Text}
    (split : history.text = walked ++ rest) :
    history.index (Location.start.advance walked) = walked.length := by
  have reached := seek_advance .start walked rest
  have lower := Location.line_le_advance .start walked
  rw [← split] at reached
  generalize Location.start.advance walked = location at reached lower ⊢
  have fromFirst : (if location.line = Location.start.line then Location.start.column else 1) = 1 :=
    ite_self 1
  rw [fromFirst] at reached
  obtain ⟨line, column⟩ := location
  cases line with
  | zero => simp [Location.start] at lower
  | succ lines => exact reached

/-- What stands between two places of a walk. -/
theorem between_advance {history : History} {before middle rest : Text}
    (split : history.text = before ++ middle ++ rest) :
    history.between (Location.start.advance before) (Location.start.advance (before ++ middle)) =
      middle := by
  have first := @index_advance history before (middle ++ rest)
    (by rw [split, List.append_assoc])
  unfold between
  rw [first, index_advance split, split, List.take_left, List.drop_left]

/-- An insertion at a place of a walk. -/
theorem text_insert_advance {history : History} {before rest : Text} (inserted : Text)
    (split : history.text = before ++ rest) :
    (history.insert (Location.start.advance before) inserted).text =
      before ++ inserted ++ rest := by
  unfold insert splice Change.apply
  simp [index_advance split, split]

/-- A replacement of the text between two places of a walk. -/
theorem text_replace_advance {history : History} {before middle rest : Text} (inserted : Text)
    (split : history.text = before ++ middle ++ rest) :
    (history.replace
        ⟨Location.start.advance before, Location.start.advance (before ++ middle)⟩ inserted).text =
      before ++ inserted ++ rest := by
  have first := @index_advance history before (middle ++ rest)
    (by rw [split, List.append_assoc])
  have last := index_advance split
  unfold replace splice Change.apply
  simp only [first, last, List.length_append, split]
  simp

end History

end PageDesigner
