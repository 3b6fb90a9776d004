import PageDesigner.Proofs.Text.Source

/-!
# One place for one location

The buffer finds the place of a location by walking over the characters, while a source
text looks it up in its lines.  Both find the same place, whatever the location says
(`History.take_index`): in front of the text, behind the end of a line or behind the
last line.  So what the buffer gives and takes between two locations is the slice of the
source between them, and an insertion parts the text at the offset of its location
(`History.cuts_at_offsets`).
-/

namespace PageDesigner

namespace Source

/-! ## What stands in front of a location, character by character -/

/-- Only the distance from the first column counts. -/
theorem before_congr (source : Text) {location location' : Location}
    (line : location.line = location'.line)
    (column : location.column - 1 = location'.column - 1) :
    before source location = before source location' := by
  unfold before
  rw [line, column]

theorem before_nil (location : Location) : before [] location = [] := by
  obtain ⟨line, column⟩ := location
  rcases line with _ | _ | index
  · rfl
  · exact List.take_nil
  · unfold before
    simp [lines]

/-- Nothing stands in front of the first column of the first line. -/
theorem before_first (source : Text) : before source .start = [] := by
  unfold before Location.start
  dsimp only
  split <;> first | rfl | exact absurd ‹_› (lines_ne_nil source)

/-- A line feed ends the first line, however far the column reaches. -/
theorem before_newline_here (rest : Text) (columns : Nat) :
    before ('\n' :: rest) ⟨1, columns + 2⟩ = ['\n'] := by
  unfold before
  simp [lines_newline]

/-- A first line that is passed moves the location up. -/
theorem before_newline (rest : Text) (index column : Nat) :
    before ('\n' :: rest) ⟨index + 2, column⟩ = '\n' :: before rest ⟨index + 1, column⟩ :=
  @before_below ['\n'] rest ('\n' :: rest) (lines_newline rest) rfl ⟨index + 1, column⟩
    (Nat.succ_pos index)

variable {char : Char} (plain : char ≠ '\n') (rest : Text)

include plain

/-- A character that ends no line stands at the beginning of the first line. -/
theorem lines_plain : ∃ line others, lines rest = line :: others ∧
    lines (char :: rest) = (char :: line) :: others :=
  @lines_append [char] (fun _ member => (List.mem_singleton.mp member).symm ▸ plain) rest

theorem before_plain_here (columns : Nat) :
    before (char :: rest) ⟨1, columns + 2⟩ = char :: before rest ⟨1, columns + 1⟩ := by
  obtain ⟨line, others, shape, shape'⟩ := lines_plain plain rest
  unfold before
  dsimp only
  rw [shape, shape']
  rfl

theorem before_plain (index column : Nat) :
    before (char :: rest) ⟨index + 2, column⟩ = char :: before rest ⟨index + 2, column⟩ := by
  obtain ⟨line, others, shape, shape'⟩ := lines_plain plain rest
  unfold before
  dsimp only
  rw [shape, shape', List.drop_succ_cons, List.drop_succ_cons, List.take_succ_cons,
    List.take_succ_cons]
  cases others.drop index <;> rfl

end Source

namespace History

/-! ## The same place, found by walking -/

/-- Walking to a place passes what stands in front of the location. -/
theorem take_seek (lines columns : Nat) (text : Text) :
    text.take (seek lines columns text) = Source.before text ⟨lines + 1, columns + 1⟩ := by
  induction text generalizing lines columns with
  | nil => rw [List.take_nil, Source.before_nil]
  | cons char rest ih =>
      cases lines with
      | zero =>
          cases columns with
          | zero => exact (Source.before_first (char :: rest)).symm
          | succ columns =>
              unfold seek
              split
              · next newline =>
                  subst newline
                  exact (Source.before_newline_here rest columns).symm
              · next plain =>
                  rw [List.take_succ_cons, ih, Source.before_plain_here plain]
      | succ lines =>
          unfold seek
          rw [List.take_succ_cons]
          split
          · next newline =>
              subst newline
              rw [ih, Source.before_newline]
          · next plain =>
              rw [ih, Source.before_plain plain]

theorem seek_le (lines columns : Nat) (text : Text) :
    seek lines columns text ≤ text.length := by
  induction text generalizing lines columns with
  | nil => cases lines <;> exact Nat.le_refl 0
  | cons char rest ih =>
      cases lines with
      | zero =>
          cases columns with
          | zero => exact Nat.zero_le _
          | succ columns =>
              unfold seek
              split
              · exact Nat.succ_le_succ (Nat.zero_le _)
              · exact Nat.succ_le_succ (ih 0 columns)
      | succ lines => exact Nat.succ_le_succ (ih _ columns)

variable (history : History) (location : Location)

/-- Whatever a location says, it has a place in the text. -/
theorem index_le : history.index location ≤ history.text.length := by
  unfold index
  split
  · exact Nat.zero_le _
  · exact seek_le _ _ _

/-- The place of a location is the end of what stands in front of it in the source. -/
theorem take_index :
    history.text.take (history.index location) = Source.before history.text location := by
  unfold index
  split
  · next line =>
      unfold Source.before
      rw [line]
      rfl
  · next lines line =>
      rw [take_seek]
      exact Source.before_congr _ line.symm rfl

theorem length_before :
    (Source.before history.text location).length = history.index location := by
  rw [← take_index, List.length_take_of_le (history.index_le location)]

/-- What the buffer gives between two locations is the slice of the source between them. -/
theorem between_eq_slice (first last : Location) :
    history.between first last = Source.slice history.text first last := by
  unfold between Source.slice
  rw [length_before, take_index]

end History

namespace Text

/-- What is cut off later is no shorter. -/
theorem byteCount_take_le (text : Text) {count more : Nat} (within : count ≤ more) :
    byteCount (text.take count) ≤ byteCount (text.take more) := by
  have parts := List.take_append_drop count (text.take more)
  rw [List.take_take, Nat.min_eq_left within] at parts
  rw [← parts, byteCount_append]
  exact Nat.le_add_right _ _

end Text

namespace History

/-- The text falls apart into what stands in front of a place, what stands from there up to
another place, and what is left. -/
theorem append_between (text : Text) (start stop : Nat) :
    (text.take stop).drop start ++ text.drop (max start stop) = text.drop start := by
  rcases Nat.le_total start stop with before | behind
  · rw [Nat.max_eq_right before]
    calc (text.take stop).drop start ++ text.drop stop
        = (text.drop start).take (stop - start) ++ (text.drop start).drop (stop - start) := by
          rw [List.drop_take, List.drop_drop, Nat.add_sub_cancel' before]
      _ = text.drop start := List.take_append_drop _ _
  · rw [Nat.max_eq_left behind, List.drop_eq_nil_of_le, List.nil_append]
    exact Nat.le_trans (List.length_take_le _ _) behind

theorem text_insert (history : History) (location : Location) (inserted : Text) :
    (history.insert location inserted).text =
      history.text.take (history.index location) ++
        (inserted ++ history.text.drop (history.index location)) := by
  unfold insert splice Change.apply
  simp

/--
Whatever two locations say, the text falls apart at their offsets.  What the buffer gives
between them is the part in the middle, which is the slice of the source, and nothing if the
second is not behind the first.  An insertion at the first one stands where the parts meet.
-/
theorem cuts_at_offsets (history : History) (first last : Location) (inserted : Text) :
    history.between first last = Source.slice history.text first last ∧
      ∃ front middle rest, history.text = front ++ (middle ++ rest) ∧
        front.byteCount = Source.offset history.text first ∧
        (front ++ middle).byteCount =
          max (Source.offset history.text first) (Source.offset history.text last) ∧
        history.between first last = middle ∧
        (history.insert first inserted).text = front ++ (inserted ++ (middle ++ rest)) := by
  refine ⟨history.between_eq_slice first last, ?_⟩
  have offset : ∀ location, Source.offset history.text location =
      Text.byteCount (history.text.take (history.index location)) := fun location => by
    rw [take_index]
    rfl
  rw [text_insert, offset, offset]
  unfold between
  generalize history.index first = start
  generalize history.index last = stop
  have rest := append_between history.text start stop
  refine ⟨history.text.take start, (history.text.take stop).drop start,
    history.text.drop (max start stop), ?_, rfl, ?_, rfl, ?_⟩
  · rw [rest, List.take_append_drop]
  · have parts : history.text.take start ++ (history.text.take stop).drop start =
        history.text.take (max start stop) := by
      refine (List.append_left_inj (history.text.drop (max start stop))).mp ?_
      rw [List.append_assoc, rest, List.take_append_drop, List.take_append_drop]
    rw [parts]
    rcases Nat.le_total start stop with before | behind
    · rw [Nat.max_eq_right before,
        Nat.max_eq_right (Text.byteCount_take_le history.text before)]
    · rw [Nat.max_eq_left behind,
        Nat.max_eq_left (Text.byteCount_take_le history.text behind)]
  · rw [rest]

end History

end PageDesigner
