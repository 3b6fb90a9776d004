import Mathlib.Data.Prod.Lex
import PageDesigner.Proofs.Buffer.Position
import PageDesigner.Text.Source

/-!
# Slices of a source text

Walking over a beginning of a text leads to the location behind it, and what stands in
front of that location is the beginning (`Source.before_advance`).  So the slice between
two locations that a walk passes is what is walked over between them
(`Source.slice_advance`), and walking on never leads back (`Location.le_advance`).
-/

namespace PageDesigner

namespace Location

/-- Locations are ordered like pairs of a line and a column. -/
instance : PartialOrder Location :=
  Function.Injective.partialOrder (fun location => toLex (location.line, location.column))
    (fun first second same => by
      obtain ⟨line, column⟩ := first
      obtain ⟨line', column'⟩ := second
      obtain ⟨rfl, rfl⟩ := Prod.mk.inj (toLex.injective same)
      rfl)
    Prod.Lex.toLex_le_toLex Prod.Lex.toLex_lt_toLex

/-- Walking leads on. -/
theorem le_advance (location : Location) (walked : Text) :
    location ≤ location.advance walked := by
  rcases Nat.lt_or_eq_of_le (line_le_advance location walked) with line | line
  · exact .inl line
  · exact .inr ⟨line, column_le_advance line.symm⟩

theorem lt_next (location : Location) (char : Char) : location < location.next char := by
  unfold next
  split
  · exact .inl (Nat.lt_succ_self _)
  · exact .inr ⟨rfl, Nat.lt_succ_self _⟩

theorem lt_advance (location : Location) {walked : Text} (some' : walked ≠ []) :
    location < location.advance walked := by
  cases walked with
  | nil => exact absurd rfl some'
  | cons char rest => exact lt_of_lt_of_le (location.lt_next char) (le_advance _ rest)

/-- The location on a line further down. -/
def below (location : Location) : Location := ⟨location.line + 1, location.column⟩

theorem advance_below (location : Location) (walked : Text) :
    location.below.advance walked = (location.advance walked).below := by
  induction walked generalizing location with
  | nil => rfl
  | cons char rest ih =>
      have moved : location.below.next char = (location.next char).below := by
        unfold next
        split
        · rfl
        · rfl
      rw [advance_cons, moved, ih, advance_cons]

end Location

namespace Source

theorem lines_ne_nil (source : Text) : lines source ≠ [] := by
  unfold lines
  split
  · exact List.cons_ne_nil _ _
  · exact List.cons_ne_nil _ _
  · split
    · exact List.cons_ne_nil _ _
    · exact List.cons_ne_nil _ _

theorem lines_newline (rest : Text) : lines ('\n' :: rest) = ['\n'] :: lines rest := rfl

/-- A text without line feeds stands at the beginning of the first line. -/
theorem lines_append {front : Text} (plain : ∀ char ∈ front, char ≠ '\n') (rest : Text) :
    ∃ line others, lines rest = line :: others ∧ lines (front ++ rest) = (front ++ line) :: others := by
  induction front with
  | nil =>
      obtain ⟨line, others, shape⟩ := List.exists_cons_of_ne_nil (lines_ne_nil rest)
      exact ⟨line, others, shape, shape⟩
  | cons char front ih =>
      obtain ⟨line, others, shape, shape'⟩ :=
        ih fun other member => plain other (List.mem_cons_of_mem _ member)
      refine ⟨line, others, shape, ?_⟩
      rw [List.cons_append, lines, shape']
      · rfl
      · exact plain char List.mem_cons_self

/-- A line in front moves what stands in front of a location down. -/
theorem before_below {line source : Text} {source' : Text}
    (whole : lines source' = line :: lines source) (shape : source' = line ++ source)
    {location : Location} (placed : 0 < location.line) :
    before source' location.below = line ++ before source location := by
  obtain ⟨number, column⟩ := location
  obtain ⟨index, rfl⟩ := Nat.exists_eq_succ_of_ne_zero (Nat.ne_of_gt placed)
  unfold before Location.below
  dsimp only
  rw [whole, List.drop_succ_cons, List.take_succ_cons]
  cases (lines source).drop index with
  | nil => exact shape
  | cons other others => exact (List.append_assoc _ _ _)

/-- What stands in front of the location behind a beginning is the beginning; part of its line may
have been walked over before. -/
theorem before_advance_of_line {line : Text} (plain : ∀ char ∈ line, char ≠ '\n')
    (front rest : Text) :
    before (line ++ (front ++ rest)) ((⟨1, line.length + 1⟩ : Location).advance front) =
      line ++ front := by
  induction front generalizing line with
  | nil =>
      obtain ⟨others, more, -, shape⟩ := lines_append plain rest
      rw [List.nil_append, List.append_nil, Location.advance_nil]
      unfold before
      dsimp only
      rw [List.drop_zero, shape]
      simp
  | cons char front ih =>
      by_cases newline : char = '\n'
      · subst newline
        obtain ⟨others, more, shape, shape'⟩ := lines_append plain ('\n' :: (front ++ rest))
        rw [lines_newline] at shape
        obtain ⟨rfl, rfl⟩ := List.cons.inj shape
        have moved : (⟨1, line.length + 1⟩ : Location).next '\n' = Location.start.below := rfl
        have placed := Location.line_le_advance .start front
        have later := @ih [] (fun _ member => nomatch member)
        rw [Location.advance_cons, moved, Location.advance_below, List.cons_append,
          before_below shape' (by simp) placed]
        have behind : before (front ++ rest) (Location.start.advance front) = front := later
        rw [behind]
        simp
      · have moved : (⟨1, line.length + 1⟩ : Location).next char =
            ⟨1, (line ++ [char]).length + 1⟩ := by
          rw [Location.next, if_neg newline, List.length_append]
          rfl
        have plain' : ∀ other ∈ line ++ [char], other ≠ '\n' := by
          intro other member
          rcases List.mem_append.mp member with before | last
          · exact plain other before
          · rw [List.mem_singleton.mp last]
            exact newline
        have later := ih plain'
        rw [Location.advance_cons, moved]
        simpa using later

/-- What stands in front of the location behind a beginning is the beginning. -/
theorem before_advance (front rest : Text) :
    before (front ++ rest) (Location.start.advance front) = front :=
  @before_advance_of_line [] (fun _ member => nomatch member) front rest

/-- A walk that leads nowhere is empty. -/
theorem eq_nil_of_advance {front part : Text}
    (same : Location.start.advance (front ++ part) = Location.start.advance front) : part = [] := by
  have here := before_advance front part
  have there := before_advance (front ++ part) []
  rw [List.append_nil, same, here] at there
  exact List.self_eq_append_right.mp there

/-- The slice between two locations of a walk is what is walked over between them. -/
theorem slice_advance (front part rest : Text) :
    slice (front ++ (part ++ rest)) (Location.start.advance front)
      ((Location.start.advance front).advance part) = part := by
  unfold slice
  rw [← Location.advance_append, before_advance, ← List.append_assoc, before_advance,
    List.drop_left]

/-- The part of a text from a location on. -/
def behind (source : Text) (location : Location) : Text :=
  source.drop (before source location).length

theorem behind_advance (front rest : Text) :
    behind (front ++ rest) (Location.start.advance front) = rest := by
  unfold behind
  rw [before_advance, List.drop_left]

theorem locate_byteCount (location : Location) (front rest : Text) :
    locate location front.byteCount (front ++ rest) = location.advance front := by
  induction front generalizing location with
  | nil =>
      cases rest with
      | nil => rfl
      | cons char rest => exact if_pos char.utf8Size_pos
  | cons char front ih =>
      have fits : ¬ char.utf8Size + Text.byteCount front < char.utf8Size :=
        Nat.not_lt.mpr (Nat.le_add_right _ _)
      rw [Text.byteCount_cons, List.cons_append, locate, if_neg fits, Nat.add_sub_cancel_left, ih]
      rfl

/-- The location of the offset behind a beginning is where walking over the beginning leads. -/
theorem location_byteCount (front rest : Text) :
    location (front ++ rest) front.byteCount = Location.start.advance front :=
  locate_byteCount .start front rest

end Source

end PageDesigner
