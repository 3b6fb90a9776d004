import PageDesigner.Proofs.Buffer.Cutting

/-!
# The positions of a text

A position of a text is a point between two of its characters or at one of its ends.  A
beginning of the text stands for it on the way from one way of addressing to the other: the
offset is the number of its bytes, and the location is where walking over it leads.

A location denotes a position if its line is a line of the text and its column reaches no
further than behind the last character of the line in front of the line feed
(`Source.Denotes`).  The locations that do are the ones that walking over a beginning leads to
(`Source.denotes_iff`).  With the beginnings as the common view, the offsets and the locations
of the positions name each other in the same order (`Source.addressed`).
-/

namespace PageDesigner

namespace Location

/-- The location with one character in front of it on the first line. -/
def beside (location : Location) : Location :=
  if location.line = 1 then ⟨1, location.column + 1⟩ else location

variable {location : Location} (placed : 0 < location.line)

include placed

theorem next_beside (char : Char) : location.beside.next char = (location.next char).beside := by
  obtain ⟨line, column⟩ := location
  obtain ⟨index, rfl⟩ := Nat.exists_eq_add_one.mpr placed
  unfold beside next
  cases index with
  | zero => split <;> rfl
  | succ index => split <;> simp

theorem advance_beside (walked : Text) :
    location.beside.advance walked = (location.advance walked).beside := by
  induction walked generalizing location with
  | nil => rfl
  | cons char rest ih =>
      have later : 0 < (location.next char).line :=
        Nat.lt_of_lt_of_le placed (line_le_advance location [char])
      rw [advance_cons, next_beside placed, ih later, advance_cons]

end Location

namespace Source

/-! ## What is in front of a location -/

theorem flatten_lines (source : Text) : (lines source).flatten = source := by
  induction source with
  | nil => rfl
  | cons char rest ih =>
      by_cases newline : char = '\n'
      · subst newline
        rw [lines_newline, List.flatten_cons, ih]
        rfl
      · obtain ⟨line, others, shape, shape'⟩ := lines_plain newline rest
        rw [shape, List.flatten_cons] at ih
        rw [shape', List.flatten_cons, List.cons_append, ih]

/-- Whatever a location says, a beginning of the text stands in front of it. -/
theorem before_isPrefix (source : Text) (location : Location) :
    before source location <+: source := by
  unfold before
  split
  · exact List.nil_prefix
  · next index _ =>
    split
    · exact List.prefix_refl source
    · next line others shape =>
      have whole : ((lines source).take index).flatten ++ (line ++ others.flatten) = source := by
        rw [← List.flatten_cons, ← shape, ← List.flatten_append, List.take_append_drop,
          flatten_lines]
      conv => rhs; rw [← whole]
      exact (List.prefix_append_right_inj _).mpr
        ((List.take_prefix _ line).trans (List.prefix_append line _))

/-! ## Locations that denote a position -/

/-- A location denotes a position of the text: its line is one of the lines, and its column
stands at a character of the line or behind the last one, the line feed not counted. -/
def Denotes (source : Text) (location : Location) : Prop :=
  0 < location.line ∧ 0 < location.column ∧ ∃ line, (lines source)[location.line - 1]? = some line ∧
    location.column ≤ (line.filter (· ≠ '\n')).length + 1

/-- The first location denotes a position of every text. -/
theorem denotes_start (source : Text) : Denotes source .start := by
  obtain ⟨line, others, shape⟩ := List.exists_cons_of_ne_nil (lines_ne_nil source)
  refine ⟨Nat.one_pos, Nat.one_pos, line, ?_, Nat.succ_le_succ (Nat.zero_le _)⟩
  rw [shape]
  rfl

theorem denotes_nil {location : Location} : Denotes [] location ↔ location = .start := by
  refine ⟨?_, fun first => first ▸ denotes_start []⟩
  obtain ⟨line, column⟩ := location
  rintro ⟨placed, placed', body, here, within⟩
  obtain ⟨bound, rfl⟩ := List.getElem?_eq_some_iff.mp here
  simp only [lines, List.length_singleton, Nat.lt_one_iff] at bound
  simp [lines, bound] at within
  simp only [Location.start, Location.mk.injEq]
  dsimp only at placed placed' bound
  omega

/-- Behind a line feed a location denotes what the location one line up denotes in the rest. -/
theorem denotes_newline {rest : Text} {location : Location} :
    Denotes ('\n' :: rest) location ↔
      location = .start ∨ ∃ location', Denotes rest location' ∧ location = location'.below := by
  constructor
  · obtain ⟨line, column⟩ := location
    rintro ⟨placed, placed', body, here, within⟩
    rw [lines_newline] at here
    obtain ⟨index, rfl⟩ := Nat.exists_eq_add_one.mpr placed
    cases index with
    | zero =>
        obtain rfl : ['\n'] = body := Option.some.inj here
        exact .inl (congrArg (Location.mk 1) (Nat.le_antisymm within placed'))
    | succ index =>
        exact .inr ⟨⟨index + 1, column⟩, ⟨Nat.succ_pos _, placed', body, here, within⟩, rfl⟩
  · rintro (rfl | ⟨⟨line, column⟩, ⟨placed, placed', body, here, within⟩, rfl⟩)
    · exact denotes_start _
    · refine ⟨Nat.succ_pos _, placed', body, ?_, within⟩
      obtain ⟨index, rfl⟩ := Nat.exists_eq_add_one.mpr placed
      exact here

/-- Behind another character it denotes what the location one column to the left denotes in the
rest if it is on the first line, and what it denotes there itself if it is not. -/
theorem denotes_plain {char : Char} (plain : char ≠ '\n') {rest : Text} {location : Location} :
    Denotes (char :: rest) location ↔
      location = .start ∨ ∃ location', Denotes rest location' ∧ location = location'.beside := by
  obtain ⟨first, others, shape, shape'⟩ := lines_plain plain rest
  unfold Denotes
  rw [shape, shape']
  constructor
  · obtain ⟨line, column⟩ := location
    rintro ⟨placed, placed', body, here, within⟩
    obtain ⟨index, rfl⟩ := Nat.exists_eq_add_one.mpr placed
    obtain ⟨shift, rfl⟩ := Nat.exists_eq_add_one.mpr placed'
    cases index with
    | zero =>
        obtain rfl : char :: first = body := Option.some.inj here
        rw [List.filter_cons_of_pos (by simpa using plain), List.length_cons] at within
        cases shift with
        | zero => exact .inl rfl
        | succ shift =>
            exact .inr ⟨⟨1, shift + 1⟩, ⟨Nat.one_pos, Nat.succ_pos _, first, rfl,
              Nat.le_of_succ_le_succ within⟩, rfl⟩
    | succ index =>
        exact .inr ⟨⟨index + 2, shift + 1⟩, ⟨placed, placed', body, here, within⟩,
          (if_neg (by simp)).symm⟩
  · rintro (rfl | ⟨⟨line, column⟩, ⟨placed, placed', body, here, within⟩, rfl⟩)
    · exact ⟨Nat.one_pos, Nat.one_pos, char :: first, rfl, Nat.succ_le_succ (Nat.zero_le _)⟩
    · obtain ⟨index, rfl⟩ := Nat.exists_eq_add_one.mpr placed
      cases index with
      | zero =>
          obtain rfl : first = body := Option.some.inj here
          refine ⟨Nat.one_pos, Nat.succ_pos _, char :: first, rfl, ?_⟩
          rw [List.filter_cons_of_pos (by simpa using plain), List.length_cons]
          exact Nat.succ_le_succ within
      | succ index =>
          rw [Location.beside, if_neg (by simp)]
          exact ⟨placed, placed', body, here, within⟩

/-- The locations that walking over a beginning leads to are the first one and those that
walking over a beginning of the rest leads to, moved past the first character. -/
theorem exists_isPrefix_cons {char : Char} {move : Location → Location}
    (moved : ∀ front,
      (Location.start.next char).advance front = move (Location.start.advance front))
    {rest : Text} {location : Location} :
    (∃ front, front <+: char :: rest ∧ Location.start.advance front = location) ↔
      location = .start ∨ ∃ location',
        (∃ front, front <+: rest ∧ Location.start.advance front = location') ∧
          location = move location' := by
  constructor
  · rintro ⟨front, beginning, rfl⟩
    cases front with
    | nil => exact .inl rfl
    | cons first front =>
        obtain ⟨rfl, beginning'⟩ := List.cons_prefix_cons.mp beginning
        exact .inr ⟨_, ⟨front, beginning', rfl⟩, moved front⟩
  · rintro (rfl | ⟨_, ⟨front, beginning, rfl⟩, rfl⟩)
    · exact ⟨[], List.nil_prefix, rfl⟩
    · exact ⟨char :: front, List.cons_prefix_cons.mpr ⟨rfl, beginning⟩, moved front⟩

/-- A location denotes a position if and only if walking over a beginning of the text leads
to it. -/
theorem denotes_iff (source : Text) (location : Location) :
    Denotes source location ↔
      ∃ front, front <+: source ∧ Location.start.advance front = location := by
  induction source generalizing location with
  | nil =>
      rw [denotes_nil]
      constructor
      · rintro rfl
        exact ⟨[], List.prefix_refl [], rfl⟩
      · rintro ⟨front, beginning, rfl⟩
        rw [List.prefix_nil.mp beginning]
        rfl
  | cons char rest ih =>
      by_cases newline : char = '\n'
      · subst newline
        have moved (front : Text) : (Location.start.next '\n').advance front =
            (Location.start.advance front).below := Location.advance_below .start front
        rw [denotes_newline, exists_isPrefix_cons moved]
        simp only [ih]
      · have moved (front : Text) : (Location.start.next char).advance front =
            (Location.start.advance front).beside := by
          rw [show Location.start.next char = Location.start.beside from if_neg newline]
          exact Location.advance_beside Nat.one_pos front
        rw [denotes_plain newline, exists_isPrefix_cons moved]
        simp only [ih]

/-! ## Offsets between two characters -/

/-- An offset at the boundary of two characters or at an end of the text. -/
def IsBoundary (source : Text) (offset : Nat) : Prop :=
  ∃ front, front <+: source ∧ Text.byteCount front = offset

/-- Of two beginnings the one with fewer bytes begins the other one. -/
theorem exists_append_of_byteCount_lt {source front front' : Text} (beginning : front <+: source)
    (beginning' : front' <+: source) (fewer : front.byteCount < front'.byteCount) :
    ∃ part, part ≠ [] ∧ front' = front ++ part := by
  rcases List.prefix_or_prefix_of_prefix beginning beginning' with ⟨part, rfl⟩ | ⟨part, rfl⟩
  · refine ⟨part, fun none => ?_, rfl⟩
    rw [none, List.append_nil] at fewer
    exact Nat.lt_irrefl _ fewer
  · rw [Text.byteCount_append] at fewer
    exact absurd fewer (Nat.not_lt.mpr (Nat.le_add_right _ _))

theorem location_of_isPrefix {source front : Text} (beginning : front <+: source) :
    location source front.byteCount = Location.start.advance front := by
  obtain ⟨rest, rfl⟩ := beginning
  exact location_byteCount front rest

theorem offset_advance {source front : Text} (beginning : front <+: source) :
    offset source (Location.start.advance front) = front.byteCount := by
  obtain ⟨rest, rfl⟩ := beginning
  rw [offset, before_advance]

/-- The offsets and the locations of a text name the same positions in the same order. -/
structure Addressed (source : Text) : Prop where
  /-- The location of a boundary is at its offset. -/
  offset_location : ∀ offset', IsBoundary source offset' →
    offset source (location source offset') = offset'
  /-- A boundary further on has a later location. -/
  location_lt : ∀ offset' offset'', IsBoundary source offset' → IsBoundary source offset'' →
    offset' < offset'' → location source offset' < location source offset''
  /-- The locations that denote a position, and no others, are the locations of their offsets. -/
  location_offset : ∀ location', Denotes source location' ↔
    location source (offset source location') = location'
  /-- Whatever a location says, it is resolved to a boundary. -/
  isBoundary_offset : ∀ location', IsBoundary source (offset source location')

theorem addressed (source : Text) : Addressed source where
  offset_location := by
    rintro _ ⟨front, beginning, rfl⟩
    rw [location_of_isPrefix beginning, offset_advance beginning]
  location_lt := by
    rintro _ _ ⟨front, beginning, rfl⟩ ⟨front', beginning', rfl⟩ fewer
    rw [location_of_isPrefix beginning, location_of_isPrefix beginning']
    obtain ⟨part, some', rfl⟩ := exists_append_of_byteCount_lt beginning beginning' fewer
    rw [Location.advance_append]
    exact Location.lt_advance _ some'
  location_offset := by
    intro location'
    rw [denotes_iff]
    constructor
    · rintro ⟨front, beginning, rfl⟩
      rw [offset_advance beginning, location_of_isPrefix beginning]
    · intro back
      have beginning := before_isPrefix source location'
      exact ⟨before source location', beginning, (location_of_isPrefix beginning).symm.trans back⟩
  isBoundary_offset := fun location' =>
    ⟨before source location', before_isPrefix source location', rfl⟩

end Source

end PageDesigner
