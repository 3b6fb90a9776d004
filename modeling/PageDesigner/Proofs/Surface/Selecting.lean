import PageDesigner.Proofs.Surface.Consistent

/-!
# What is selected

Selecting keeps each name where it appears first (`Selection.distinct_eq_eraseDups`), so a name
moves to the front by as many places as names before it are dropped.  The index of the primary name
does not move with it.  So the name at that index becomes the primary one only when nothing before
it is dropped, or when the index is clamped to the last name and that is the one
(`Selection.primary?_ofNames_iff`).
-/

namespace PageDesigner

namespace Selection

variable {former later : List Text} {name : Text}

/-- Dropping the names that repeat an earlier one drops no name altogether. -/
theorem mem_lower_distinct (names : List Text) (low : Text) :
    low ∈ (distinct names).map Text.lower ↔ low ∈ names.map Text.lower := by
  induction names using List.reverseRecOn with
  | nil => exact Iff.rfl
  | append_singleton former last ih =>
      rw [distinct_snoc, List.map_append, List.mem_append, ← ih]
      split
      · next taken =>
          refine ⟨.inl, fun either => either.elim id fun same => ?_⟩
          rw [List.mem_singleton.mp same]
          exact Naming.isTaken_iff.mp taken
      · rw [List.map_append, List.mem_append]

theorem isTaken_distinct (names : List Text) (name : Text) :
    Naming.isTaken (distinct names) name = true ↔ name.lower ∈ names.map Text.lower :=
  Naming.isTaken_iff.trans (mem_lower_distinct names name.lower)

theorem length_distinct_le (names : List Text) : (distinct names).length ≤ names.length := by
  induction names using List.reverseRecOn with
  | nil => exact Nat.le_refl 0
  | append_singleton former last ih =>
      rw [distinct_snoc, List.length_append, List.length_singleton]
      split
      · exact Nat.le_succ_of_le ih
      · rw [List.length_append, List.length_singleton]
        exact Nat.succ_le_succ ih

/-- Nothing is dropped just when no name repeats an earlier one. -/
theorem length_distinct_iff (names : List Text) :
    (distinct names).length = names.length ↔ (names.map Text.lower).Nodup := by
  induction names using List.reverseRecOn with
  | nil => exact iff_of_true rfl List.nodup_nil
  | append_singleton former last ih =>
      have snoc : ((former ++ [last]).map Text.lower).Nodup ↔
          (former.map Text.lower).Nodup ∧ last.lower ∉ former.map Text.lower := by
        rw [List.map_append, List.map_singleton, ← List.concat_eq_append, List.nodup_concat,
          and_comm]
      rw [snoc, distinct_snoc, List.length_append, List.length_singleton]
      have short := length_distinct_le former
      split
      next taken =>
        refine iff_of_false (by omega) fun both => both.2 ?_
        exact (isTaken_distinct former last).mp taken
      next free =>
        rw [List.length_append, List.length_singleton, Nat.add_right_cancel_iff, ih]
        exact (and_iff_left fun repeated =>
          free ((isTaken_distinct former last).mpr repeated)).symm

/-- What is kept of a list is kept at the head of a longer one. -/
theorem distinct_prefix (former later : List Text) :
    distinct former <+: distinct (former ++ later) := by
  induction later using List.reverseRecOn with
  | nil => exact ⟨[], (List.append_nil _).trans (congrArg distinct (List.append_nil former).symm)⟩
  | append_singleton rest last ih =>
      rw [← List.append_assoc, distinct_snoc]
      split
      · exact ih
      · exact ih.trans (List.prefix_append _ _)

/-- Of names that are equal when they are alike, the first appearances are kept. -/
theorem distinct_eq_eraseDups {names : List Text}
    (alike : ∀ first ∈ names, ∀ second ∈ names, first.lower = second.lower → first = second) :
    distinct names = names.eraseDups := by
  induction names using List.reverseRecOn with
  | nil => rfl
  | append_singleton former last ih =>
      have kept := ih fun first member second member' =>
        alike first (List.mem_append_left _ member) second (List.mem_append_left _ member')
      have repeats : Naming.isTaken (distinct former) last = true ↔ last ∈ former := by
        rw [isTaken_distinct]
        refine ⟨fun low => ?_, List.mem_map_of_mem⟩
        obtain ⟨other, member, same⟩ := List.mem_map.mp low
        rw [← alike other (List.mem_append_left _ member) last
          (List.mem_append_right _ (List.mem_singleton_self _)) same]
        exact member
      rw [distinct_snoc, List.eraseDups_append, kept]
      by_cases member : last ∈ former
      · rw [if_pos (kept ▸ repeats.mpr member)]
        simp [List.removeAll, member]
      · rw [if_neg fun taken => member (repeats.mp (kept ▸ taken))]
        simp [List.removeAll, member, List.eraseDups_cons]

/-- A name is kept no further behind than it was asked for, and moves to the front just when
something before it is dropped or repeats it. -/
theorem exists_position
    (alike : ∀ first ∈ former, first.lower = name.lower → first = name) (later : List Text) :
    ∃ position, (distinct (former ++ name :: later))[position]? = some name ∧
      position ≤ former.length ∧
      (position = former.length ↔ ((former ++ [name]).map Text.lower).Nodup) := by
  have extends' : distinct (former ++ [name]) <+: distinct (former ++ name :: later) := by
    rw [List.append_cons former name later]
    exact distinct_prefix _ later
  have short := length_distinct_le former
  have whole := length_distinct_iff (former ++ [name])
  rw [distinct_snoc] at extends' whole
  rw [List.length_append, List.length_singleton] at whole
  by_cases taken : Naming.isTaken (distinct former) name = true
  · rw [if_pos taken] at extends' whole
    have member : name ∈ distinct former := by
      obtain ⟨other, kept, same⟩ := List.mem_map.mp (Naming.isTaken_iff.mp taken)
      rw [← alike other (distinct_subset former kept) same]
      exact kept
    obtain ⟨position, inside, here⟩ := List.getElem_of_mem member
    refine ⟨position, ?_, by omega, ?_⟩
    · exact (List.prefix_iff_getElem?.mp extends' position inside).trans (by rw [here])
    · rw [← whole]
      exact iff_of_false (by omega) (by omega)
  · rw [if_neg taken] at extends' whole
    rw [List.length_append, List.length_singleton] at whole
    refine ⟨(distinct former).length, ?_, short, ?_⟩
    · rw [List.prefix_iff_getElem?.mp extends' _ (by simp)]
      simp
    · rw [← whole]
      omega

/--
The name at an index no smaller than its place becomes the primary one just when that place is
still its own, or when it is the last one.
-/
theorem primary?_ofNames_iff
    (alike : ∀ first ∈ former, first.lower = name.lower → first = name) (later : List Text)
    {index : Nat} (within : former.length ≤ index) :
    (ofNames (former ++ name :: later) index).primary? = some name ↔
      former.length = index ∧ ((former ++ [name]).map Text.lower).Nodup ∨
        (ofNames (former ++ name :: later) index).names.getLast? = some name := by
  obtain ⟨position, here, early, plain⟩ := exists_position alike later
  have unrepeated := nodup_distinct (former ++ name :: later)
  unfold ofNames
  dsimp only
  generalize distinct (former ++ name :: later) = kept at here unrepeated ⊢
  obtain ⟨inside, -⟩ := List.getElem?_eq_some_iff.mp here
  have place : ∀ other, kept[other]? = some name ↔ other = position := by
    refine fun other => ⟨fun there => ?_, fun same => same ▸ here⟩
    exact ((List.getElem?_inj inside unrepeated).mp (here.trans there.symm)).symm
  rw [List.getLast?_eq_getElem?, place, place, ← plain]
  omega

end Selection

namespace Surface

variable {surface : Surface} {names : List Text} {name stored : Text}

theorem lower_of_storedName? (found : surface.container.storedName? name = some stored) :
    stored.lower = name.lower := by
  unfold Container.storedName? at found
  obtain ⟨site, sited, rfl⟩ := Option.map_eq_some_iff.mp found
  exact Text.sameName_iff.mp (Container.sameName_of_site? sited)

theorem storedName?_congr {other : Text} (same : name.lower = other.lower) :
    surface.container.storedName? name = surface.container.storedName? other := by
  unfold Container.storedName?
  rw [Container.site?_congr (Text.sameName_iff.mpr same)]

/-- Stored names that are alike are equal. -/
theorem eq_of_known {first second : Text} (member : first ∈ surface.known names)
    (member' : second ∈ surface.known names) (same : first.lower = second.lower) :
    first = second := by
  obtain ⟨name, -, found⟩ := List.mem_filterMap.mp member
  obtain ⟨other, -, found'⟩ := List.mem_filterMap.mp member'
  rw [lower_of_storedName? found, lower_of_storedName? found'] at same
  rw [storedName?_congr same] at found
  exact Option.some.inj (found.symm.trans found')

/-- Names that all stand for components are alike their stored names. -/
theorem lower_known
    (sited : ∀ name ∈ names, (surface.container.storedName? name).isSome = true) :
    (surface.known names).map Text.lower = names.map Text.lower := by
  induction names with
  | nil => rfl
  | cons name rest ih =>
      obtain ⟨stored, found⟩ := Option.isSome_iff_exists.mp (sited name List.mem_cons_self)
      unfold known at ih ⊢
      rw [List.filterMap_cons_some found, List.map_cons, List.map_cons, lower_of_storedName? found,
        ih fun name member => sited name (List.mem_cons_of_mem _ member)]

/-- The stored names are selected in the order in which the names appear first. -/
theorem names_select_known (surface : Surface) (names : List Text) (index : Nat) :
    (surface.select (surface.known names) index).selection.names =
      (names.filterMap surface.container.storedName?).eraseDups :=
  Selection.distinct_eq_eraseDups fun _ member _ member' => eq_of_known member member'

/--
The component that the name at an index stands for becomes the primary one just when all names
before it stand for components, none of them and it for the same one, or when it is the last one of
the selection.
-/
theorem primary?_select_known_iff {index : Nat} (asked : names[index]? = some name)
    (found : surface.container.storedName? name = some stored) :
    (surface.select (surface.known names) index).selection.primary? = some stored ↔
      ((∀ former ∈ names.take index, (surface.container.storedName? former).isSome = true) ∧
        ((names.take (index + 1)).map Text.lower).Nodup) ∨
      (surface.select (surface.known names) index).selection.names.getLast? = some stored := by
  obtain ⟨inside, here⟩ := List.getElem?_eq_some_iff.mp asked
  have upTo : names.take (index + 1) = names.take index ++ [name] := by
    rw [List.take_add_one, asked]
    rfl
  have kept : surface.known names = surface.known (names.take index) ++
      stored :: surface.known (names.drop (index + 1)) := by
    conv_lhs => rw [← List.take_append_drop index names, List.drop_eq_getElem_cons inside, here]
    unfold known
    rw [List.filterMap_append, List.filterMap_cons_some found]
  have length : (names.take index).length = index :=
    List.length_take_of_le (Nat.le_of_lt inside)
  have alike : ∀ first ∈ surface.known (names.take index), first.lower = stored.lower →
      first = stored := by
    intro first member same
    have before : first ∈ surface.known names := by
      rw [kept]
      exact List.mem_append_left _ member
    have itself : stored ∈ surface.known names := by
      rw [kept]
      exact List.mem_append_right _ List.mem_cons_self
    exact eq_of_known before itself same
  have short : (surface.known (names.take index)).length ≤ index := by
    calc (surface.known (names.take index)).length
        ≤ (names.take index).length := List.length_filterMap_le _ _
      _ = index := length
  have all : (surface.known (names.take index)).length = index ↔
      ∀ former ∈ names.take index, (surface.container.storedName? former).isSome = true := by
    rw [← List.filterMap_length_eq_length, length]
    rfl
  unfold select
  dsimp only
  rw [kept, Selection.primary?_ofNames_iff alike _ short, all, upTo]
  refine or_congr_left (and_congr_right fun sited => ?_)
  rw [List.map_append, List.map_append, lower_known sited, List.map_singleton, List.map_singleton,
    lower_of_storedName? found]

end Surface

end PageDesigner
