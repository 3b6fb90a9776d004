import PageDesigner.Proofs.Surface.Selecting
import PageDesigner.Proofs.Surface.Table

/-!
# What stays selected

A component that is destroyed is deselected, and that replaces the whole selection: the first of the
names that are left becomes the primary one, and names that repeat an earlier one are dropped.  When
several components are destroyed one after the other, it makes no difference in which order, and
nothing happens to a selection without any of them (`Selection.withoutAll_eq`).
-/

namespace PageDesigner

namespace Selection

/-! ## Names without repetitions -/

theorem distinct_sublist (names : List Text) : (distinct names).Sublist names := by
  induction names using List.reverseRecOn with
  | nil => exact List.Sublist.slnil
  | append_singleton former last ih =>
      rw [distinct_snoc]
      split
      · exact ih.trans (List.sublist_append_left _ _)
      · exact ih.append (List.Sublist.refl _)

theorem nodup_lower_distinct (names : List Text) : ((distinct names).map Text.lower).Nodup := by
  induction names using List.reverseRecOn with
  | nil => exact List.nodup_nil
  | append_singleton former last ih =>
      rw [distinct_snoc]
      split
      · exact ih
      · next free =>
        rw [List.map_append, List.map_singleton, ← List.concat_eq_append, List.nodup_concat]
        exact ⟨fun repeated => free (Naming.isTaken_iff.mpr repeated), ih⟩

/-- Nothing is dropped from names that differ in more than their case. -/
theorem distinct_of_nodup {names : List Text} (nodup : (names.map Text.lower).Nodup) :
    distinct names = names :=
  (distinct_sublist names).eq_of_length ((length_distinct_iff names).mpr nodup)

/-- Names can be dropped before or after those that repeat an earlier one, as long as their case
does not matter for that. -/
theorem distinct_filter {stays : Text → Bool}
    (congr : ∀ first second : Text, first.lower = second.lower → stays first = stays second)
    (names : List Text) : distinct (names.filter stays) = (distinct names).filter stays := by
  induction names using List.reverseRecOn with
  | nil => rfl
  | append_singleton former last ih =>
      rw [List.filter_append, distinct_snoc]
      cases kept : stays last with
      | false =>
          rw [List.filter_cons_of_neg (by rw [kept]; exact Bool.false_ne_true), List.filter_nil,
            List.append_nil, ih]
          split
          · rfl
          · rw [List.filter_append,
              List.filter_cons_of_neg (by rw [kept]; exact Bool.false_ne_true), List.filter_nil,
              List.append_nil]
      | true =>
          have taken : Naming.isTaken (distinct (former.filter stays)) last =
              Naming.isTaken (distinct former) last := by
            rw [ih, Bool.eq_iff_iff, Naming.isTaken_iff, Naming.isTaken_iff]
            refine ⟨fun member => List.map_subset _ (List.filter_subset_self _) member,
              fun member => ?_⟩
            obtain ⟨other, listed, same⟩ := List.mem_map.mp member
            refine List.mem_map.mpr ⟨other, List.mem_filter.mpr ⟨listed, ?_⟩, same⟩
            rw [congr other last same, kept]
          rw [List.filter_cons_of_pos kept, List.filter_nil, distinct_snoc, taken, ih]
          split
          · rfl
          · rw [List.filter_append, List.filter_cons_of_pos kept, List.filter_nil]

/-- The first name is kept, and becomes the primary one unless another one is asked for. -/
theorem primary?_ofNames_zero (names : List Text) : (ofNames names 0).primary? = names.head? := by
  unfold ofNames
  dsimp only
  rw [Nat.zero_min, ← List.head?_eq_getElem?]
  cases names with
  | nil => rfl
  | cons first rest =>
      obtain ⟨later, whole⟩ := distinct_prefix [first] rest
      rw [List.singleton_append] at whole
      rw [← whole]
      rfl

/-! ## Deselecting several names -/

/-- What stays selected without some names. -/
def apartFrom (selection : Selection) (gone : List Text) : List Text :=
  selection.names.filter fun name => !Naming.isTaken gone name

/-- The selection without some names, deselected one after the other. -/
def withoutAll (selection : Selection) (gone : List Text) : Selection :=
  gone.foldl without selection

theorem withoutAll_snoc (selection : Selection) (former : List Text) (name : Text) :
    selection.withoutAll (former ++ [name]) = (selection.withoutAll former).without name :=
  List.foldl_append

theorem isTaken_snoc (former : List Text) (name other : Text) :
    Naming.isTaken (former ++ [name]) other =
      (Naming.isTaken former other || name.sameName other) := by
  unfold Naming.isTaken
  rw [List.any_append, List.any_cons, List.any_nil, Bool.or_false]

theorem apartFrom_snoc (selection : Selection) (former : List Text) (name : Text) :
    selection.apartFrom (former ++ [name]) =
      (selection.apartFrom former).filter (!·.sameName name) := by
  unfold apartFrom
  rw [List.filter_filter]
  refine List.filter_congr fun other _ => ?_
  rw [isTaken_snoc, Bool.not_or, Bool.and_comm, Text.sameName_comm]

variable {selection : Selection} {gone : List Text}

/-- A name is deselected just when the names that are left are fewer. -/
theorem without_eq (selection : Selection) (name : Text) :
    selection.without name =
      if selection.names.filter (!·.sameName name) = selection.names then selection
      else ofNames (selection.names.filter (!·.sameName name)) 0 := by
  have absent : selection.names.filter (!·.sameName name) = selection.names ↔
      ¬ selection.contains name = true := by
    unfold contains Naming.isTaken
    rw [List.filter_eq_self, List.any_eq_true]
    simp
  unfold without
  by_cases selected : selection.contains name = true
  · rw [if_pos selected, if_neg (fun same => absent.mp same selected)]
  · rw [if_neg selected, if_pos (absent.mpr selected)]

theorem apartFrom_congr {others : List Text}
    (same : ∀ name, Naming.isTaken others name = Naming.isTaken gone name)
    (selection : Selection) : selection.apartFrom others = selection.apartFrom gone := by
  unfold apartFrom
  simp only [same]

/--
Deselecting names one after the other leaves a selection as it is if none of them is selected.
Otherwise the names that are left are selected anew, the first one as primary.
-/
theorem withoutAll_eq (selection : Selection) (gone : List Text) :
    selection.withoutAll gone =
      if selection.apartFrom gone = selection.names then selection
      else ofNames (selection.apartFrom gone) 0 := by
  induction gone using List.reverseRecOn with
  | nil =>
      have whole : selection.apartFrom [] = selection.names :=
        List.filter_eq_self.mpr fun _ _ => rfl
      rw [if_pos whole]
      rfl
  | append_singleton former name ih =>
      rw [withoutAll_snoc, without_eq, ih, apartFrom_snoc]
      by_cases untouched : selection.apartFrom former = selection.names
      · rw [if_pos untouched, untouched]
      -- The selection was replaced before, so what is left of it is what is left of its names.
      have fewer : ¬ (selection.apartFrom former).filter (!·.sameName name) = selection.names := by
        intro whole
        have short := List.length_filter_le (fun other => !other.sameName name)
          (selection.apartFrom former)
        have short' := (List.filter_sublist
          (p := fun name => !Naming.isTaken former name) (l := selection.names)).length_le
        rw [whole] at short
        exact untouched (List.filter_sublist.eq_of_length (Nat.le_antisymm short' short))
      have congr : ∀ first second : Text, first.lower = second.lower →
          (!first.sameName name) = !second.sameName name := fun first second same => by
        rw [Text.sameName_comm, Text.sameName_comm second]
        unfold Text.sameName
        rw [same]
      rw [if_neg untouched, if_neg fewer]
      have left : (ofNames (selection.apartFrom former) 0).names.filter (!·.sameName name) =
          distinct ((selection.apartFrom former).filter (!·.sameName name)) :=
        (distinct_filter congr _).symm
      rw [left]
      split
      · next whole =>
          refine congrArg (fun kept => Selection.mk kept kept[min 0 (kept.length - 1)]?) ?_
          exact whole.symm
      · unfold ofNames
        rw [distinct_of_nodup (nodup_lower_distinct _)]

/-- It makes no difference in which order names are deselected. -/
theorem withoutAll_congr {others : List Text}
    (same : ∀ name, Naming.isTaken others name = Naming.isTaken gone name)
    (selection : Selection) : selection.withoutAll others = selection.withoutAll gone := by
  rw [withoutAll_eq, withoutAll_eq, apartFrom_congr same]

end Selection

namespace Surface

/-! ## Surfaces -/

theorem selection_updateChildren (surface : Surface) (change : List Text → List Text) :
    (surface.updateChildren change).selection = surface.selection := by
  unfold updateChildren
  split <;> rfl

theorem selection_place (surface : Surface) (name : Text) (component : Component) :
    (surface.place name component).selection = surface.selection :=
  selection_updateChildren _ _

theorem selection_withoutControl (surface : Surface) (name : Text) :
    (surface.withoutControl name).selection = surface.selection.without name :=
  selection_updateChildren _ _

theorem selection_destroy? {surface after : Surface} {name stored : Text}
    (done : surface.destroy? name = some (stored, after)) :
    after.selection = surface.selection.without stored := by
  obtain ⟨site, -, rfl, ⟨-, rfl⟩ | ⟨-, rfl⟩⟩ := destroy?_cases done
  · exact selection_withoutControl _ _
  · rfl

/-! ## What is lost -/

/-- The names of the components of a surface that are not on another one any more under their names
and of their types. -/
def lost (surface after : Surface) : List Text :=
  (surface.container.table.filter (· ∉ after.container.table)).map Prod.fst

theorem mem_lost {surface after : Surface} {name : Text} :
    name ∈ surface.lost after ↔
      ∃ type, (name, type) ∈ surface.container.table ∧ (name, type) ∉ after.container.table := by
  unfold lost
  simp

/-- Components of some names have been destroyed and deselected, and others created, none of which
was there before. -/
structure Exchanged (surface : Surface) (removed : List Text) (created : List (Text × Text))
    (after : Surface) : Prop where
  table_eq : after.container.table =
    surface.container.table.filter (·.1 ∉ removed) ++ created
  former : ∀ name ∈ removed, name ∈ surface.container.names
  fresh : ∀ entry ∈ surface.container.table, entry ∉ created
  selection_eq : after.selection = surface.selection.withoutAll removed

namespace Exchanged

variable {surface after : Surface} {removed : List Text} {created : List (Text × Text)}

theorem mem_lost_iff (exchanged : surface.Exchanged removed created after) {name : Text} :
    name ∈ surface.lost after ↔ name ∈ removed := by
  rw [mem_lost]
  constructor
  · rintro ⟨type, member, gone⟩
    by_contra stays
    refine gone ?_
    rw [exchanged.table_eq]
    exact List.mem_append_left _ (List.mem_filter.mpr ⟨member, decide_eq_true stays⟩)
  · intro struck
    have listed := exchanged.former name struck
    rw [Container.names_eq_table] at listed
    obtain ⟨⟨_, type⟩, member, rfl⟩ := List.mem_map.mp listed
    refine ⟨type, member, fun stays => ?_⟩
    rw [exchanged.table_eq] at stays
    rcases List.mem_append.mp stays with kept | new
    · exact of_decide_eq_true (List.mem_filter.mp kept).2 struck
    · exact exchanged.fresh _ member new

/-- What was lost has been deselected, and nothing else. -/
theorem selection_lost (exchanged : surface.Exchanged removed created after) :
    after.selection = surface.selection.withoutAll (surface.lost after) := by
  rw [exchanged.selection_eq]
  refine Selection.withoutAll_congr (fun name => ?_) _
  rw [Bool.eq_iff_iff, Naming.isTaken_iff, Naming.isTaken_iff, List.mem_map, List.mem_map]
  simp only [exchanged.mem_lost_iff]

end Exchanged

theorem exchanged_refl (surface : Surface) : surface.Exchanged [] [] surface := by
  refine ⟨?_, fun _ member => (nomatch member), fun _ _ => List.not_mem_nil, rfl⟩
  rw [List.append_nil]
  exact (List.filter_eq_self.mpr fun _ _ => decide_eq_true List.not_mem_nil).symm

/-- Destroying a component exchanges it for nothing. -/
theorem exchanged_destroy? {surface after : Surface} (distinct : surface.container.Distinct)
    {name stored : Text} (done : surface.destroy? name = some (stored, after)) :
    surface.Exchanged [stored] [] after := by
  refine ⟨?_, fun other member => ?_, fun _ _ => List.not_mem_nil, selection_destroy? done⟩
  · rw [table_destroy? distinct done, List.append_nil]
    simp only [List.mem_singleton, ne_eq]
  · obtain ⟨site, found, rfl, -⟩ := destroy?_cases done
    rw [List.mem_singleton.mp member]
    exact List.mem_map_of_mem (Container.mem_of_site? found)

end Surface

end PageDesigner
