import PageDesigner.Proofs.Surface.Table

/-!
# Clearing a surface

Names that are distinct up to letter case are destroyed one after the other, each that is sited
once (`Surface.destroyAll_eq`).  So clearing a surface destroys every component once
(`Surface.clear_perm`), and the root last when it is sited (`Surface.getLast?_clear`).
-/

namespace PageDesigner

namespace Container

/-- A sited name is stored as it is. -/
theorem storedName?_of_mem {container : Container} (distinct : container.Distinct) {name : Text}
    (sited : name ∈ container.names) : container.storedName? name = some name := by
  obtain ⟨site, member, rfl⟩ := List.mem_map.mp sited
  unfold storedName?
  rw [site?_of_mem distinct member (Text.sameName_refl _)]
  rfl

/-- Of distinct names, at most one is like another name. -/
theorem filter_sameName {container : Container} (distinct : container.Distinct) (name : Text) :
    container.names.filter (·.sameName name) = (container.storedName? name).toList := by
  rw [storedName?_eq_find?]
  unfold Distinct at distinct
  generalize container.names = names at distinct ⊢
  induction names with
  | nil => rfl
  | cons head rest ih =>
      obtain ⟨apart, distinct'⟩ := List.nodup_cons.mp distinct
      cases same : head.sameName name with
      | false =>
          rw [List.filter_cons_of_neg (by simpa using same), List.find?_cons, same]
          exact ih distinct'
      | true =>
          have others : rest.filter (·.sameName name) = [] :=
            List.filter_eq_nil_iff.mpr fun other member alike => by
              refine apart ?_
              rw [Text.sameName_iff.mp same, ← Text.sameName_iff.mp alike]
              exact List.mem_map_of_mem member
          rw [List.filter_cons, if_pos same, others, List.find?_cons, same]
          rfl

end Container

namespace Surface

variable {surface : Surface}

/-- What is destroyed is gone, and every other name stands for what it did. -/
theorem storedName?_destroyed {after : Surface} {name other stored : Text}
    (distinct : surface.container.Distinct) (gone : surface.destroy? name = some (stored, after))
    (differs : name.sameName other = false) :
    after.container.storedName? other = surface.container.storedName? other := by
  rcases missing_or_destroyed distinct name with
    ⟨-, missing⟩ | ⟨site, left, found, gone', -, table⟩
  · rw [missing] at gone
    cases gone
  · rw [gone'] at gone
    obtain ⟨rfl, rfl⟩ := Prod.mk.inj (Option.some.inj gone)
    have names : left.container.names =
        surface.container.names.filter fun other => decide (other ≠ site.name) := by
      rw [Container.names_eq_table, Container.names_eq_table, table, List.filter_map]
      rfl
    have stays : ∀ candidate : Text, candidate.sameName other = true → candidate ≠ site.name := by
      rintro candidate same rfl
      rw [Container.sameName_of_ne found differs] at same
      cases same
    rw [Container.storedName?_eq_find?, Container.storedName?_eq_find?, names, List.find?_filter]
    congr 1
    funext candidate
    cases same : candidate.sameName other with
    | false => exact decide_eq_false fun both => Bool.false_ne_true both.2
    | true => exact decide_eq_true ⟨decide_eq_true (stays candidate same), rfl⟩

/-- Each of the names that is sited is destroyed once, in order. -/
theorem destroyAll_eq (distinct : surface.container.Distinct) {names : List Text}
    (apart : (names.map Text.lower).Nodup) :
    (surface.destroyAll names).1 = names.filterMap surface.container.storedName? := by
  induction names generalizing surface with
  | nil => rfl
  | cons name rest ih =>
      obtain ⟨absent, apart'⟩ := List.nodup_cons.mp apart
      unfold destroyAll
      rcases missing_or_destroyed distinct name with
        ⟨missing, gone⟩ | ⟨site, after, found, gone, distinct', -⟩
      · have unknown : surface.container.storedName? name = none := by
          unfold Container.storedName?
          rw [missing]
          rfl
        rw [gone, List.filterMap_cons_none unknown]
        exact ih distinct apart'
      · have known : surface.container.storedName? name = some site.name := by
          unfold Container.storedName?
          rw [found]
          rfl
        rw [gone, List.filterMap_cons_some known]
        dsimp only
        rw [ih distinct' apart']
        refine congrArg (site.name :: ·) (List.filterMap_congr fun other member => ?_)
        refine storedName?_destroyed distinct gone ?_
        rw [Bool.eq_false_iff]
        intro same
        refine absent ?_
        rw [Text.sameName_iff.mp same]
        exact List.mem_map_of_mem member

/-- The names that are stored as they are. -/
theorem filterMap_storedName? (distinct : surface.container.Distinct) {names : List Text}
    (sited : names ⊆ surface.container.names) :
    names.filterMap surface.container.storedName? = names := by
  conv_rhs => rw [← List.filterMap_some (l := names)]
  exact List.filterMap_congr fun name member =>
    Container.storedName?_of_mem distinct (sited member)

/-- At most one sited component is the root. -/
theorem filter_isRoot (distinct : surface.container.Distinct) :
    surface.container.names.filter surface.isRoot =
      (surface.root?.bind surface.container.storedName?).toList := by
  have isRoot_eq : surface.isRoot = fun name => surface.root?.any name.sameName := by
    funext name
    unfold isRoot
    exact congrArg surface.root?.any (funext fun root => Text.sameName_comm root name)
  rw [isRoot_eq]
  cases surface.root? with
  | none => exact List.filter_eq_nil_iff.mpr fun _ _ => Bool.false_ne_true
  | some root => exact Container.filter_sameName distinct root

/-- Clearing destroys the other components first, and then the root. -/
theorem clear_eq (distinct : surface.container.Distinct) :
    surface.clear.1 = surface.container.names.reverse.filter (!surface.isRoot ·) ++
      surface.container.names.filter surface.isRoot := by
  have reversed : (surface.container.names.reverse.map Text.lower).Nodup := by
    rw [List.map_reverse, List.nodup_reverse]
    exact distinct
  have sited : surface.container.names.reverse.filter (!surface.isRoot ·) ⊆
      surface.container.names := fun name member =>
    List.mem_reverse.mp (List.mem_filter.mp member).1
  have order : surface.removalOrder =
      surface.container.names.reverse.filter (!surface.isRoot ·) ++ surface.root?.toList := by
    unfold removalOrder isRoot
    cases surface.root? with
    | none => exact (List.append_nil _).symm ▸ (List.filter_eq_self.mpr fun _ _ => rfl).symm
    | some root =>
        simp only [Option.any_some, Option.toList_some, Text.sameName_comm root]
  have apart : (surface.removalOrder.map Text.lower).Nodup := by
    rw [order, List.map_append, List.nodup_append]
    refine ⟨reversed.sublist (List.filter_sublist.map _), ?_, ?_⟩
    · cases surface.root? with
      | none => exact List.nodup_nil
      | some root => exact List.nodup_singleton _
    · rintro lowered member other last rfl
      obtain ⟨name, listed, same⟩ := List.mem_map.mp member
      obtain ⟨root, rooted, same'⟩ := List.mem_map.mp last
      have differs := (List.mem_filter.mp listed).2
      unfold isRoot at differs
      rw [Option.mem_toList.mp rooted, Option.any_some,
        Text.sameName_iff.mpr (same'.trans same.symm)] at differs
      cases differs
  unfold clear
  rw [destroyAll_eq distinct apart, order, List.filterMap_append,
    filterMap_storedName? distinct sited, filter_isRoot distinct]
  congr 1
  cases surface.root? with
  | none => rfl
  | some root =>
      rw [Option.toList_some, Option.bind_some]
      cases found : surface.container.storedName? root with
      | none => rw [List.filterMap_cons_none found]; rfl
      | some stored => rw [List.filterMap_cons_some found]; rfl

/-- Clearing destroys every component once. -/
theorem clear_perm (distinct : surface.container.Distinct) :
    surface.clear.1.Perm surface.container.names := by
  rw [clear_eq distinct]
  have reversed := (List.reverse_perm surface.container.names).filter (!surface.isRoot ·)
  exact ((reversed.append_right _).trans List.perm_append_comm).trans
    (List.filter_append_perm _ _)

/-- The root is destroyed last when it is sited. -/
theorem getLast?_clear (distinct : surface.container.Distinct) {name : Text}
    (sited : name ∈ surface.container.names) (rooted : surface.isRoot name = true) :
    surface.clear.1.getLast? = some name := by
  have last : name ∈ surface.container.names.filter surface.isRoot :=
    List.mem_filter.mpr ⟨sited, rooted⟩
  rw [clear_eq distinct]
  rw [filter_isRoot distinct, Option.mem_toList] at last
  rw [filter_isRoot distinct, last, Option.toList_some, List.getLast?_concat]

end Surface

end PageDesigner
