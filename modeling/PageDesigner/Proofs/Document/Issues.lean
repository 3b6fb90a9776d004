import PageDesigner.Proofs.Document.Reconciliation
import PageDesigner.Proofs.Surface.Alike

/-!
# The issues of a pass

Behind a pass of a later scan, the issues that it has reported can be read off the tags
and the types of the components that the pass leaves (`issues_visitAll`), whatever the
components held before.

A pass over tags whose components are as the tags make them creates nothing, removes
nothing, and reads each tag into its component once more (`visitAll_again`).
-/

namespace PageDesigner.ScanPass

/-- What a later scan reports of a tag. -/
def tagIssues (registry : Registry) (surface : Surface) (element : Element) : List Issue :=
  match registry.resolve? element.name with
  | none => [.ofTag element.toTag "no control type registered for this tag"]
  | some _ =>
      match element.id?.bind surface.container.get? with
      | none => []
      | some component =>
          ((Component.fresh component.controlType).readTag element false).2

theorem tagIssues_unknown {registry : Registry} {element : Element}
    (resolved : registry.resolve? element.name = none) (surface : Surface) :
    tagIssues registry surface element =
      [.ofTag element.toTag "no control type registered for this tag"] := by
  unfold tagIssues
  rw [resolved]

theorem tagIssues_known {registry : Registry} {surface : Surface} {element : Element}
    {controlType : ControlType} {id : Text} {component : Component}
    (resolved : registry.resolve? element.name = some controlType)
    (named : element.id? = some id) (found : surface.container.get? id = some component) :
    tagIssues registry surface element =
      ((Component.fresh component.controlType).readTag element false).2 := by
  unfold tagIssues
  rw [resolved, named, Option.bind_some, found]

/-- Nothing counts for the issues of tags but the components that have their ids. -/
theorem tagIssues_congr {registry : Registry} {surface other : Surface} {elements : List Element}
    (same : ∀ id ∈ claims registry elements,
      other.container.get? id = surface.container.get? id) :
    elements.flatMap (tagIssues registry other) =
      elements.flatMap (tagIssues registry surface) := by
  refine List.flatMap_congr fun element member => ?_
  unfold tagIssues
  cases resolved : registry.resolve? element.name with
  | none => rfl
  | some controlType =>
      cases named : element.id? with
      | none => rfl
      | some id =>
          have listed : id ∈ claims registry elements :=
            Surface.mem_claims.mpr ⟨element, member, by rw [resolved]; rfl, named⟩
          rw [Option.bind_some, Option.bind_some, same id listed]

/-! ## What a pass reports -/

variable {registry : Registry} {taken : List Text}

theorem visitAll_unknown {element : Element} (resolved : registry.resolve? element.name = none)
    (mode : ScanMode) (rest : List Element) (pass : ScanPass) :
    visitAll registry mode taken (element :: rest) pass =
      visitAll registry mode taken rest
        { pass with issues := pass.issues ++ tagIssues registry pass.surface element } := by
  rw [tagIssues_unknown resolved, visitAll]
  unfold visit
  rw [resolved]
  rfl

theorem visitAll_known {element : Element} {controlType : ControlType} {id : Text}
    {pass after : ScanPass} {mode : ScanMode}
    (resolved : registry.resolve? element.name = some controlType)
    (usable : pass.usableId? element.toTag = some id)
    (settles : settle mode controlType id element pass = .ok () after) (rest : List Element) :
    visitAll registry mode taken (element :: rest) pass =
      visitAll registry mode taken rest after := by
  rw [visitAll]
  unfold visit
  simp only [resolved, bind, EStateM.bind, get_eq, usable,
    settles]
  rfl

theorem walk_of_visitAll {mode : ScanMode} {elements : List Element} {pass final : ScanPass}
    (distinct : pass.surface.container.Distinct)
    (done : visitAll registry mode taken elements pass = .ok none final) :
    Walk registry mode pass elements final := by
  obtain ⟨final', _, outcome⟩ := visitAll_cases registry mode taken elements distinct
  rcases outcome with ⟨walk, done'⟩ | ⟨_, _, _, _, _, _, _, _, done'⟩
  · rw [done'] at done
    injection done with _ same
    rw [← same]
    exact walk
  · rw [done'] at done
    injection done with missing _
    cases missing

/-- A pass reports every tag of an unknown type, and what each other tag leaves unapplied. -/
theorem issues_visitAll {elements : List Element} {pass final : ScanPass}
    (distinct : pass.surface.container.Distinct)
    (done : visitAll registry .persist taken elements pass = .ok none final) :
    final.issues = pass.issues ++ elements.flatMap (tagIssues registry final.surface) := by
  induction elements generalizing pass with
  | nil =>
      injection done with _ same
      rw [← same, List.flatMap_nil, List.append_nil]
  | cons element rest ih =>
      cases resolved : registry.resolve? element.name with
      | none =>
          rw [visitAll_unknown resolved] at done
          have later := @ih { pass with
            issues := pass.issues ++ tagIssues registry pass.surface element } distinct done
          rw [later, tagIssues_unknown resolved, List.flatMap_cons, tagIssues_unknown resolved,
            List.append_assoc]
      | some controlType =>
          cases usable : pass.usableId? element.toTag with
          | none =>
              rw [visitAll] at done
              unfold visit at done
              simp only [resolved, bind, EStateM.bind, get_eq,
                usable, pure, EStateM.pure] at done
              injection done with missing _
              cases missing
          | some id =>
              obtain ⟨named, valid, _, notRoot⟩ := usableId?_eq_some.mp usable
              obtain ⟨after, settles, settled⟩ :=
                settle_cases .persist controlType element distinct valid notRoot
              obtain ⟨component, found, issues⟩ := settled.exists_issues distinct notRoot
              rw [visitAll_known resolved usable settles] at done
              have distinct' := settled.settles.distinct distinct
              -- The rest of the pass leaves the component of a claimed id alone.
              have isClaimed : id.lower ∈ after.claimed := by
                rw [settled.claimed_eq]
                simp
              have kept := (walk_of_visitAll distinct' done).get?_of_unclaimed (.inl isClaimed)
                (by rw [settled.settles.isRoot_eq]; exact notRoot)
              rw [ih distinct' done, issues, List.flatMap_cons,
                tagIssues_known resolved named (kept.trans found), List.append_assoc]

/-! ## A pass with nothing left to do -/

/-- The tag is of an unknown type, or names a component of its type that is as the tag makes it. -/
def Rests (registry : Registry) (surface : Surface) (element : Element) : Prop :=
  ∀ controlType, registry.resolve? element.name = some controlType →
    ∃ id component, element.id? = some id ∧ Naming.isValid id = true ∧
      surface.isRoot id = false ∧ surface.container.get? id = some component ∧
      component.controlType.name = controlType.name ∧
      component.Similar (component.readTag element true).1

/-- The components of tags when each is read into once more. -/
def reread (registry : Registry) : List Element → Container → Container
  | [], container => container
  | element :: rest, container =>
      match (registry.resolve? element.name).bind fun _ => element.id? with
      | none => reread registry rest container
      | some id =>
          reread registry rest
            (container.update id fun component => (component.readTag element true).1)

theorem reread_cons_unclaimed {element : Element}
    (claimed : ((registry.resolve? element.name).bind fun _ => element.id?) = none)
    (rest : List Element) (container : Container) :
    reread registry (element :: rest) container = reread registry rest container := by
  rw [reread, claimed]

theorem reread_cons_claimed {element : Element} {id : Text}
    (claimed : ((registry.resolve? element.name).bind fun _ => element.id?) = some id)
    (rest : List Element) (container : Container) :
    reread registry (element :: rest) container =
      reread registry rest
        (container.update id fun component => (component.readTag element true).1) := by
  rw [reread, claimed]

@[simp]
theorem names_reread (elements : List Element) (container : Container) :
    (reread registry elements container).names = container.names := by
  induction elements generalizing container with
  | nil => rfl
  | cons element rest ih =>
      rw [reread]
      split
      · exact ih container
      · rw [ih, Container.names_update]

/-- Changing the component of one tag leaves those of the tags with other ids alone. -/
theorem get?_update_of_fresh {elements : List Element} {id : Text}
    (fresh : id.lower ∉ (claims registry elements).map Text.lower) {other : Text}
    (member : other ∈ claims registry elements) (container : Container)
    (change : Component → Component) :
    (container.update id change).get? other = container.get? other := by
  refine Container.get?_update_of_ne (Bool.eq_false_iff.mpr fun same => fresh ?_) _
  rw [Text.sameName_iff.mp same]
  exact List.mem_map_of_mem member

/-- What no tag names stays as it is. -/
theorem get?_reread_of_unclaimed {elements : List Element} {name : Text}
    (unclaimed : name.lower ∉ (claims registry elements).map Text.lower) (container : Container) :
    (reread registry elements container).get? name = container.get? name := by
  induction elements generalizing container with
  | nil => rfl
  | cons element rest ih =>
      cases claimed : (registry.resolve? element.name).bind fun _ => element.id? with
      | none =>
          rw [claims_cons_unclaimed claimed] at unclaimed
          rw [reread_cons_unclaimed claimed, ih unclaimed]
      | some id =>
          rw [claims_cons_claimed claimed, List.map_cons, List.mem_cons, not_or] at unclaimed
          rw [reread_cons_claimed claimed, ih unclaimed.2]
          refine Container.get?_update_of_ne (Bool.eq_false_iff.mpr fun same => ?_) _
          exact unclaimed.1 (Text.sameName_iff.mp same).symm

/-- What a tag names is read into once. -/
theorem get?_reread {elements : List Element} {element : Element} {id : Text}
    (once : ((claims registry elements).map Text.lower).Nodup) (member : element ∈ elements)
    (claimed : ((registry.resolve? element.name).bind fun _ => element.id?) = some id)
    (container : Container) :
    (reread registry elements container).get? id =
      (container.get? id).map fun component => (component.readTag element true).1 := by
  induction elements generalizing container with
  | nil => cases member
  | cons head rest ih =>
      cases claimed' : (registry.resolve? head.name).bind fun _ => head.id? with
      | none =>
          rw [claims_cons_unclaimed claimed'] at once
          rcases List.mem_cons.mp member with rfl | member
          · rw [claimed] at claimed'
            cases claimed'
          · rw [reread_cons_unclaimed claimed', ih once member]
      | some id' =>
          rw [claims_cons_claimed claimed', List.map_cons] at once
          obtain ⟨fresh, once'⟩ := List.nodup_cons.mp once
          rw [reread_cons_claimed claimed']
          rcases List.mem_cons.mp member with rfl | member
          · rw [claimed] at claimed'
            obtain rfl := Option.some.inj claimed'
            rw [get?_reread_of_unclaimed fresh, Container.get?_update_self]
          · rw [ih once' member,
              get?_update_of_fresh fresh (List.mem_filterMap.mpr ⟨element, member, claimed⟩)]

/-- A relation between a component and what a tag makes of it relates the containers. -/
theorem related_reread {related : Component → Component → Prop}
    (reflexive : ∀ component, related component component)
    (transitive : ∀ first second third, related first second → related second third →
      related first third) {elements : List Element} {container : Container}
    (once : ((claims registry elements).map Text.lower).Nodup)
    (reads : ∀ element ∈ elements, ∀ id,
      ((registry.resolve? element.name).bind fun _ => element.id?) = some id →
      ∀ component, container.get? id = some component →
        related component (component.readTag element true).1) :
    container.Related related (reread registry elements container) := by
  induction elements generalizing container with
  | nil => exact .refl reflexive container
  | cons element rest ih =>
      have later := fun other member => reads other (List.mem_cons_of_mem element member)
      cases claimed : (registry.resolve? element.name).bind fun _ => element.id? with
      | none =>
          rw [claims_cons_unclaimed claimed] at once
          rw [reread_cons_unclaimed claimed]
          exact ih once later
      | some id =>
          rw [claims_cons_claimed claimed, List.map_cons] at once
          obtain ⟨fresh, once'⟩ := List.nodup_cons.mp once
          have here : container.Related related
              (container.update id fun component => (component.readTag element true).1) :=
            Container.related_update reflexive (reads element List.mem_cons_self id claimed)
          rw [reread_cons_claimed claimed]
          refine here.trans transitive (ih once' fun other member id' claimed' held found => ?_)
          have listed : id' ∈ claims registry rest :=
            List.mem_filterMap.mpr ⟨other, member, claimed'⟩
          rw [get?_update_of_fresh fresh listed] at found
          exact later other member id' claimed' held found

/-- Only the component that the tag names counts. -/
theorem Rests.congr {surface other : Surface} {element : Element} {elements : List Element}
    (rests : Rests registry surface element) (member : element ∈ elements)
    (root : other.root? = surface.root?)
    (same : ∀ id ∈ claims registry elements,
      other.container.get? id = surface.container.get? id) : Rests registry other element := by
  intro controlType resolved
  obtain ⟨id, component, named, valid, notRoot, found, facts⟩ := rests controlType resolved
  refine ⟨id, component, named, valid, ?_, ?_, facts⟩
  · unfold Surface.isRoot
    rw [root]
    exact notRoot
  · rw [same id (Surface.mem_claims.mpr ⟨element, member, by rw [resolved]; rfl, named⟩), found]

/-- A tag whose component is of its type is claimed and read into the component once more. -/
theorem settle_again {element : Element} {controlType : ControlType} {id : Text}
    {component : Component} {pass : ScanPass}
    (resolved : registry.resolve? element.name = some controlType)
    (named : element.id? = some id) (found : pass.surface.container.get? id = some component)
    (sameType : component.controlType.name = controlType.name) :
    settle .persist controlType id element pass = .ok ()
      { pass with
        surface := { pass.surface with
          container := pass.surface.container.update id fun component =>
            (component.readTag element true).1 }
        claimed := pass.claimed ++ [id.lower]
        issues := pass.issues ++ tagIssues registry pass.surface element } := by
  have read : (pass.surface.container.update id fun _ => (component.readTag element true).1) =
      pass.surface.container.update id fun component => (component.readTag element true).1 :=
    Container.update_congr fun other found' => by
      rw [Option.some.inj (found.symm.trans found')]
  rw [settle_applied found sameType, tagIssues_known resolved named found,
    ← Component.issues_readTag component element true, ← read]
  rfl

/-- A pass over tags whose components are as the tags make them reads each of these once more, and
reports what there is to report. -/
theorem visitAll_again {elements : List Element} {pass : ScanPass}
    (rests : ∀ element ∈ elements, Rests registry pass.surface element)
    (once : ((claims registry elements).map Text.lower).Nodup)
    (unclaimed : ∀ id ∈ (claims registry elements).map Text.lower, id ∉ pass.claimed) :
    visitAll registry .persist taken elements pass = .ok none
      { pass with
        surface := { pass.surface with
          container := reread registry elements pass.surface.container }
        claimed := pass.claimed ++ (claims registry elements).map Text.lower
        issues := pass.issues ++ elements.flatMap (tagIssues registry pass.surface) } := by
  induction elements generalizing pass with
  | nil =>
      simp only [claims, List.filterMap_nil, List.map_nil, List.flatMap_nil, List.append_nil]
      rfl
  | cons element rest ih =>
      have rests' := fun other member => rests other (List.mem_cons_of_mem _ member)
      cases resolved : registry.resolve? element.name with
      | none =>
          rw [claims_cons_unknown resolved] at once unclaimed
          rw [visitAll_unknown resolved,
            @ih { pass with issues := pass.issues ++ tagIssues registry pass.surface element }
              rests' once unclaimed,
            claims_cons_unknown resolved, reread_cons_unclaimed (by rw [resolved]; rfl),
            List.flatMap_cons, List.append_assoc]
      | some controlType =>
          obtain ⟨id, component, named, valid, notRoot, found, sameType, -⟩ :=
            rests element List.mem_cons_self controlType resolved
          rw [claims_cons_known resolved named, List.map_cons] at once unclaimed
          obtain ⟨fresh, once'⟩ := List.nodup_cons.mp once
          have usable : pass.usableId? element.toTag = some id :=
            usableId?_eq_some.mpr ⟨named, valid, unclaimed _ List.mem_cons_self, notRoot⟩
          have again := settle_again resolved named found sameType
          have claimed : ((registry.resolve? element.name).bind fun _ => element.id?) = some id := by
            rw [resolved]
            exact named
          have others : ∀ other ∈ claims registry rest,
              (pass.surface.container.update id fun component =>
                (component.readTag element true).1).get? other =
                pass.surface.container.get? other :=
            fun other member => get?_update_of_fresh fresh member _ _
          have unclaimed' : ∀ other ∈ (claims registry rest).map Text.lower,
              other ∉ pass.claimed ++ [id.lower] := by
            intro other member claimed
            rcases List.mem_append.mp claimed with before | here
            · exact unclaimed other (List.mem_cons_of_mem _ member) before
            · rw [List.mem_singleton.mp here] at member
              exact fresh member
          rw [visitAll_known resolved usable again, ih _ once' unclaimed', tagIssues_congr others,
            claims_cons_claimed claimed, reread_cons_claimed claimed, List.flatMap_cons]
          · simp only [List.map_cons, List.append_assoc, List.singleton_append]
          · exact fun other member => (rests' other member).congr member rfl others

end PageDesigner.ScanPass
