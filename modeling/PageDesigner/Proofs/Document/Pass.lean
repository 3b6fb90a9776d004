import PageDesigner.Document.Scan
import PageDesigner.Proofs.Control.Rereading
import PageDesigner.Proofs.Surface.Siting
import PageDesigner.Proofs.Keeping

/-!
# What a pass does

A pass goes over the tags in order.  `Settles` lists what happens to the component of
a tag with a usable id, and `Walk` is a pass up to some tag: every tag in front of it
was of no known type, or had a usable id and was settled.

The main statement is `visitAll_cases`: a pass never fails.  Either it walks over all
tags, or it walks up to the first tag of a known type without a usable id and asks for
an id that nothing has.
-/

namespace PageDesigner

open Container (site?_congr)

/-- What happens to the component of a tag with a usable id. -/
inductive Surface.Settles (mode : ScanMode) (controlType : ControlType) (id : Text)
    (element : Element) (surface : Surface) : Surface → Prop
  | created (free : surface.container.site? id = none) :
      Settles mode controlType id element surface
        (surface.place id ((Component.fresh controlType).readTag element false).1)
  | kept {component : Component} (found : surface.container.get? id = some component)
      (sameType : component.controlType.name = controlType.name) (first : mode = .initial) :
      Settles mode controlType id element surface surface
  | applied {component : Component} (found : surface.container.get? id = some component)
      (sameType : component.controlType.name = controlType.name) (later : mode = .persist) :
      Settles mode controlType id element surface
        { surface with
          container := surface.container.update id fun _ => (component.readTag element true).1 }
  | replaced {site : Site} (found : surface.container.site? id = some site)
      (otherType : site.component.controlType.name ≠ controlType.name) :
      Settles mode controlType id element surface
        ((surface.withoutControl site.name).place id
          ((Component.fresh controlType).readTag element false).1)

namespace Surface.Settles

variable {mode : ScanMode} {controlType : ControlType} {id : Text} {element : Element}
  {surface after : Surface}

theorem root?_eq (settles : Settles mode controlType id element surface after) :
    after.root? = surface.root? := by
  cases settles with
  | created => simp
  | kept => rfl
  | applied => rfl
  | replaced => simp

theorem isRoot_eq (settles : Settles mode controlType id element surface after) (name : Text) :
    after.isRoot name = surface.isRoot name := by
  unfold isRoot
  rw [settles.root?_eq]

/-- The name of a replaced component is free again. -/
theorem free_of_replaced {site : Site} (distinct : surface.container.Distinct)
    (found : surface.container.site? id = some site) :
    (surface.withoutControl site.name).container.site? id = none := by
  rw [← site?_congr (Container.sameName_of_site? found)]
  exact site?_withoutControl_self distinct site.name

theorem distinct (settles : Settles mode controlType id element surface after)
    (distinct : surface.container.Distinct) : after.container.Distinct := by
  cases settles with
  | created free => exact distinct_place distinct free _
  | kept => exact distinct
  | applied => exact distinct.update id _
  | replaced found =>
      exact distinct_place (distinct_withoutControl distinct _) (free_of_replaced distinct found) _

/-- Other controls are left alone. -/
theorem get?_of_ne (settles : Settles mode controlType id element surface after) {other : Text}
    (differs : id.sameName other = false) (notRoot : surface.isRoot other = false) :
    after.container.get? other = surface.container.get? other := by
  cases settles with
  | created => exact get?_place_of_ne differs notRoot _
  | kept => rfl
  | applied => exact Container.get?_update_of_ne differs _
  | @replaced site found _ =>
      have apart := Container.sameName_of_ne found differs
      rw [get?_place_of_ne differs ((isRoot_withoutControl _ _ _).trans notRoot)]
      unfold Container.get?
      rw [site?_withoutControl_of_ne apart notRoot]

/-- A component to which its tag has just been applied, whatever it held before. -/
def Applied (controlType : ControlType) (component : Component) (element : Element) : Prop :=
  component = ((Component.fresh controlType).readTag element false).1 ∨
    ∃ earlier : Component, earlier.controlType = component.controlType ∧
      component = (earlier.readTag element true).1

/-- The tag has a component of its type, and a later scan has applied the tag to it. -/
theorem get?_self (settles : Settles mode controlType id element surface after)
    (distinct : surface.container.Distinct) (notRoot : surface.isRoot id = false) :
    ∃ component, after.container.get? id = some component ∧
      component.controlType.name = controlType.name ∧
      (mode = .persist → Applied controlType component element) := by
  have fresh : Applied controlType ((Component.fresh controlType).readTag element false).1
      element := .inl rfl
  have type : ((Component.fresh controlType).readTag element false).1.controlType.name =
      controlType.name := by
    rw [Component.controlType_readTag]
    rfl
  cases settles with
  | created free => exact ⟨_, get?_place_self free notRoot _, type, fun _ => fresh⟩
  | @kept component found sameType first =>
      exact ⟨component, found, sameType, fun later => by rw [first] at later; cases later⟩
  | @applied component found sameType later =>
      refine ⟨(component.readTag element true).1, ?_, ?_, fun _ => .inr ⟨component, ?_, rfl⟩⟩
      · rw [Container.get?_update_self, found]
        rfl
      · rw [Component.controlType_readTag]
        exact sameType
      · rw [Component.controlType_readTag]
  | @replaced site found _ =>
      have stays := (isRoot_withoutControl surface site.name id).trans notRoot
      exact ⟨_, get?_place_self (free_of_replaced distinct found) stays _, type, fun _ => fresh⟩

end Surface.Settles

/-- A report of the same scan: since then only components were created and destroyed. -/
structure ScanReport.Continues (report later : ScanReport) : Prop where
  passes_eq : later.passes = report.passes
  ids_eq : later.ids = report.ids
  directives_eq : later.directives = report.directives
  issues_eq : later.issues = report.issues
  created_prefix : report.created <+: later.created

theorem ScanReport.Continues.refl (report : ScanReport) : report.Continues report :=
  ⟨rfl, rfl, rfl, rfl, List.prefix_rfl⟩

theorem ScanReport.Continues.trans {first second third : ScanReport}
    (continues : first.Continues second) (continues' : second.Continues third) :
    first.Continues third :=
  ⟨continues'.passes_eq.trans continues.passes_eq, continues'.ids_eq.trans continues.ids_eq,
    continues'.directives_eq.trans continues.directives_eq,
    continues'.issues_eq.trans continues.issues_eq,
    continues.created_prefix.trans continues'.created_prefix⟩

namespace ScanPass

theorem usableId?_eq_some {pass : ScanPass} {tag : Tag} {id : Text} :
    pass.usableId? tag = some id ↔
      tag.id? = some id ∧ Naming.isValid id = true ∧ id.lower ∉ pass.claimed ∧
        pass.surface.isRoot id = false := by
  unfold usableId?
  rw [Option.filter_eq_some_iff]
  simp [and_assoc]

/-! ## One tag

Claiming an id, creating, applying and destroying are functions of the pass, and `settle` is put
together from them: `settle_cases` says how.
-/

/-- The pass behind a tag whose id is claimed. -/
def claiming (pass : ScanPass) (id : Text) : ScanPass :=
  { pass with claimed := pass.claimed ++ [id.lower] }

/-- The pass behind the creation of the component of a tag. -/
def creating (pass : ScanPass) (controlType : ControlType) (id : Text) (element : Element) :
    ScanPass :=
  { pass with
    surface := pass.surface.place id ((Component.fresh controlType).readTag element false).1
    report := { pass.report with created := pass.report.created ++ [(id, controlType.name)] }
    issues := pass.issues ++ ((Component.fresh controlType).readTag element false).2 }

/-- The pass behind a tag that is applied again to its component. -/
def applying (pass : ScanPass) (id : Text) (component : Component) (element : Element) : ScanPass :=
  { pass with
    surface := { pass.surface with
      container := pass.surface.container.update id fun _ => (component.readTag element true).1 }
    issues := pass.issues ++ (component.readTag element true).2 }

/-- The pass behind the destruction of a component. -/
def destroying (pass : ScanPass) (name : Text) : ScanPass :=
  { pass with
    surface := pass.surface.withoutControl name
    report := { pass.report with removed := pass.report.removed ++ [name] } }

/-- What becomes of a pass with a tag that has a usable id. -/
inductive Settled (mode : ScanMode) (controlType : ControlType) (id : Text) (element : Element)
    (pass : ScanPass) : ScanPass → Prop
  | created (free : pass.surface.container.site? id = none) :
      Settled mode controlType id element pass ((pass.claiming id).creating controlType id element)
  | kept {component : Component} (found : pass.surface.container.get? id = some component)
      (sameType : component.controlType.name = controlType.name) (first : mode = .initial) :
      Settled mode controlType id element pass (pass.claiming id)
  | applied {component : Component} (found : pass.surface.container.get? id = some component)
      (sameType : component.controlType.name = controlType.name) (later : mode = .persist) :
      Settled mode controlType id element pass ((pass.claiming id).applying id component element)
  | replaced {site : Site} (found : pass.surface.container.site? id = some site)
      (otherType : site.component.controlType.name ≠ controlType.name) :
      Settled mode controlType id element pass
        (((pass.claiming id).destroying site.name).creating controlType id element)

section

variable {mode : ScanMode} {controlType : ControlType} {id : Text} {element : Element}
  {pass : ScanPass}

theorem create_eq (valid : Naming.isValid id = true)
    (free : pass.surface.container.site? id = none) :
    create controlType id element pass = .ok () (pass.creating controlType id element) := by
  have sited := Surface.siteControl_eq valid free
    ((Component.fresh controlType).readTag element false).1
  unfold create
  simp only [addIssues, bind, EStateM.bind, modify_eq, get_eq, sited, set_eq]
  rfl

theorem settle_created (valid : Naming.isValid id = true)
    (free : pass.surface.container.site? id = none) :
    settle mode controlType id element pass =
      .ok () ((pass.claiming id).creating controlType id element) := by
  have missing : pass.surface.container.get? id = none := by
    unfold Container.get?
    rw [free]
    rfl
  unfold settle
  simp only [bind, EStateM.bind, modify_eq, get_eq, missing]
  exact @create_eq controlType id element (pass.claiming id) valid free

/-- A first scan does not look at a tag whose component exists. -/
theorem settle_kept {component : Component}
    (found : pass.surface.container.get? id = some component)
    (sameType : component.controlType.name = controlType.name) :
    settle .initial controlType id element pass = .ok () (pass.claiming id) := by
  unfold settle
  simp only [bind, EStateM.bind, modify_eq, get_eq, found, if_pos sameType]
  rfl

theorem settle_applied {component : Component}
    (found : pass.surface.container.get? id = some component)
    (sameType : component.controlType.name = controlType.name) :
    settle .persist controlType id element pass =
      .ok () ((pass.claiming id).applying id component element) := by
  unfold settle
  simp only [bind, EStateM.bind, modify_eq, get_eq, found, if_pos sameType]
  rfl

theorem settle_replaced (distinct : pass.surface.container.Distinct)
    (valid : Naming.isValid id = true) (notRoot : pass.surface.isRoot id = false) {site : Site}
    (found : pass.surface.container.site? id = some site)
    (otherType : site.component.controlType.name ≠ controlType.name) :
    settle mode controlType id element pass =
      .ok () (((pass.claiming id).destroying site.name).creating controlType id element) := by
  have present : pass.surface.container.get? id = some site.component := by
    unfold Container.get?
    rw [found]
    rfl
  unfold settle
  simp only [bind, EStateM.bind, modify_eq, get_eq, present, if_neg otherType, destroy,
    Surface.destroy?_eq notRoot, found, Option.map_some]
  exact @create_eq controlType id element ((pass.claiming id).destroying site.name) valid
    (Surface.Settles.free_of_replaced distinct found)

/-- A tag with a usable id never fails a pass. -/
theorem settle_cases (mode : ScanMode) (controlType : ControlType) (element : Element)
    (distinct : pass.surface.container.Distinct) (valid : Naming.isValid id = true)
    (notRoot : pass.surface.isRoot id = false) :
    ∃ after, settle mode controlType id element pass = .ok () after ∧
      Settled mode controlType id element pass after := by
  cases found : pass.surface.container.site? id with
  | none => exact ⟨_, settle_created valid found, .created found⟩
  | some site =>
      have present : pass.surface.container.get? id = some site.component := by
        unfold Container.get?
        rw [found]
        rfl
      by_cases sameType : site.component.controlType.name = controlType.name
      · cases mode with
        | initial => exact ⟨_, settle_kept present sameType, .kept present sameType rfl⟩
        | persist => exact ⟨_, settle_applied present sameType, .applied present sameType rfl⟩
      · exact ⟨_, settle_replaced distinct valid notRoot found sameType, .replaced found sameType⟩

end

namespace Settled

variable {mode : ScanMode} {controlType : ControlType} {id : Text} {element : Element}
  {pass after : ScanPass}

theorem settles (settled : Settled mode controlType id element pass after) :
    pass.surface.Settles mode controlType id element after.surface := by
  cases settled with
  | created free => exact .created free
  | kept found sameType first => exact .kept found sameType first
  | applied found sameType later => exact .applied found sameType later
  | replaced found otherType => exact .replaced found otherType

theorem claimed_eq (settled : Settled mode controlType id element pass after) :
    after.claimed = pass.claimed ++ [id.lower] := by
  cases settled <;> rfl

theorem continues (settled : Settled mode controlType id element pass after) :
    pass.report.Continues after.report := by
  cases settled with
  | created => exact ⟨rfl, rfl, rfl, rfl, List.prefix_append _ _⟩
  | kept => exact .refl _
  | applied => exact .refl _
  | replaced => exact ⟨rfl, rfl, rfl, rfl, List.prefix_append _ _⟩

/-- A later scan reports what the tag leaves unapplied. -/
theorem exists_issues (settled : Settled .persist controlType id element pass after)
    (distinct : pass.surface.container.Distinct) (notRoot : pass.surface.isRoot id = false) :
    ∃ component, after.surface.container.get? id = some component ∧
      after.issues =
        pass.issues ++ ((Component.fresh component.controlType).readTag element false).2 := by
  have freshType : ((Component.fresh controlType).readTag element false).1.controlType =
      controlType := Component.controlType_readTag _ _ _
  cases settled with
  | created free =>
      refine ⟨_, Surface.get?_place_self free notRoot _, ?_⟩
      rw [freshType]
      rfl
  | kept _ _ first => cases first
  | @applied component found =>
      refine ⟨(component.readTag element true).1, ?_, ?_⟩
      · exact (Container.get?_update_self _ _ _).trans (congrArg _ found)
      · rw [Component.controlType_readTag, ← Component.issues_readTag component element true]
        rfl
  | @replaced site found =>
      refine ⟨_, Surface.get?_place_self (Surface.Settles.free_of_replaced distinct found) ?_ _, ?_⟩
      · exact (Surface.isRoot_withoutControl _ _ _).trans notRoot
      · rw [freshType]
        rfl

end Settled

/-- One tag of a known type with a usable id is claimed and settled; others change nothing but the
issues. -/
theorem visit_cases (registry : Registry) (mode : ScanMode) (taken : List Text)
    (element : Element) {pass : ScanPass} (distinct : pass.surface.container.Distinct) :
    (registry.resolve? element.name = none ∧
        ∃ issues, visit registry mode taken element pass = .ok none { pass with issues }) ∨
      (∃ controlType, registry.resolve? element.name = some controlType ∧
        pass.usableId? element.toTag = none ∧
        visit registry mode taken element pass =
          .ok (some ⟨element.toTag,
            Naming.unused controlType.name (pass.surface.container.names ++ taken)⟩) pass) ∨
      ∃ controlType id after, registry.resolve? element.name = some controlType ∧
        pass.usableId? element.toTag = some id ∧
        visit registry mode taken element pass = .ok none after ∧
        Settled mode controlType id element pass after := by
  unfold visit
  cases resolved : registry.resolve? element.name with
  | none => exact .inl ⟨rfl, _, rfl⟩
  | some controlType =>
      right
      simp only [bind, EStateM.bind, get_eq]
      cases usable : pass.usableId? element.toTag with
      | none => exact .inl ⟨controlType, rfl, rfl, rfl⟩
      | some id =>
          obtain ⟨_, valid, _, notRoot⟩ := usableId?_eq_some.mp usable
          obtain ⟨after, done, settled⟩ :=
            settle_cases mode controlType element distinct valid notRoot
          refine .inr ⟨controlType, id, after, rfl, rfl, ?_, settled⟩
          simp only [EStateM.bind, done]
          rfl

/-! ## All tags up to one -/

/-- A pass over tags none of which ends it. -/
inductive Walk (registry : Registry) (mode : ScanMode) :
    ScanPass → List Element → ScanPass → Prop
  | done (pass : ScanPass) : Walk registry mode pass [] pass
  | unknown {pass final : ScanPass} {element : Element} {rest : List Element}
      (resolved : registry.resolve? element.name = none) (issues : List Issue)
      (later : Walk registry mode { pass with issues } rest final) :
      Walk registry mode pass (element :: rest) final
  | known {pass after final : ScanPass} {element : Element} {rest : List Element}
      {controlType : ControlType} {id : Text}
      (resolved : registry.resolve? element.name = some controlType)
      (usable : pass.usableId? element.toTag = some id)
      (settled : Settled mode controlType id element pass after)
      (later : Walk registry mode after rest final) :
      Walk registry mode pass (element :: rest) final

/-- A pass walks over all tags, or up to the first one of a known type that lacks an id. -/
theorem visitAll_cases (registry : Registry) (mode : ScanMode) (taken : List Text)
    (elements : List Element) {pass : ScanPass} (distinct : pass.surface.container.Distinct) :
    ∃ final, final.surface.container.Distinct ∧
      ((Walk registry mode pass elements final ∧
          visitAll registry mode taken elements pass = .ok none final) ∨
        ∃ former element latter controlType, elements = former ++ element :: latter ∧
          Walk registry mode pass former final ∧
          registry.resolve? element.name = some controlType ∧
          final.usableId? element.toTag = none ∧
          visitAll registry mode taken elements pass = .ok (some ⟨element.toTag,
            Naming.unused controlType.name (final.surface.container.names ++ taken)⟩) final) := by
  induction elements generalizing pass with
  | nil => exact ⟨pass, distinct, .inl ⟨.done pass, rfl⟩⟩
  | cons element rest ih =>
      unfold visitAll
      simp only [bind, EStateM.bind]
      rcases visit_cases registry mode taken element distinct with
        ⟨unknown, issues, visited⟩ | ⟨controlType, resolved, lacks, visited⟩ |
          ⟨controlType, id, after, resolved, usable, visited, settled⟩
      · simp only [visited]
        obtain ⟨final, distinct', outcome⟩ := @ih { pass with issues } distinct
        refine ⟨final, distinct', ?_⟩
        rcases outcome with ⟨walk, done⟩ |
          ⟨former, element', latter, controlType, rfl, walk, resolved, lacks, done⟩
        · exact .inl ⟨.unknown unknown issues walk, done⟩
        · exact .inr ⟨element :: former, element', latter, controlType, rfl,
            .unknown unknown issues walk, resolved, lacks, done⟩
      · simp only [visited]
        exact ⟨pass, distinct,
          .inr ⟨[], element, rest, controlType, rfl, .done pass, resolved, lacks, rfl⟩⟩
      · simp only [visited]
        obtain ⟨final, distinct', outcome⟩ := @ih after (settled.settles.distinct distinct)
        refine ⟨final, distinct', ?_⟩
        rcases outcome with ⟨walk, done⟩ |
          ⟨former, element', latter, controlType', rfl, walk, resolved', lacks, done⟩
        · exact .inl ⟨.known resolved usable settled walk, done⟩
        · exact .inr ⟨element :: former, element', latter, controlType', rfl,
            .known resolved usable settled walk, resolved', lacks, done⟩

/-- The ids of the tags of known types. -/
def claims (registry : Registry) (elements : List Element) : List Text :=
  elements.filterMap fun element => (registry.resolve? element.name).bind fun _ => element.id?

theorem claims_cons_unclaimed {registry : Registry} {element : Element}
    (claimed : ((registry.resolve? element.name).bind fun _ => element.id?) = none)
    (rest : List Element) : claims registry (element :: rest) = claims registry rest :=
  List.filterMap_cons_none claimed

theorem claims_cons_claimed {registry : Registry} {element : Element} {id : Text}
    (claimed : ((registry.resolve? element.name).bind fun _ => element.id?) = some id)
    (rest : List Element) : claims registry (element :: rest) = id :: claims registry rest :=
  List.filterMap_cons_some claimed

theorem claims_cons_unknown {registry : Registry} {element : Element}
    (resolved : registry.resolve? element.name = none) (rest : List Element) :
    claims registry (element :: rest) = claims registry rest :=
  claims_cons_unclaimed (by rw [resolved]; rfl) rest

theorem claims_cons_known {registry : Registry} {element : Element} {controlType : ControlType}
    {id : Text} (resolved : registry.resolve? element.name = some controlType)
    (named : element.id? = some id) (rest : List Element) :
    claims registry (element :: rest) = id :: claims registry rest :=
  claims_cons_claimed (by rw [resolved]; exact named) rest

namespace Walk

variable {registry : Registry} {mode : ScanMode} {pass final : ScanPass}
  {elements : List Element}

theorem root?_eq (walk : Walk registry mode pass elements final) :
    final.surface.root? = pass.surface.root? := by
  induction walk with
  | done => rfl
  | unknown _ _ _ ih => exact ih
  | known _ _ settled _ ih => rw [ih, settled.settles.root?_eq]

theorem isRoot_eq (walk : Walk registry mode pass elements final) (name : Text) :
    final.surface.isRoot name = pass.surface.isRoot name := by
  unfold Surface.isRoot
  rw [walk.root?_eq]

theorem continues (walk : Walk registry mode pass elements final) :
    pass.report.Continues final.report := by
  induction walk with
  | done => exact .refl _
  | unknown _ _ _ ih => exact ih
  | known _ _ settled _ ih => exact settled.continues.trans ih

/-- A pass claims the ids of the tags of known types. -/
theorem claimed_eq (walk : Walk registry mode pass elements final) :
    final.claimed = pass.claimed ++ (claims registry elements).map Text.lower := by
  induction walk with
  | done => simp [claims]
  | unknown resolved _ _ ih => rw [ih, claims_cons_unknown resolved]
  | known resolved usable settled _ ih =>
      rw [ih, settled.claimed_eq, claims_cons_known resolved (usableId?_eq_some.mp usable).1]
      simp

/-- No id is claimed twice. -/
theorem nodup (walk : Walk registry mode pass elements final) (nodup : pass.claimed.Nodup) :
    final.claimed.Nodup := by
  induction walk with
  | done => exact nodup
  | unknown _ _ _ ih => exact ih nodup
  | known _ usable settled _ ih =>
      apply ih
      obtain ⟨_, _, unclaimed, _⟩ := usableId?_eq_some.mp usable
      rw [settled.claimed_eq, List.nodup_append]
      refine ⟨nodup, List.nodup_cons.mpr ⟨List.not_mem_nil, List.nodup_nil⟩, ?_⟩
      intro name member last isLast same
      rw [List.mem_singleton] at isLast
      rw [same, isLast] at member
      exact unclaimed member

/-- A control whose name the pass does not claim is left alone, and so is one claimed before. -/
theorem get?_of_unclaimed (walk : Walk registry mode pass elements final) {name : Text}
    (unclaimed : name.lower ∈ pass.claimed ∨
      name.lower ∉ (claims registry elements).map Text.lower)
    (notRoot : pass.surface.isRoot name = false) :
    final.surface.container.get? name = pass.surface.container.get? name := by
  induction walk with
  | done => rfl
  | unknown resolved _ _ ih =>
      rw [claims_cons_unknown resolved] at unclaimed
      exact ih unclaimed notRoot
  | @known pass after final element rest controlType id resolved usable settled _ ih =>
      obtain ⟨named, _, fresh, _⟩ := usableId?_eq_some.mp usable
      rw [claims_cons_known resolved named] at unclaimed
      have differs : id.sameName name = false := by
        rw [Bool.eq_false_iff]
        intro same
        rw [Text.sameName_iff] at same
        rcases unclaimed with before | never
        · rw [same] at fresh
          exact fresh before
        · rw [List.map_cons, same] at never
          exact never List.mem_cons_self
      rw [ih, settled.settles.get?_of_ne differs notRoot]
      · rcases unclaimed with before | never
        · left
          rw [settled.claimed_eq]
          exact List.mem_append_left _ before
        · right
          intro member
          exact never (List.mem_cons_of_mem _ member)
      · rw [settled.settles.isRoot_eq]
        exact notRoot

/-- What a pass has brought about for a tag of a known type. -/
structure Stands (mode : ScanMode) (final : ScanPass) (controlType : ControlType)
    (element : Element) (id : Text) (component : Component) : Prop where
  named : element.id? = some id
  valid : Naming.isValid id = true
  notRoot : final.surface.isRoot id = false
  found : final.surface.container.get? id = some component
  sameType : component.controlType.name = controlType.name
  applied : mode = .persist → Surface.Settles.Applied controlType component element

/-- Behind a pass, each tag of a known type names a component of its type. -/
theorem stands (walk : Walk registry mode pass elements final)
    (distinct : pass.surface.container.Distinct) {element : Element} (member : element ∈ elements)
    {controlType : ControlType} (resolved : registry.resolve? element.name = some controlType) :
    ∃ id component, Stands mode final controlType element id component := by
  induction walk with
  | done => cases member
  | unknown resolved' _ _ ih =>
      rcases List.mem_cons.mp member with rfl | member
      · rw [resolved] at resolved'
        cases resolved'
      · exact ih distinct member
  | @known pass after final element' rest controlType' id resolved' usable settled later ih =>
      rcases List.mem_cons.mp member with rfl | member
      · rw [resolved] at resolved'
        obtain rfl := Option.some.inj resolved'
        obtain ⟨named, valid, _, notRoot⟩ := usableId?_eq_some.mp usable
        obtain ⟨component, found, sameType, applied⟩ :=
          settled.settles.get?_self distinct notRoot
        refine ⟨id, component, named, valid, ?_, ?_, sameType, applied⟩
        · rw [later.isRoot_eq, settled.settles.isRoot_eq]
          exact notRoot
        · rw [later.get?_of_unclaimed]
          · exact found
          · left
            rw [settled.claimed_eq]
            simp
          · rw [settled.settles.isRoot_eq]
            exact notRoot
      · exact ih (settled.settles.distinct distinct) member

/-- Behind a later pass, the component of a tag was created in this scan, or the tag has been read
into it with restoring. -/
theorem created_or_restored (walk : Walk registry .persist pass elements final)
    {element : Element} (member : element ∈ elements) {id : Text} {component : Component}
    (claimed : ((registry.resolve? element.name).bind fun _ => element.id?) = some id)
    (found : final.surface.container.get? id = some component) :
    (∃ type, (id, type) ∈ final.report.created) ∨
      ∃ earlier : Component, component = (earlier.readTag element true).1 := by
  induction walk with
  | done => cases member
  | unknown resolved _ _ ih =>
      rcases List.mem_cons.mp member with rfl | member
      · rw [resolved] at claimed
        cases claimed
      · exact ih member found
  | @known pass after final element' rest controlType id' resolved usable settled later ih =>
      rcases List.mem_cons.mp member with rfl | member
      · obtain ⟨named, _, _, notRoot⟩ := usableId?_eq_some.mp usable
        rw [resolved, Option.bind_some] at claimed
        obtain rfl := Option.some.inj (named.symm.trans claimed)
        have kept : final.surface.container.get? id' = after.surface.container.get? id' := by
          refine later.get?_of_unclaimed (.inl ?_) ?_
          · rw [settled.claimed_eq]
            simp
          · rw [settled.settles.isRoot_eq]
            exact notRoot
        have created : (id', controlType.name) ∈ after.report.created →
            ∃ type, (id', type) ∈ final.report.created :=
          fun new => ⟨_, later.continues.created_prefix.subset new⟩
        cases settled with
        | created => exact .inl (created (List.mem_append_right _ (List.mem_singleton_self _)))
        | kept _ _ first => cases first
        | @applied earlier there =>
            refine .inr ⟨earlier, ?_⟩
            have read := (Container.get?_update_self pass.surface.container id' fun _ =>
              (earlier.readTag element true).1).trans (congrArg _ there)
            exact Option.some.inj (found.symm.trans (kept.trans read))
        | replaced => exact .inl (created (List.mem_append_right _ (List.mem_singleton_self _)))
      · exact ih member found

end Walk

/-! ## Orphans -/

/-- Destroying a name that is not the root leaves all other names alone. -/
theorem destroy_eq {name : Text} {pass : ScanPass} (distinct : pass.surface.container.Distinct)
    (notRoot : pass.surface.isRoot name = false) :
    ∃ after, destroy name pass = .ok () after ∧ after.surface.container.Distinct ∧
      after.surface.root? = pass.surface.root? ∧
      (∀ other, name.sameName other = false → pass.surface.isRoot other = false →
        after.surface.container.site? other = pass.surface.container.site? other) ∧
      after.surface.container.site? name = none ∧
      after.surface.container.names ⊆ pass.surface.container.names := by
  cases found : pass.surface.container.site? name with
  | none =>
      refine ⟨pass, ?_, distinct, rfl, fun _ _ _ => rfl, found, fun _ member => member⟩
      simp only [destroy, modify_eq,
        Surface.destroy?_eq notRoot, found, Option.map_none]
  | some site =>
      refine ⟨{ pass with
          surface := pass.surface.withoutControl site.name
          report := { pass.report with removed := pass.report.removed ++ [site.name] } },
        ?_, Surface.distinct_withoutControl distinct _, Surface.root?_withoutControl _ _,
        ?_, Surface.Settles.free_of_replaced distinct found,
        fun _ member => Surface.mem_names_withoutControl member⟩
      · simp only [destroy, modify_eq,
          Surface.destroy?_eq notRoot, found, Option.map_some]
      · intro other differs stays
        exact Surface.site?_withoutControl_of_ne (Container.sameName_of_ne found differs) stays

/-- Destroying names, none of them the root, leaves all other names alone. -/
theorem forM_destroy {names : List Text} {pass : ScanPass}
    (distinct : pass.surface.container.Distinct)
    (notRoot : ∀ name ∈ names, pass.surface.isRoot name = false) :
    ∃ final, names.forM destroy pass = .ok () final ∧
      final.surface.container.Distinct ∧ final.surface.root? = pass.surface.root? ∧
      (∀ other, other.lower ∉ names.map Text.lower → pass.surface.isRoot other = false →
        final.surface.container.site? other = pass.surface.container.site? other) ∧
      (∀ name ∈ names, final.surface.container.site? name = none) ∧
      final.surface.container.names ⊆ pass.surface.container.names := by
  induction names generalizing pass with
  | nil =>
      exact ⟨pass, rfl, distinct, rfl, fun _ _ _ => rfl, by simp, fun _ member => member⟩
  | cons name names ih =>
      obtain ⟨middle, destroyed, distinct', root, others, gone, within⟩ :=
        destroy_eq distinct (notRoot name List.mem_cons_self)
      have stays : ∀ other, middle.surface.isRoot other = pass.surface.isRoot other := by
        intro other
        unfold Surface.isRoot
        rw [root]
      obtain ⟨final, done, distinct'', root', others', gone', within'⟩ := ih distinct' fun other
        member => by rw [stays]; exact notRoot other (List.mem_cons_of_mem _ member)
      refine ⟨final, ?_, distinct'', root'.trans root, ?_, ?_,
        fun _ member => within (within' member)⟩
      · show EStateM.bind (destroy name) (fun _ => names.forM destroy) pass = _
        simp only [EStateM.bind, destroyed]
        exact done
      · intro other absent notRoot'
        simp only [List.map_cons, List.mem_cons, not_or] at absent
        rw [others' other absent.2 (by rw [stays, notRoot']), others other ?_ notRoot']
        rw [Bool.eq_false_iff]
        intro same
        exact absent.1 (Text.sameName_iff.mp same).symm
      · intro other member
        by_cases later : other.lower ∈ names.map Text.lower
        · obtain ⟨name', member', lower⟩ := List.mem_map.mp later
          rw [Container.site?_congr (Text.sameName_iff.mpr lower.symm)]
          exact gone' name' member'
        · have notRoot' := notRoot other member
          rw [others' other later (by rw [stays, notRoot'])]
          rcases List.mem_cons.mp member with rfl | member
          · exact gone
          · exact absurd (List.mem_map_of_mem member) later

/-- Dropping the orphans leaves exactly the root and what the pass has claimed. -/
theorem dropOrphans_eq {pass : ScanPass} (distinct : pass.surface.container.Distinct) :
    ∃ final, dropOrphans pass = .ok () final ∧ final.surface.container.Distinct ∧
      final.surface.root? = pass.surface.root? ∧
      (∀ name, name.lower ∈ pass.claimed → pass.surface.isRoot name = false →
        final.surface.container.site? name = pass.surface.container.site? name) ∧
      ∀ site ∈ final.surface.container.sites, pass.surface.isRoot site.name = false →
        site.name.lower ∈ pass.claimed := by
  have plain : ∀ name ∈ pass.orphans, pass.surface.isRoot name = false := by
    intro name member
    have kept := (List.mem_filter.mp member).2
    simp only [Bool.and_eq_true, Bool.not_eq_true'] at kept
    exact kept.1
  obtain ⟨final, done, distinct', root, others, gone, within⟩ := forM_destroy distinct plain
  refine ⟨final, done, distinct', root, ?_, ?_⟩
  · intro name claimed notRoot
    refine others name ?_ notRoot
    intro orphan
    obtain ⟨name', member, lower⟩ := List.mem_map.mp orphan
    have kept := (List.mem_filter.mp member).2
    rw [lower] at kept
    simp [claimed] at kept
  · intro site member notRoot
    by_contra unclaimed
    have listed : site.name ∈ pass.surface.container.names :=
      within (List.mem_map_of_mem member)
    have orphan : site.name ∈ pass.orphans := by
      refine List.mem_filter.mpr ⟨listed, ?_⟩
      simp [notRoot, unclaimed]
    have missing := gone site.name orphan
    rw [Container.site?_of_mem distinct' member (Text.sameName_refl _)] at missing
    cases missing

end ScanPass

end PageDesigner
