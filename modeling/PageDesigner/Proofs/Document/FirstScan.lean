import PageDesigner.Proofs.Document.Reconciliation
import PageDesigner.Proofs.Document.Stability

/-!
# What the first scan makes of a text

The first scan of a document sites the components of its tags one after the other, in
several passes and from several versions of the text.  The outcome does not show this:
it is the surface on which the tags of the last version are sited in their order
(`Surface.populate`), because no edit changes a tag whose component exists already.

`Claimable` says that no tag in a list lacks an id.  It holds of the tags of the text
that a scan leaves, so a scan of that text settles in its first pass.
-/

namespace PageDesigner

open ScanPass (Walk claims)

namespace ScanPass

/-- No tag of a known type lacks a usable id, given the ids that are claimed before. -/
inductive Claimable (registry : Registry) (surface : Surface) : List Text → List Element → Prop
  | nil (claimed : List Text) : Claimable registry surface claimed []
  | unknown {claimed : List Text} {element : Element} {rest : List Element}
      (resolved : registry.resolve? element.name = none)
      (later : Claimable registry surface claimed rest) :
      Claimable registry surface claimed (element :: rest)
  | known {claimed : List Text} {element : Element} {rest : List Element}
      {controlType : ControlType} {id : Text}
      (resolved : registry.resolve? element.name = some controlType)
      (named : element.id? = some id) (valid : Naming.isValid id = true)
      (fresh : id.lower ∉ claimed) (notRoot : surface.isRoot id = false)
      (later : Claimable registry surface (claimed ++ [id.lower]) rest) :
      Claimable registry surface claimed (element :: rest)

namespace Claimable

variable {registry : Registry} {surface : Surface} {claimed : List Text}

/-- Only the opening tags matter, and which name is that of the root. -/
theorem congr {elements elements' : List Element} {surface' : Surface}
    (claimable : Claimable registry surface claimed elements)
    (root : surface'.root? = surface.root?)
    (same : elements'.map Element.opening = elements.map Element.opening) :
    Claimable registry surface' claimed elements' := by
  induction claimable generalizing elements' with
  | nil claimed =>
      rw [List.map_nil, List.map_eq_nil_iff] at same
      subst same
      exact .nil claimed
  | @unknown claimed element rest resolved _ ih =>
      obtain ⟨element', rest', rfl, here, later⟩ := List.map_eq_cons_iff.mp same
      have tag : element'.toTag = element.toTag := congrArg Prod.fst here
      exact .unknown (by rw [tag]; exact resolved) (ih later)
  | @known claimed element rest controlType id resolved named valid fresh notRoot _ ih =>
      obtain ⟨element', rest', rfl, here, later⟩ := List.map_eq_cons_iff.mp same
      have tag : element'.toTag = element.toTag := congrArg Prod.fst here
      refine .known (by rw [tag]; exact resolved) (by rw [tag]; exact named) valid fresh ?_
        (ih later)
      unfold Surface.isRoot at notRoot ⊢
      rw [root]
      exact notRoot

/-- A pass does not stop at a tag that lacks no id. -/
theorem usable {former latter : List Element} {element : Element} {pass final : ScanPass}
    {mode : ScanMode} {controlType : ControlType}
    (claimable : Claimable registry surface pass.claimed (former ++ element :: latter))
    (root : surface.root? = pass.surface.root?) (walk : Walk registry mode pass former final)
    (resolved : registry.resolve? element.name = some controlType) :
    final.usableId? element.toTag ≠ none := by
  induction walk with
  | done pass =>
      cases claimable with
      | unknown resolved' => rw [resolved] at resolved'; cases resolved'
      | known _ named valid fresh notRoot _ =>
          intro lacks
          have usable := usableId?_eq_some.mpr ⟨named, valid, fresh, by
            unfold Surface.isRoot at notRoot ⊢
            rw [← root]
            exact notRoot⟩
          rw [usable] at lacks
          cases lacks
  | unknown resolved' _ _ ih =>
      cases claimable with
      | unknown _ later => exact ih later root
      | known resolved'' => rw [resolved'] at resolved''; cases resolved''
  | known resolved' usable' settled _ ih =>
      cases claimable with
      | unknown resolved'' => rw [resolved'] at resolved''; cases resolved''
      | known _ named _ _ _ later =>
          have named' := (usableId?_eq_some.mp usable').1
          rw [named] at named'
          obtain rfl := Option.some.inj named'
          rw [← settled.claimed_eq] at later
          exact ih later (by rw [settled.settles.root?_eq, root])

end Claimable

/-- A pass claims what it has walked over. -/
theorem Walk.claimable {registry : Registry} {mode : ScanMode} {pass final : ScanPass}
    {elements : List Element} (walk : Walk registry mode pass elements final) :
    Claimable registry pass.surface pass.claimed elements := by
  induction walk with
  | done => exact .nil _
  | unknown resolved _ _ ih => exact .unknown resolved ih
  | known resolved usable settled _ ih =>
      obtain ⟨named, valid, fresh, notRoot⟩ := usableId?_eq_some.mp usable
      rw [settled.claimed_eq] at ih
      exact .known resolved named valid fresh notRoot
        (ih.congr settled.settles.root?_eq.symm rfl)

/-- A pass over tags is a pass over the former ones and then over the latter. -/
theorem Walk.split {registry : Registry} {mode : ScanMode} {pass final : ScanPass}
    {former latter : List Element} (walk : Walk registry mode pass (former ++ latter) final) :
    ∃ middle, Walk registry mode pass former middle ∧ Walk registry mode middle latter final := by
  induction former generalizing pass with
  | nil => exact ⟨pass, .done pass, walk⟩
  | cons element former ih =>
      cases walk with
      | unknown resolved issues later =>
          obtain ⟨middle, first, second⟩ := ih later
          exact ⟨middle, .unknown resolved issues first, second⟩
      | known resolved usable settled later =>
          obtain ⟨middle, first, second⟩ := ih later
          exact ⟨middle, .known resolved usable settled first, second⟩

end ScanPass

namespace Surface

/-- Site the control of a tag that names one. -/
def siteTag (registry : Registry) (surface : Surface) (element : Element) : Surface :=
  match registry.resolve? element.name, element.id? with
  | some controlType, some id =>
      surface.place id ((Component.fresh controlType).readTag element false).1
  | _, _ => surface

/-- Site the controls of all tags, one after the other. -/
def populate (registry : Registry) (surface : Surface) (elements : List Element) : Surface :=
  elements.foldl (siteTag registry) surface

theorem populate_append (registry : Registry) (surface : Surface) (former latter : List Element) :
    populate registry surface (former ++ latter) =
      populate registry (populate registry surface former) latter :=
  List.foldl_append

/-- Only the opening tags matter for what is sited. -/
theorem populate_congr {elements elements' : List Element}
    (same : elements'.map Element.opening = elements.map Element.opening) (registry : Registry)
    (surface : Surface) :
    populate registry surface elements' = populate registry surface elements := by
  induction elements generalizing elements' surface with
  | nil =>
      rw [List.map_nil, List.map_eq_nil_iff] at same
      rw [same]
  | cons element rest ih =>
      obtain ⟨element', rest', rfl, here, later⟩ := List.map_eq_cons_iff.mp same
      have tag : element'.toTag = element.toTag := congrArg Prod.fst here
      have sited : siteTag registry surface element' = siteTag registry surface element := by
        unfold siteTag
        rw [tag]
        split
        · rw [Component.readTag_congr here]
        · rfl
      unfold populate at ih ⊢
      rw [List.foldl_cons, List.foldl_cons, sited, ih later]

@[simp]
theorem root?_siteTag (registry : Registry) (surface : Surface) (element : Element) :
    (siteTag registry surface element).root? = surface.root? := by
  unfold siteTag
  split
  · exact root?_place _ _ _
  · rfl

@[simp]
theorem root?_populate (registry : Registry) (surface : Surface) (elements : List Element) :
    (populate registry surface elements).root? = surface.root? := by
  induction elements generalizing surface with
  | nil => rfl
  | cons element rest ih => exact (ih _).trans (root?_siteTag registry surface element)

/-- The names that were there are followed by those that the tags claim. -/
theorem names_populate (registry : Registry) (surface : Surface) (elements : List Element) :
    (populate registry surface elements).container.names =
      surface.container.names ++ claims registry elements := by
  induction elements generalizing surface with
  | nil => exact (List.append_nil _).symm
  | cons element rest ih =>
      refine (ih (siteTag registry surface element)).trans ?_
      unfold siteTag claims
      rw [List.filterMap_cons]
      split
      · next controlType id resolved named =>
          rw [names_place, resolved, Option.bind_some, named, List.append_assoc]
          rfl
      · next unnamed =>
          cases resolved : registry.resolve? element.name with
          | none => rfl
          | some controlType =>
              cases named : element.id? with
              | none => rw [Option.bind_some]
              | some id => exact absurd named (unnamed controlType id resolved)

/-- Every tag of a known type with an id names a component of its type. -/
def Sited (registry : Registry) (surface : Surface) (elements : List Element) : Prop :=
  ∀ element ∈ elements, ∀ controlType id, registry.resolve? element.name = some controlType →
    element.id? = some id → ∃ component, surface.container.get? id = some component ∧
      component.controlType.name = controlType.name

theorem Sited.congr {registry : Registry} {surface : Surface} {elements elements' : List Element}
    (sited : Sited registry surface elements)
    (same : elements'.map Element.opening = elements.map Element.opening) :
    Sited registry surface elements' := by
  intro element' member controlType id resolved named
  have listed : element'.opening ∈ elements.map Element.opening := by
    rw [← same]
    exact List.mem_map_of_mem member
  obtain ⟨element, member', opening⟩ := List.mem_map.mp listed
  have tag : element.toTag = element'.toTag := congrArg Prod.fst opening
  exact sited element member' controlType id (by rw [tag]; exact resolved)
    (by rw [tag]; exact named)

end Surface

/-- When only the root and what is claimed is there, a name that is neither is free. -/
theorem Surface.site?_of_unclaimed {surface : Surface} {claimed : List Text} {id : Text}
    (within : ∀ name ∈ surface.container.names,
      surface.isRoot name = true ∨ name.lower ∈ claimed)
    (fresh : id.lower ∉ claimed) (notRoot : surface.isRoot id = false) :
    surface.container.site? id = none := by
  cases found : surface.container.site? id with
  | none => rfl
  | some site =>
      have alike := Container.sameName_of_site? found
      rcases within site.name (List.mem_map_of_mem (Container.mem_of_site? found)) with
        root | before
      · rw [Surface.isRoot_congr alike, notRoot] at root
        cases root
      · rw [Text.sameName_iff.mp alike] at before
        exact absurd before fresh

namespace ScanPass.Walk

variable {registry : Registry} {pass final : ScanPass} {elements : List Element}

/-- The first scan does nothing to tags whose components exist. -/
theorem surface_of_sited (walk : Walk registry .initial pass elements final)
    (sited : Surface.Sited registry pass.surface elements) : final.surface = pass.surface := by
  induction walk with
  | done => rfl
  | unknown _ _ _ ih =>
      exact ih fun element member => sited element (List.mem_cons_of_mem _ member)
  | @known pass after final element rest controlType id resolved usable settled _ ih =>
      have named := (usableId?_eq_some.mp usable).1
      obtain ⟨component, found, sameType⟩ :=
        sited element List.mem_cons_self controlType id resolved named
      have unchanged : after.surface = pass.surface := by
        cases settled with
        | created free =>
            unfold Container.get? at found
            rw [free] at found
            cases found
        | kept => rfl
        | applied _ _ later => cases later
        | replaced found' otherType =>
            unfold Container.get? at found
            rw [found'] at found
            obtain rfl := Option.some.inj found
            exact absurd sameType otherType
      rw [ih, unchanged]
      rw [unchanged]
      exact fun element member => sited element (List.mem_cons_of_mem _ member)

/-- The first scan sites the controls of the tags when only the root and what is claimed is there. -/
theorem surface_of_unsited (walk : Walk registry .initial pass elements final)
    (within : ∀ name ∈ pass.surface.container.names,
      pass.surface.isRoot name = true ∨ name.lower ∈ pass.claimed) :
    final.surface = pass.surface.populate registry elements := by
  induction walk with
  | done => rfl
  | @unknown pass final element rest resolved issues _ ih =>
      have skipped : pass.surface.siteTag registry element = pass.surface := by
        unfold Surface.siteTag
        rw [resolved]
      rw [ih within, Surface.populate, Surface.populate, List.foldl_cons, skipped]
  | @known pass after final element rest controlType id resolved usable settled _ ih =>
      obtain ⟨named, _, fresh, notRoot⟩ := usableId?_eq_some.mp usable
      have free := Surface.site?_of_unclaimed within fresh notRoot
      have placed : after.surface = pass.surface.siteTag registry element := by
        unfold Surface.siteTag
        rw [resolved, named]
        dsimp only
        cases settled with
        | created => rfl
        | kept found =>
            unfold Container.get? at found
            rw [free] at found
            cases found
        | applied _ _ later => cases later
        | replaced found =>
            rw [free] at found
            cases found
      have within' : ∀ name ∈ after.surface.container.names,
          after.surface.isRoot name = true ∨ name.lower ∈ after.claimed := by
        intro name member
        rw [placed] at member
        rw [settled.settles.isRoot_eq, settled.claimed_eq]
        unfold Surface.siteTag at member
        rw [resolved, named] at member
        dsimp only at member
        rw [Surface.names_place] at member
        rcases List.mem_append.mp member with before | here
        · rcases within name before with root | before
          · exact .inl root
          · exact .inr (List.mem_append_left _ before)
        · right
          rw [List.mem_singleton.mp here]
          simp
      rw [ih within', placed]
      rfl

/-- Behind a pass, the tags have their components. -/
theorem sited {mode : ScanMode} (walk : Walk registry mode pass elements final)
    (distinct : pass.surface.container.Distinct) :
    Surface.Sited registry final.surface elements := by
  intro element member controlType id resolved named
  obtain ⟨id', component, stands⟩ := walk.stands distinct member resolved
  have named' := stands.named
  rw [named] at named'
  obtain rfl := Option.some.inj named'
  exact ⟨component, stands.found, stands.sameType⟩

end ScanPass.Walk

namespace Document

open ScanPass (Claimable)

/-- Only the root is sited. -/
def Bare (surface : Surface) : Prop :=
  ∀ name ∈ surface.container.names, surface.isRoot name = true

/-- A first scan from the base has come as far as some tag: the tags up to there have their
components and lack no id. -/
structure Begun (base : Surface) (document : Document) : Prop where
  sound : document.Sound
  kept : ∃ kept rest, (Tree.parse document.text).controls = kept ++ rest ∧
    document.surface = base.populate document.registry kept ∧
    Claimable document.registry base [] kept ∧
    Surface.Sited document.registry document.surface kept

/-- A first scan from the base has come to its end: all tags have their components. -/
structure Scanned (base : Surface) (document : Document) : Prop where
  sound : document.Sound
  surface_eq : document.surface =
    base.populate document.registry (Tree.parse document.text).controls
  claimable : Claimable document.registry base [] (Tree.parse document.text).controls
  reconciled : Surface.Reconciled document.registry .initial (Tree.parse document.text).controls
    document.surface

theorem Begun.of_base {document : Document} (sound : document.Sound) :
    Begun document.surface document :=
  ⟨sound, [], _, rfl, rfl, .nil [], fun _ member => by cases member⟩

/-- A pass of a first scan that has come as far as the kept tags sites the controls of the tags
behind them. -/
theorem surface_of_walk {base : Surface} {document : Document} {report : ScanReport}
    {kept later : List Element} {pass : ScanPass} (bare : Bare base)
    (surface : document.surface = base.populate document.registry kept)
    (sited : Surface.Sited document.registry document.surface kept)
    (walk : Walk document.registry .initial (document.startOf report) (kept ++ later) pass) :
    pass.surface = base.populate document.registry (kept ++ later) := by
  obtain ⟨middle, first, second⟩ := walk.split
  have unchanged : middle.surface = document.surface := first.surface_of_sited sited
  rw [Surface.populate_append, ← surface, ← unchanged]
  refine second.surface_of_unsited ?_
  intro name member
  rw [unchanged, surface] at member
  rw [unchanged, surface]
  rw [Surface.names_populate] at member
  rcases List.mem_append.mp member with before | here
  · left
    unfold Surface.isRoot
    rw [Surface.root?_populate]
    exact bare name before
  · right
    rw [first.claimed_eq]
    exact List.mem_append_right _ (List.mem_map_of_mem here)

/-- A pass does not stop at a tag that has its component already. -/
theorem kept_of_walk {base : Surface} {document : Document} {report : ScanReport}
    {kept rest former latter : List Element} {element : Element} {controlType : ControlType}
    {pass : ScanPass} (root : base.root? = document.surface.root?)
    (claimable : Claimable document.registry base [] kept)
    (split : kept ++ rest = former ++ element :: latter)
    (walk : Walk document.registry .initial (document.startOf report) former pass)
    (resolved : document.registry.resolve? element.name = some controlType)
    (lacks : pass.usableId? element.toTag = none) : ∃ later, former = kept ++ later := by
  rcases List.append_eq_append_iff.mp split with ⟨later, same, _⟩ | ⟨further, same, behind⟩
  · exact ⟨later, same⟩
  · cases further with
    | nil => exact ⟨[], by rw [same]; simp⟩
    | cons head further =>
        obtain ⟨rfl, _⟩ := List.cons.inj behind
        rw [same] at claimable
        exact absurd lacks (Claimable.usable claimable root walk resolved)

section

variable {base : Surface} {document : Document} {report : ScanReport}
  {former latter : List Element} {element : Element} {controlType : ControlType} {pass : ScanPass}

/-- When a pass of a first scan stops, the controls of the tags in front are sited. -/
theorem Begun.surface_of_stopsAt (begun : Begun base document) (bare : Bare base)
    (stops : document.StopsAt .initial report former element latter controlType pass) :
    pass.surface = base.populate document.registry former := by
  obtain ⟨kept, rest, controls, surface, claimable, sited⟩ := begun.kept
  obtain ⟨split, walk, resolved, lacks⟩ := stops
  have root : base.root? = document.surface.root? := by rw [surface, Surface.root?_populate]
  rw [controls] at split
  obtain ⟨later, rfl⟩ := kept_of_walk root claimable split walk resolved lacks
  exact surface_of_walk bare surface sited walk

/-- A first scan goes on behind the edit of the tag at which a pass stops. -/
theorem Begun.edited (begun : Begun base document) (bare : Bare base)
    (stops : document.StopsAt .initial report former element latter controlType pass)
    {middle : Document} (sound : middle.Sound) (agrees : Agrees document middle)
    (same : middle.surface = pass.surface) (id : Text) :
    Begun base (middle.setAttribute element.toTag "id" id).2 := by
  have populated := begun.surface_of_stopsAt bare stops
  obtain ⟨_, _, _, surface, _, _⟩ := begun.kept
  obtain ⟨split, walk, _, _⟩ := stops
  have root : base.root? = document.surface.root? := by rw [surface, Surface.root?_populate]
  obtain ⟨surface', registry', _, _⟩ := setAttribute_frame middle element.toTag "id" id
  rw [← agrees.text_eq] at split
  obtain ⟨former', latter', controls', openings⟩ := controls_setAttribute split "id" id
  refine ⟨sound.setAttribute _ _ _, former', latter', controls', ?_, ?_, ?_⟩
  · rw [surface', registry', agrees.registry_eq, same, Surface.populate_congr openings]
    exact populated
  · rw [registry', agrees.registry_eq]
    exact walk.claimable.congr root openings
  · rw [surface', registry', agrees.registry_eq, same]
    exact (walk.sited begun.sound.distinct).congr openings

end

/-- One turn of a first scan. -/
theorem scanPasses_initial_cases {base : Surface} {document : Document} (bare : Bare base)
    (begun : Begun base document) (bound : Nat) (report : ScanReport) :
    (∃ (report' : ScanReport) (after : Document), Scanned base after ∧ Agrees document after ∧
        report'.passes = report.passes + 1 ∧ report'.ids = report.ids ∧
        scanPasses .initial (bound + 1) report document = .ok report' after) ∨
      ∃ former element latter controlType pass middle,
        document.StopsAt .initial { report with passes := report.passes + 1 } former element latter
          controlType pass ∧
        pass.surface = base.populate document.registry former ∧
        middle.surface = pass.surface ∧ Agrees document middle ∧
        Begun base (middle.setAttribute element.toTag "id" (document.newId pass controlType)).2 ∧
        scanPasses .initial (bound + 1) report document =
          scanPasses .initial bound
            { pass.report with ids := pass.report.ids ++ [document.newId pass controlType] }
            (middle.setAttribute element.toTag "id" (document.newId pass controlType)).2 := by
  obtain ⟨kept, rest, controls, surface, claimable, sited⟩ := begun.kept
  have root : base.root? = document.surface.root? := by rw [surface, Surface.root?_populate]
  obtain ⟨pass, after, sound, agrees, same, outcome⟩ :=
    scanPasses_cases begun.sound .initial bound report
  rcases outcome with ⟨walk, turn⟩ | ⟨former, element, latter, controlType, stops, turn⟩
  · left
    have populated : pass.surface =
        base.populate document.registry (Tree.parse document.text).controls := by
      rw [controls] at walk ⊢
      exact surface_of_walk bare surface sited walk
    rw [finishScan_initial] at turn
    refine ⟨{ pass.report with issues := pass.report.issues ++ pass.issues }, after,
      ⟨sound, ?_, ?_, ?_⟩, agrees, walk.continues.passes_eq, walk.continues.ids_eq, turn⟩
    · rw [agrees.text_eq, agrees.registry_eq, same]
      exact populated
    · rw [agrees.text_eq, agrees.registry_eq]
      exact walk.claimable.congr root rfl
    · rw [agrees.text_eq, agrees.registry_eq, same]
      refine walk.reconciled rfl begun.sound.distinct (same ▸ sound.distinct) rfl
        (fun _ _ _ => rfl) ?_
      intro site member notRoot
      have listed : site.name ∈ pass.surface.container.names := List.mem_map_of_mem member
      rw [populated, Surface.names_populate] at listed
      rcases List.mem_append.mp listed with before | claimed
      · have rooted := bare site.name before
        unfold Surface.isRoot at rooted notRoot
        rw [walk.root?_eq, startOf, ← root, rooted] at notRoot
        cases notRoot
      · rw [walk.claimed_eq]
        exact List.mem_append_right _ (List.mem_map_of_mem claimed)
  · right
    exact ⟨former, element, latter, controlType, pass, after, stops,
      begun.surface_of_stopsAt bare stops, same, agrees, begun.edited bare stops sound agrees same _,
      turn⟩

/-- A first scan that succeeds has sited the controls of all tags of the text it leaves. -/
theorem scanned_of_scanPasses {base : Surface} {bound : Nat} {report report' : ScanReport}
    {document after : Document} (bare : Bare base) (begun : Begun base document)
    (done : scanPasses .initial bound report document = .ok report' after) :
    Scanned base after ∧ after.registry = document.registry := by
  induction bound generalizing report document with
  | zero => cases done
  | succ bound ih =>
      rcases scanPasses_initial_cases bare begun bound report with
        ⟨_, _, scanned, agrees, _, _, turn⟩ |
          ⟨_, element, _, controlType, pass, middle, _, _, _, agrees, begun', turn⟩
      · rw [turn] at done
        injection done with _ same
        rw [← same]
        exact ⟨scanned, agrees.registry_eq⟩
      · rw [turn] at done
        obtain ⟨scanned, registry⟩ := ih begun' done
        obtain ⟨_, registry', _, _⟩ := setAttribute_frame middle element.toTag "id"
          (document.newId pass controlType)
        exact ⟨scanned, registry.trans (registry'.trans agrees.registry_eq)⟩

/-- A first scan of a text whose tags lack no id settles at once and writes nothing. -/
theorem scanPasses_of_claimable {document : Document} (sound : document.Sound)
    (bare : Bare document.surface)
    (claimable : Claimable document.registry document.surface [] (Tree.parse document.text).controls)
    (bound : Nat) (report : ScanReport) :
    ∃ (report' : ScanReport) (after : Document), Scanned document.surface after ∧
      Agrees document after ∧ report'.passes = report.passes + 1 ∧ report'.ids = report.ids ∧
      scanPasses .initial (bound + 1) report document = .ok report' after := by
  rcases scanPasses_initial_cases bare (.of_base sound) bound report with
    settled | ⟨former, element, latter, controlType, pass, _, stops, _⟩
  · exact settled
  · rw [stops.split] at claimable
    exact absurd stops.lacks (Claimable.usable claimable rfl stops.walk stops.resolved)

end Document

end PageDesigner
