import PageDesigner.Proofs.Document.Creation
import PageDesigner.Proofs.Document.Lacking

/-!
# How many passes a scan takes

Every pass of a first scan but the last writes an id into the first tag that lacks one.
When the tag takes the id, one tag fewer lacks an id in the next pass; when it does not,
the same number do (`scanPasses_turn`).  So a scan whose tags all take their ids settles
with one pass more than tags lack an id (`settles_of_takes`), and no other scan is as
fast (`passes_of_settled`).
-/

namespace PageDesigner

/-! ## Edited tags -/

namespace Profile

/-- Whether the profile is the one of a server control. -/
def isControl (profile : Profile) : Bool :=
  !profile.name.is "script" && (profile.name.isQualified || Entry.runsAtServer profile.entries)

/-- Whether a tag with the profile has an id that is written into it. -/
def takesId (profile : Profile) : Bool :=
  Entry.statesId profile.entries || Document.takesAttribute profile.opening

end Profile

namespace TagText.Revision

variable {tag revised : TagText} (revision : tag.Revision revised)

include revision

theorem name_eq : revised.name = tag.name := congrArg Name.ofText revision.written_eq

/-- A revised tag is a server control if the tag is. -/
theorem isControl_eq : revised.profile.isControl = tag.profile.isControl := by
  unfold Profile.isControl TagText.profile
  rw [revision.name_eq, revision.serves]

end TagText.Revision

namespace Document

open ScanPass (takenIds)

/-- Whether a tag has an id that is written into it: in place of the one it has, or as a new
attribute. -/
def takesId (document : Document) (tag : Tag) : Bool :=
  (tag.attribute? "id").isSome || takesAttribute (document.regionText tag.region)

theorem takesId_profile (document : Document) (tag : Tag) :
    (document.profile tag).takesId = document.takesId tag :=
  congrArg (· || _) tag.statesId_entries

theorem isControl_profile (document : Document) (tag : Tag) :
    (document.profile tag).isControl = tag.isServerControl :=
  congrArg (fun serves => !tag.name.is "script" && (tag.name.isQualified || serves))
    tag.runsAtServer_entries

/-- The profiles of the server controls among some tags. -/
theorem profiles_controls (document : Document) (openings : List Opening) :
    ((openings.filter fun opening => opening.1.isServerControl).map Prod.fst).map
        document.profile =
      (openings.map fun opening => document.profile opening.1).filter Profile.isControl := by
  rw [List.map_map, List.filter_map]
  refine congrArg (List.map _) (List.filter_congr fun opening _ => ?_)
  exact (isControl_profile document opening.1).symm

/-- A tag that gets a numbered id: the tags in front stay, and those behind say what they said.  It
repeats no name if it repeated none. -/
theorem exists_edited {document : Document} {former latter : List Element} {element : Element}
    (split : (Tree.parse document.text).controls = former ++ element :: latter) {id : Text}
    (numbered : Naming.Numbered id) :
    ∃ (edited : Tag) (behind : List Tag),
      (Tree.parse (document.setAttribute element.toTag "id" id).2.text).controls.map (·.toTag) =
        former.map (·.toTag) ++ edited :: behind ∧
      edited.name = element.name ∧
      edited.id? = (if document.takesId element.toTag then some id else none) ∧
      behind.map (document.setAttribute element.toTag "id" id).2.profile =
        (latter.map (·.toTag)).map document.profile ∧
      ((document.profile element.toTag).Unrepeated →
        ((document.setAttribute element.toTag "id" id).2.profile edited).Unrepeated) := by
  obtain ⟨front, tag, events, shape, begins, brings, same, remaining⟩ := exists_control split
  have toTag : element.toTag = tag.tagOf (Location.start.advance front) := congrArg Prod.fst same
  obtain ⟨revised, text, revision, id', unrepeated⟩ := exists_revision shape numbered
  rw [← toTag] at text
  have profile := profile_tagOf shape
  rw [← toTag] at profile
  have tags : ∀ elements : List Element, (elements.map Element.opening).map Prod.fst =
      elements.map (·.toTag) := fun elements => List.map_map
  -- The edited tag is a server control as the tag was.
  have control : (revised.tagOf (Location.start.advance front)).isServerControl = true := by
    have before := Tree.isServerControl_of_controls split
    rw [← isControl_profile document, profile] at before
    rw [← isControl_profile (document.setAttribute element.toTag "id" id).2,
      profile_tagOf text, revision.isControl_eq]
    exact before
  refine ⟨revised.tagOf (Location.start.advance front),
    (((Event.eventsFrom (Location.start.advance (front ++ ['<']))
      (Event.openingTag (Location.start.advance front) revised.text).2
      revised.text).flatMap Event.openings).filter fun opening =>
        opening.1.isServerControl).map Prod.fst, ?_, ?_, ?_, ?_, ?_⟩
  · rw [← tags, Tree.openings_controls, text, Tree.controlOpenings, Tree.openings_settled begins.settled,
      List.filter_append, brings, List.map_append, tags, List.filter_cons, control]
    rfl
  · have written := congrArg Tag.name toTag
    exact revision.name_eq.trans written.symm
  · rw [← Tag.id?_entries, TagText.entries_tagOf, id', ← takesId_profile, profile]
    rfl
  · rw [profiles_controls, TagText.openings_later text, revision.later_eq,
      ← TagText.openings_later shape, ← profiles_controls, remaining, tags]
  · rw [profile, profile_tagOf text]
    exact unrepeated

/-! ## One turn -/

/-- The root is sited under its name. -/
def Rooted (surface : Surface) : Prop :=
  ∀ root, surface.root? = some root → root ∈ surface.container.names

/-- The tags of a document that lack a usable id in its first scan. -/
def lacking (base : Surface) (document : Document) : List Tag :=
  ScanPass.lackingFrom document.registry base []
    ((Tree.parse document.text).controls.map (·.toTag))

/-- A new id differs from every name and every id up to letter case. -/
theorem newId_free (document : Document) (pass : ScanPass) (controlType : ControlType)
    {name : Text}
    (taken : name ∈ pass.surface.container.names ++ takenIds (Tree.parse document.text)) :
    name.lower ≠ (document.newId pass controlType).lower := by
  intro same
  have listed := List.mem_map_of_mem (f := Text.lower) taken
  rw [same] at listed
  have free := Naming.unused_free controlType.name
    (pass.surface.container.names ++ takenIds (Tree.parse document.text))
  have found := Naming.isTaken_iff.mpr listed
  unfold newId at found
  rw [found] at free
  cases free

theorem mem_takenIds {document : Document} {element : Element}
    (member : element ∈ (Tree.parse document.text).controls) {id : Text}
    (named : element.id? = some id) (names : List Text) :
    id ∈ names ++ takenIds (Tree.parse document.text) :=
  List.mem_append_right names
    (List.mem_filterMap.mpr ⟨element, (List.mem_filter.mp member).1, named⟩)

section

variable {base : Surface} {document : Document} {report : ScanReport}
  {former latter : List Element} {element : Element} {controlType : ControlType} {pass : ScanPass}

/-- The tag at which a pass stops is the first one that lacks an id. -/
theorem lacking_of_stopsAt
    (stops : document.StopsAt .initial report former element latter controlType pass)
    (root : base.root? = document.surface.root?) :
    element.toTag.id?.any (ScanPass.canName base pass.claimed) = false ∧
      lacking base document = element.toTag ::
        ScanPass.lackingFrom document.registry base
          (pass.claimed ++ element.toTag.id?.toList.map Text.lower) (latter.map (·.toTag)) := by
  obtain ⟨split, walk, resolved, lacks⟩ := stops
  have start : base.root? = (document.startOf report).surface.root? := root
  have unusable : element.toTag.id?.any (ScanPass.canName base pass.claimed) = false := by
    have none' := ScanPass.usableId?_isNone (start.trans walk.root?_eq.symm) element.toTag
    rw [lacks] at none'
    exact (Bool.not_eq_true' _).mp none'.symm
  refine ⟨unusable, ?_⟩
  unfold lacking
  rw [split, List.map_append, List.map_cons]
  refine (walk.lackingFrom_eq start _).trans ?_
  rw [ScanPass.lackingFrom_known resolved, unusable]
  rfl

/-- A new id can name a component when a pass stops. -/
theorem canName_newId
    (stops : document.StopsAt .initial report former element latter controlType pass)
    (rooted : Rooted base) (populated : pass.surface = base.populate document.registry former)
    (valid : Naming.isValid controlType.name = true) :
    ScanPass.canName base pass.claimed (document.newId pass controlType) = true := by
  have notRoot : base.isRoot (document.newId pass controlType) = false := by
    unfold Surface.isRoot
    cases root : base.root? with
    | none => rfl
    | some name =>
        rw [Bool.eq_false_iff]
        intro same
        refine newId_free document pass controlType (List.mem_append_left _ ?_)
          (Text.sameName_iff.mp same)
        rw [populated, Surface.names_populate]
        exact List.mem_append_left _ (rooted name root)
  have unclaimed : pass.claimed.contains (document.newId pass controlType).lower = false := by
    rw [Bool.eq_false_iff]
    intro claimed
    rw [List.contains_iff_mem, stops.walk.claimed_eq, startOf, List.nil_append] at claimed
    obtain ⟨id, member, same⟩ := List.mem_map.mp claimed
    obtain ⟨other, member', named⟩ := List.mem_filterMap.mp member
    obtain ⟨_, _, named'⟩ := Option.bind_eq_some_iff.mp named
    refine newId_free document pass controlType (mem_takenIds ?_ named' _) same
    rw [stops.split]
    exact List.mem_append_left _ member'
  have identifier : Naming.isValid (document.newId pass controlType) = true :=
    Naming.isValid_unused valid _
  unfold ScanPass.canName
  rw [identifier, notRoot, unclaimed]
  rfl

/-- The tag at which a pass has stopped gets a new id: the tags in front stay, and those behind say
what they said.  It repeats no name if it repeated none. -/
theorem StopsAt.exists_edited {mode : ScanMode} {middle : Document}
    (stops : document.StopsAt mode report former element latter controlType pass)
    (valid : Naming.isValid controlType.name = true) (agrees : Agrees document middle) :
    let document' := (middle.setAttribute element.toTag "id" (document.newId pass controlType)).2
    document'.registry = document.registry ∧
    ∃ (edited : Tag) (behind : List Tag),
      (Tree.parse document'.text).controls.map (·.toTag) =
        former.map (·.toTag) ++ edited :: behind ∧
      edited.name = element.name ∧
      edited.id? =
        (if document.takesId element.toTag then some (document.newId pass controlType) else none) ∧
      behind.map document'.profile = (latter.map (·.toTag)).map document.profile ∧
      ((document.profile element.toTag).Unrepeated → (document'.profile edited).Unrepeated) := by
  have split := stops.split
  rw [← agrees.text_eq] at split
  have numbered : Naming.Numbered (document.newId pass controlType) :=
    Naming.numbered_unused valid _
  have same : middle.profile = document.profile := profile_congr agrees.text_eq
  obtain ⟨edited, behind, tags, name, id, profiles, unrepeated⟩ :=
    Document.exists_edited split numbered
  rw [← takesId_profile, same, takesId_profile] at id
  rw [same] at profiles unrepeated
  obtain ⟨_, registry, _, _⟩ := setAttribute_frame middle element.toTag "id"
    (document.newId pass controlType)
  exact ⟨registry.trans agrees.registry_eq, edited, behind, tags, name, id, profiles, unrepeated⟩

/-- Which tags lack an id when the one at which a pass has stopped gets one: the others do as
before, and that tag does unless it takes the id. -/
theorem lacking_edited {middle : Document}
    (stops : document.StopsAt .initial report former element latter controlType pass)
    (root : base.root? = document.surface.root?) (rooted : Rooted base)
    (populated : pass.surface = base.populate document.registry former)
    (valid : Naming.isValid controlType.name = true) (agrees : Agrees document middle) :
    let document' := (middle.setAttribute element.toTag "id" (document.newId pass controlType)).2
    ∃ (edited : Tag) (rest : List Tag), lacking base document = element.toTag :: rest ∧
      (lacking base document').map document'.profile =
        (if document.takesId element.toTag then [] else [document'.profile edited]) ++
          rest.map document.profile := by
  obtain ⟨lacks, here⟩ := lacking_of_stopsAt stops root
  have can := canName_newId stops rooted populated valid
  obtain ⟨registry, edited, behind, tags, name, id, profiles, _⟩ :=
    stops.exists_edited valid agrees
  obtain ⟨split, walk, resolved, _⟩ := stops
  have fresh : ∀ tag ∈ latter.map (·.toTag), ∀ id, tag.id? = some id →
      id.lower ≠ (document.newId pass controlType).lower := by
    intro tag member id named
    obtain ⟨other, member', rfl⟩ := List.mem_map.mp member
    refine newId_free document pass controlType (mem_takenIds ?_ named _)
    rw [split]
    exact List.mem_append_right _ (List.mem_cons_of_mem _ member')
  have resolved' : document.registry.resolve? edited.name = some controlType := by
    rw [name]
    exact resolved
  have missing : document.takesId element.toTag = false → element.toTag.id? = none := by
    intro refuses
    rw [← Tag.id?_entries]
    refine Entry.id?_of_unstated ?_
    rw [Tag.statesId_entries]
    exact (Bool.or_eq_false_iff.mp refuses).1
  have there : lacking base (middle.setAttribute element.toTag "id"
      (document.newId pass controlType)).2 =
      ScanPass.lackingFrom document.registry base pass.claimed (edited :: behind) := by
    unfold lacking
    rw [registry]
    refine (congrArg (ScanPass.lackingFrom document.registry base []) tags).trans ?_
    exact walk.lackingFrom_eq root _
  refine ⟨edited, _, here, ?_⟩
  rw [there]
  exact ScanPass.lackingFrom_edited resolved' lacks can fresh id missing profiles

end

/-- One turn of a first scan: it settles when no tag lacks an id, and otherwise goes on.  The
first tag that lacked an id has one then if it takes it, and the others stay as they are. -/
theorem scanPasses_turn {base : Surface} {document : Document} (bare : Bare base)
    (rooted : Rooted base) (begun : Begun base document)
    (valid : ∀ controlType ∈ document.registry.all, Naming.isValid controlType.name = true)
    (bound : Nat) (report : ScanReport) :
    (lacking base document = [] ∧ ∃ (report' : ScanReport) (after : Document),
        report'.passes = report.passes + 1 ∧
        scanPasses .initial (bound + 1) report document = .ok report' after) ∨
      ∃ (tag edited : Tag) (rest : List Tag) (report' : ScanReport) (document' : Document),
        lacking base document = tag :: rest ∧
        (lacking base document').map document'.profile =
          (if document.takesId tag then [] else [document'.profile edited]) ++
            rest.map document.profile ∧
        Begun base document' ∧ document'.registry = document.registry ∧
        report'.passes = report.passes + 1 ∧
        scanPasses .initial (bound + 1) report document =
          scanPasses .initial bound report' document' := by
  rcases scanPasses_initial_cases bare begun bound report with
    ⟨report', after, scanned, agrees, passes, _, turn⟩ |
      ⟨former, element, latter, controlType, pass, middle, stops, populated, _, agrees, begun',
        turn⟩
  · left
    have none' : lacking base after = [] := scanned.claimable.lackingFrom_eq
    unfold lacking at none'
    rw [agrees.text_eq, agrees.registry_eq] at none'
    exact ⟨none', report', after, passes, turn⟩
  · right
    have root : base.root? = document.surface.root? := by
      obtain ⟨kept, _, _, surface, _⟩ := begun.kept
      rw [surface, Surface.root?_populate]
    obtain ⟨edited, rest, here, there⟩ := lacking_edited stops root rooted populated
      (valid controlType (Registry.mem_all_of_resolve? stops.resolved)) agrees
    obtain ⟨_, registry, _, _⟩ := setAttribute_frame middle element.toTag "id"
      (document.newId pass controlType)
    exact ⟨element.toTag, edited, rest,
      { pass.report with ids := pass.report.ids ++ [document.newId pass controlType] }, _, here,
      there, begun', registry.trans agrees.registry_eq, stops.walk.continues.passes_eq, turn⟩

/-! ## All turns -/

variable {base : Surface} {document : Document}

/-- Whether all tags take their ids is seen from their profiles. -/
theorem all_takesId {document : Document} {tags : List Tag} :
    (∀ tag ∈ tags, document.takesId tag = true) ↔
      ∀ profile ∈ tags.map document.profile, profile.takesId = true := by
  rw [List.forall_mem_map]
  exact forall₂_congr fun tag _ => by rw [takesId_profile]

/-- A scan whose tags all take their ids needs one pass more than tags lack an id. -/
theorem settles_of_takes (bare : Bare base) (rooted : Rooted base) (begun : Begun base document)
    (valid : ∀ controlType ∈ document.registry.all, Naming.isValid controlType.name = true)
    (takes : ∀ tag ∈ lacking base document, document.takesId tag = true) {bound : Nat}
    (fits : (lacking base document).length < bound) (report : ScanReport) :
    ∃ (report' : ScanReport) (after : Document),
      scanPasses .initial bound report document = .ok report' after ∧
        report'.passes = report.passes + (lacking base document).length + 1 := by
  induction bound generalizing document report with
  | zero => exact absurd fits (Nat.not_lt_zero _)
  | succ bound ih =>
      rcases scanPasses_turn bare rooted begun valid bound report with
        ⟨none', report', after, passes, turn⟩ |
          ⟨tag, edited, rest, report', document', lacks, profiles, begun', registry, passes, turn⟩
      · rw [none']
        exact ⟨report', after, turn, passes⟩
      · rw [lacks] at takes fits
        rw [takes tag List.mem_cons_self, if_pos rfl, List.nil_append] at profiles
        have length : (lacking base document').length = rest.length := by
          have lengths := congrArg List.length profiles
          rw [List.length_map, List.length_map] at lengths
          exact lengths
        have takes' : ∀ tag ∈ lacking base document', document'.takesId tag = true := by
          rw [all_takesId, profiles, ← all_takesId]
          exact fun tag member => takes tag (List.mem_cons_of_mem _ member)
        obtain ⟨report'', after, done, passes'⟩ := ih begun' (by rw [registry]; exact valid) takes'
          (by rw [length]; exact Nat.lt_of_succ_lt_succ fits) report'
        refine ⟨report'', after, turn.trans done, ?_⟩
        rw [passes', passes, length, lacks, List.length_cons]
        omega

/-- No scan settles with fewer passes. -/
theorem passes_of_settled (bare : Bare base) (rooted : Rooted base) (begun : Begun base document)
    (valid : ∀ controlType ∈ document.registry.all, Naming.isValid controlType.name = true)
    {bound : Nat} {report report' : ScanReport} {after : Document}
    (done : scanPasses .initial bound report document = .ok report' after) :
    report.passes + (lacking base document).length + 1 ≤ report'.passes := by
  induction bound generalizing document report with
  | zero => cases done
  | succ bound ih =>
      rcases scanPasses_turn bare rooted begun valid bound report with
        ⟨none', report'', after', passes, turn⟩ |
          ⟨tag, edited, rest, report'', document', lacks, profiles, begun', registry, passes, turn⟩
      · rw [turn] at done
        injection done with sameReport _
        rw [none', ← sameReport, passes]
        exact Nat.le_refl _
      · rw [turn] at done
        have later := ih begun' (by rw [registry]; exact valid) done
        have lengths := congrArg List.length profiles
        rw [List.length_map, List.length_append, List.length_map] at lengths
        rw [passes] at later
        rw [lacks, List.length_cons]
        omega

/-- A tag that does not take its id costs a pass at least. -/
theorem passes_of_refused (bare : Bare base) (rooted : Rooted base) (begun : Begun base document)
    (valid : ∀ controlType ∈ document.registry.all, Naming.isValid controlType.name = true)
    {bound : Nat} {report report' : ScanReport} {after : Document}
    (refuses : ¬ ∀ tag ∈ lacking base document, document.takesId tag = true)
    (done : scanPasses .initial bound report document = .ok report' after) :
    report.passes + (lacking base document).length + 1 < report'.passes := by
  induction bound generalizing document report with
  | zero => cases done
  | succ bound ih =>
      rcases scanPasses_turn bare rooted begun valid bound report with
        ⟨none', _, _, _, _⟩ |
          ⟨tag, edited, rest, report'', document', lacks, profiles, begun', registry, passes, turn⟩
      · rw [none'] at refuses
        exact absurd (fun _ member => by cases member) refuses
      · rw [turn] at done
        have lengths := congrArg List.length profiles
        rw [List.length_map, List.length_append, List.length_map] at lengths
        rw [lacks, List.length_cons]
        cases here : document.takesId tag with
        | true =>
            -- One of the other tags refuses its id.
            rw [here, if_pos rfl, List.nil_append] at profiles
            rw [here, if_pos rfl, List.length_nil] at lengths
            have refuses' : ¬ ∀ tag ∈ lacking base document', document'.takesId tag = true := by
              rw [all_takesId, profiles, ← all_takesId]
              intro all
              rw [lacks] at refuses
              exact refuses (List.forall_mem_cons.mpr ⟨here, all⟩)
            have later := ih begun' (by rw [registry]; exact valid) refuses' done
            rw [passes] at later
            omega
        | false =>
            -- As many tags as before lack an id, and one pass is gone.
            rw [here, if_neg Bool.false_ne_true, List.length_singleton] at lengths
            have later := passes_of_settled bare rooted begun' (by rw [registry]; exact valid) done
            rw [passes] at later
            omega

/-- The first scan settles with one pass more than tags lack an id just when these tags all take
their ids. -/
theorem createControls_settles_iff (sound : document.Sound) (bare : Bare document.surface)
    (rooted : Rooted document.surface)
    (valid : ∀ controlType ∈ document.registry.all, Naming.isValid controlType.name = true)
    (allowed : (lacking document.surface document).length < document.options.maxScanPasses) :
    (∃ (report : ScanReport) (after : Document), createControls document = .ok report after ∧
        report.passes ≤ (lacking document.surface document).length + 1) ↔
      ∀ tag ∈ lacking document.surface document, document.takesId tag = true := by
  obtain ⟨report, start, sound', agrees, surface, passes, _, runs⟩ := createControls_eq sound
  have begun : Begun document.surface start := by
    rw [← surface]
    exact .of_base sound'
  have valid' : ∀ controlType ∈ start.registry.all, Naming.isValid controlType.name = true := by
    rw [agrees.registry_eq]
    exact valid
  have same : lacking document.surface start = lacking document.surface document := by
    unfold lacking
    rw [agrees.registry_eq, agrees.text_eq]
  have takes : start.takesId = document.takesId := by
    funext tag
    rw [← takesId_profile, ← takesId_profile, profile_congr agrees.text_eq]
  rw [← same] at allowed ⊢
  rw [← takes]
  constructor
  · rintro ⟨report', after, created, few⟩
    rw [runs] at created
    cases ran : scanPasses .initial document.options.maxScanPasses report start with
    | error failure after' => rw [ran] at created; cases created
    | ok report'' after' =>
        rw [ran] at created
        injection created with sameReport _
        subst sameReport
        by_contra refuses
        have many := passes_of_refused bare rooted begun valid' refuses ran
        omega
  · intro all
    obtain ⟨report', after, done, passes'⟩ :=
      settles_of_takes bare rooted begun valid' all allowed report
    rw [done] at runs
    refine ⟨report', _, runs, ?_⟩
    omega

end Document

end PageDesigner
