import PageDesigner.Proofs.Document.Turns
import PageDesigner.Proofs.Markup.Boundary

/-!
# The ids that a scan chooses

`Document.choices` records each id at the moment at which a pass chooses it, with the text and
the components of that moment.  The ids that a first scan reports are these, each is the first
free one of its moment (`Choice.Free`), and the passes are the turns in which the tags of the
text get their ids (`Document.turns_of_createControls`).  So each id is in the end that of one
element (`Document.hasOnce_of_sole`), and the other tags are kept (`Document.exists_kept`).
-/

namespace PageDesigner

open ScanPass (Walk takenIds)

/-! ## What the tags of a document say -/

namespace ScanPass

variable {registry : Registry} {surface : Surface}

/-- The ids that count for the tags behind some tags. -/
def claimedBy (registry : Registry) (tags : List Tag) : List Text :=
  tags.filterMap fun tag => (registry.resolve? tag.name).bind fun _ => tag.id?

theorem claimedBy_toTag (registry : Registry) (elements : List Element) :
    claimedBy registry (elements.map (·.toTag)) = claims registry elements :=
  List.filterMap_map

theorem lackingFrom_append (earlier : List Text) (first second : List Tag) :
    lackingFrom registry surface earlier (first ++ second) =
      lackingFrom registry surface earlier first ++
        lackingFrom registry surface (earlier ++ (claimedBy registry first).map Text.lower)
          second := by
  induction first generalizing earlier with
  | nil => simp [claimedBy, lackingFrom]
  | cons tag rest ih =>
      have claimed : claimedBy registry (tag :: rest) =
          ((registry.resolve? tag.name).bind fun _ => tag.id?).toList ++
            claimedBy registry rest := by
        unfold claimedBy
        rw [List.filterMap_cons]
        cases (registry.resolve? tag.name).bind fun _ => tag.id? <;> rfl
      rw [List.cons_append, claimed]
      cases resolved : registry.resolve? tag.name with
      | none =>
          rw [lackingFrom_unknown resolved, lackingFrom_unknown resolved, ih]
          rfl
      | some controlType =>
          rw [lackingFrom_known resolved, lackingFrom_known resolved, ih, Option.bind_some,
            List.map_append]
          simp only [List.append_assoc]

end ScanPass

/-- The tags of the server controls. -/
theorem Tree.tags_controls (tree : Tree) :
    (tree.elements.map (·.toTag)).filter (·.isServerControl) = tree.controls.map (·.toTag) := by
  rw [List.filter_map]
  rfl

namespace Document

variable {base : Surface} {document : Document} {registry : Registry}

/-- What the tags of the text say, in document order. -/
def profiles (document : Document) : List Profile :=
  ((Tree.parse document.text).elements.map (·.toTag)).map document.profile

/-- What is said of a part of the tags is said by a part of the elements. -/
theorem elements_of_profiles {front rest : List Profile} {profile : Profile}
    (split : document.profiles = front ++ profile :: rest) :
    ∃ former element latter,
      (Tree.parse document.text).elements = former ++ element :: latter ∧
      front = (former.map (·.toTag)).map document.profile ∧
      profile = document.profile element.toTag ∧
      rest = (latter.map (·.toTag)).map document.profile := by
  unfold profiles at split
  rw [List.map_map] at split
  obtain ⟨former, behind, elements, rfl, split'⟩ := List.map_eq_append_iff.mp split
  obtain ⟨element, latter, rfl, rfl, rfl⟩ := List.map_eq_cons_iff.mp split'
  exact ⟨former, element, latter, elements, List.map_map.symm, rfl, List.map_map.symm⟩

theorem profiles_of_elements {former latter : List Element} {element : Element}
    (split : (Tree.parse document.text).elements = former ++ element :: latter) :
    document.profiles = (former.map (·.toTag)).map document.profile ++
      document.profile element.toTag :: (latter.map (·.toTag)).map document.profile := by
  unfold profiles
  rw [split, List.map_append, List.map_append]
  rfl

theorem profiles_eq_openings (document : Document) :
    document.profiles =
      (Tree.parse document.text).openings.map fun opening => document.profile opening.1 := by
  unfold profiles Tree.openings
  rw [List.map_map, List.map_map]
  rfl

theorem profiles_congr {document' : Document} (same : document'.text = document.text) :
    document'.profiles = document.profiles := by
  unfold profiles
  rw [same, profile_congr same]

theorem id?_profile (document : Document) (tag : Tag) : (document.profile tag).id? = tag.id? :=
  tag.id?_entries

theorem ids_profiles (document : Document) :
    document.profiles.filterMap Profile.id? = takenIds (Tree.parse document.text) := by
  unfold profiles takenIds
  rw [List.filterMap_map, List.filterMap_map]
  exact List.filterMap_congr fun element _ => document.id?_profile element.toTag

theorem controlType?_profile (document : Document) (tag : Tag) :
    (document.profile tag).controlType? registry =
      if tag.isServerControl then registry.resolve? tag.name else none := by
  unfold Profile.controlType?
  rw [isControl_profile]
  rfl

theorem claims_profiles (document : Document) (tags : List Tag) :
    Profile.claims registry (tags.map document.profile) =
      ScanPass.claimedBy registry (tags.filter (·.isServerControl)) := by
  unfold Profile.claims ScanPass.claimedBy
  rw [List.filterMap_map, List.filterMap_filter]
  refine List.filterMap_congr fun tag _ => ?_
  rw [Function.comp_apply, controlType?_profile, id?_profile]
  split <;> rfl

/-- A tag that lacks a usable id by what it says and what those in front say is one of the tags
that lack one. -/
theorem mem_lacking_of_lacks {former : List Tag} {tag : Tag}
    (lacks : Profile.lacks registry base (former.map document.profile) (document.profile tag) =
      true) (latter : List Tag) :
    tag ∈ ScanPass.lackingFrom registry base []
      ((former ++ tag :: latter).filter (·.isServerControl)) := by
  unfold Profile.lacks at lacks
  obtain ⟨known, unusable⟩ := Bool.and_eq_true_iff.mp lacks
  rw [controlType?_profile] at known
  rw [claims_profiles, id?_profile] at unusable
  cases control : tag.isServerControl with
  | false =>
      rw [control] at known
      cases known
  | true =>
      rw [control, if_pos rfl] at known
      obtain ⟨controlType, resolved⟩ := Option.isSome_iff_exists.mp known
      rw [List.filter_append, List.filter_cons, control, if_pos rfl, ScanPass.lackingFrom_append,
        ScanPass.lackingFrom_known resolved, List.nil_append, (Bool.not_eq_true' _).mp unusable]
      simp

/-- When no tag lacks an id, all are usable. -/
theorem usable_of_lacking {tags : List Tag}
    (none' : ScanPass.lackingFrom registry base [] (tags.filter (·.isServerControl)) = []) :
    Profile.Usable registry base (tags.map document.profile) := by
  intro front profile rest split
  obtain ⟨former, behind, rfl, rfl, split'⟩ := List.map_eq_append_iff.mp split
  obtain ⟨tag, latter, rfl, rfl, _⟩ := List.map_eq_cons_iff.mp split'
  rw [Bool.eq_false_iff]
  intro lacks
  have member := mem_lacking_of_lacks lacks latter
  rw [none'] at member
  cases member

/-- A tag that lacks no id has a usable one by what the tags say. -/
theorem lacks_of_not_mem {former latter : List Element} {element : Element}
    (split : (Tree.parse document.text).elements = former ++ element :: latter)
    (usable : element.toTag ∉ lacking base document) :
    Profile.lacks document.registry base ((former.map (·.toTag)).map document.profile)
      (document.profile element.toTag) = false := by
  rw [Bool.eq_false_iff]
  intro lacks
  refine usable ?_
  unfold lacking
  rw [← Tree.tags_controls, split, List.map_append, List.map_cons]
  exact mem_lacking_of_lacks lacks _

/-- When no tag lacks an id, all are usable by what the tags say. -/
theorem usable_profiles (none' : lacking base document = []) :
    Profile.Usable document.registry base document.profiles := by
  unfold lacking at none'
  rw [← Tree.tags_controls] at none'
  exact usable_of_lacking none'

/-- The tags of a beginning of whole constructs say the same whatever stands behind it. -/
theorem profile_of_begins {document' : Document} {front rest rest' : Text} {events : List Event}
    (begins : Event.Begins .start front events) (shape : document.text = front ++ rest)
    (shape' : document'.text = front ++ rest') {tag : Tag}
    (member : tag ∈ (events.flatMap Event.openings).map Prod.fst) :
    document'.profile tag = document.profile tag := by
  obtain ⟨opening, listed, rfl⟩ := List.mem_map.mp member
  obtain ⟨event, inside, brings⟩ := List.mem_flatMap.mp listed
  obtain ⟨mark, marked, region⟩ := Event.exists_mark_of_opening brings
  obtain ⟨before, part, behind, rfl, here⟩ :=
    begins.laidOut.exists_part (List.mem_flatMap.mpr ⟨event, inside, marked⟩)
  have reads : ∀ {other : Document} {rest : Text},
      other.text = before ++ (part ++ behind) ++ rest → other.regionText opening.1.region = part := by
    intro other rest shape
    have split : other.buffer.history.text = before ++ part ++ (behind ++ rest) :=
      shape.trans (by simp)
    unfold regionText
    rw [← region, here.region_eq, ← Location.advance_append]
    exact History.between_advance split
  unfold profile
  rw [reads shape, reads shape']

/-- What the tags of a text with a tag behind a beginning say. -/
theorem profiles_of_begins {front : Text} {tag : TagText} {events : List Event}
    (begins : Event.Begins .start front events)
    (shape : document.text = front ++ '<' :: tag.text) :
    document.profiles =
      ((events.flatMap Event.openings).map Prod.fst).map document.profile ++
        tag.profile :: tag.later := by
  have openings := Tree.openings_settled begins.settled tag
  rw [← shape] at openings
  rw [profiles_eq_openings, openings, List.map_append, List.map_cons, profile_tagOf shape,
    TagText.openings_later shape, List.map_map]
  rfl

end Document

/-! ## Turns -/

/-- A revised tag stands for the same control type. -/
theorem TagText.Revision.controlType?_eq {tag revised : TagText} (revision : tag.Revision revised)
    (registry : Registry) :
    revised.profile.controlType? registry = tag.profile.controlType? registry := by
  unfold Profile.controlType?
  rw [revision.isControl_eq]
  exact if_congr Iff.rfl (congrArg registry.resolve? revision.name_eq) rfl

namespace Document

variable {base : Surface} {document : Document} {report : ScanReport}
  {former latter : List Element} {element : Element} {controlType : ControlType} {pass : ScanPass}

/-- The tag at which a pass stops stands for a control type. -/
theorem StopsAt.controlType?_eq {mode : ScanMode}
    (stops : document.StopsAt mode report former element latter controlType pass) :
    (document.profile element.toTag).controlType? document.registry = some controlType := by
  rw [controlType?_profile, Tree.isServerControl_of_controls stops.split, if_pos rfl]
  exact stops.resolved

/-- A pass has claimed the ids of the tags in front. -/
theorem StopsAt.claims_eq {mode : ScanMode}
    (stops : document.StopsAt mode report former element latter controlType pass)
    {tags : List Tag} (walked : tags.filter (·.isServerControl) = former.map (·.toTag)) :
    Profile.claims document.registry (tags.map document.profile) =
        ScanPass.claims document.registry former ∧
      pass.claimed = (Profile.claims document.registry (tags.map document.profile)).map
        Text.lower := by
  have same : Profile.claims document.registry (tags.map document.profile) =
      ScanPass.claims document.registry former := by
    rw [claims_profiles, walked, ScanPass.claimedBy_toTag]
  refine ⟨same, ?_⟩
  rw [stops.walk.claimed_eq, startOf, List.nil_append, same]

/-- A pass of a first scan that stops gives one turn: the tag at which it stops gets the id that it
has chosen. -/
theorem StopsAt.turn {middle : Document}
    (stops : document.StopsAt .initial report former element latter controlType pass)
    (root : base.root? = document.surface.root?) (rooted : Rooted base)
    (populated : pass.surface = base.populate document.registry former)
    (valid : Naming.isValid controlType.name = true) (agrees : Agrees document middle) :
    ∃ front tag edited behind, document.profiles = front ++ tag :: behind ∧
      (middle.setAttribute element.toTag "id" (document.newId pass controlType)).2.profiles =
        front ++ edited :: behind ∧
      Profile.Turn document.registry base front tag edited behind
        (document.newId pass controlType) := by
  have numbered : Naming.Numbered (document.newId pass controlType) :=
    Naming.numbered_unused valid _
  obtain ⟨source, tag, events, shape, begins, brings, same, _⟩ := exists_control stops.split
  have toTag : element.toTag = tag.tagOf (Location.start.advance source) := congrArg Prod.fst same
  obtain ⟨revised, text, revision, id', _⟩ :=
    exists_revision (agrees.text_eq.trans shape) numbered
  rw [← toTag] at text
  have profile : document.profile element.toTag = tag.profile := by
    rw [toTag]
    exact profile_tagOf shape
  -- The controls among the tags in front are those that the pass has walked over.
  have walked : ((events.flatMap Event.openings).map Prod.fst).filter (·.isServerControl) =
      former.map (·.toTag) := by
    rw [List.filter_map]
    exact (congrArg (List.map Prod.fst) brings).trans List.map_map
  obtain ⟨claims, claimed⟩ := stops.claims_eq walked
  have type := stops.controlType?_eq
  have profiles := profiles_of_begins begins shape
  refine ⟨_, tag.profile, revised.profile, tag.later, profiles, ?_, ?_⟩
  · rw [profiles_of_begins begins text, revision.later_eq]
    exact congrArg (· ++ _) (List.map_congr_left fun tag member =>
      profile_of_begins begins shape text member)
  rw [profile] at type
  refine ⟨usable_of_lacking ?_, ?_, ⟨controlType, type, ?_⟩, ?_, revision.controlType?_eq _, ?_⟩
  · rw [walked]
    exact stops.walk.lackingFrom_nil root
  · unfold Profile.lacks
    rw [type, ← profile, id?_profile, ← claimed, (lacking_of_stopsAt stops root).1]
    rfl
  · rw [claims, ← profiles, ids_profiles, newId, populated, Surface.names_populate]
  · rw [← claimed]
    exact canName_newId stops rooted populated valid
  · unfold Profile.id? TagText.profile
    rw [id']
    cases takes : Entry.statesId tag.entries || takesAttribute tag.opening with
    | true => exact .inl rfl
    | false =>
        exact .inr ⟨rfl, Entry.id?_of_unstated (Bool.or_eq_false_iff.mp takes).1⟩

end Document

/-! ## Choices -/

/-- An id that a pass chooses for a tag, with the text and the components of that moment. -/
structure Choice where
  text : Text
  surface : Surface
  tag : Tag
  id : Text

namespace Choice

/-- The names of the components and the ids of all elements. -/
def taken (choice : Choice) : List Text :=
  choice.surface.container.names ++ takenIds (Tree.parse choice.text)

/-- The id is the name of the type that the tag stands for, with the smallest positive number for
which nothing has this name or id up to letter case. -/
structure Free (registry : Registry) (choice : Choice) : Prop where
  tagged : choice.tag ∈ (Tree.parse choice.text).controls.map (·.toTag)
  smallest : ∃ controlType number, registry.resolve? choice.tag.name = some controlType ∧
    choice.id = Naming.numbered controlType.name number ∧ 1 ≤ number ∧
    Naming.isTaken choice.taken choice.id = false ∧
    (∀ smaller, 1 ≤ smaller → smaller < number →
      Naming.isTaken choice.taken (Naming.numbered controlType.name smaller) = true) ∧
    number ≤ (choice.taken.map Text.lower).dedup.length + 1

end Choice

namespace Document

/-- The ids that the passes of a scan choose, one after the other. -/
def choices (mode : ScanMode) : Nat → ScanReport → Document → List Choice
  | 0, _, _ => []
  | bound + 1, report, document =>
      match scanPass mode { report with passes := report.passes + 1 } document with
      | .ok (some missing, pass) after =>
          ⟨document.text, pass.surface, missing.tag, missing.id⟩ ::
            choices mode bound { pass.report with ids := pass.report.ids ++ [missing.id] }
              (after.setAttribute missing.tag "id" missing.id).2
      | _ => []

/-- The ids that the first scan of a document chooses. -/
def firstChoices (document : Document) : List Choice :=
  match startScan .initial { document with buffer := document.buffer.suppress } with
  | .ok report start => choices .initial start.options.maxScanPasses report start
  | .error _ _ => []

section

variable {document after : Document} {mode : ScanMode} {report : ScanReport} {pass : ScanPass}

/-- A pass that does not stop chooses nothing. -/
theorem choices_of_settled
    (done : scanPass mode { report with passes := report.passes + 1 } document =
      .ok (none, pass) after) (bound : Nat) : choices mode (bound + 1) report document = [] := by
  rw [choices, done]

/-- A pass that stops makes one choice in front of those of the passes behind it. -/
theorem choices_of_stopped {missing : MissingId}
    (done : scanPass mode { report with passes := report.passes + 1 } document =
      .ok (some missing, pass) after) (bound : Nat) :
    choices mode (bound + 1) report document =
      ⟨document.text, pass.surface, missing.tag, missing.id⟩ ::
        choices mode bound { pass.report with ids := pass.report.ids ++ [missing.id] }
          (after.setAttribute missing.tag "id" missing.id).2 := by
  rw [choices, done]

end

/-- What a pass chooses is free. -/
theorem StopsAt.free {document : Document} {mode : ScanMode} {report : ScanReport}
    {former latter : List Element} {element : Element} {controlType : ControlType}
    {pass : ScanPass}
    (stops : document.StopsAt mode report former element latter controlType pass) :
    Choice.Free document.registry
      ⟨document.text, pass.surface, element.toTag, document.newId pass controlType⟩ := by
  obtain ⟨number, same, positive, free, smaller, bounded⟩ :=
    Naming.unused_smallest controlType.name
      (pass.surface.container.names ++ takenIds (Tree.parse document.text))
  refine ⟨?_, controlType, number, stops.resolved, same, positive, ?_, smaller, bounded⟩
  · rw [stops.split]
    simp
  · rw [← same] at free
    exact free

/-- The passes of a first scan are turns in which the tags get the ids that are chosen. -/
theorem turns_of_scanPasses {base : Surface} {bound : Nat} {report report' : ScanReport}
    {document after : Document} (bare : Bare base) (rooted : Rooted base)
    (begun : Begun base document)
    (valid : ∀ controlType ∈ document.registry.all, Naming.isValid controlType.name = true)
    (done : scanPasses .initial bound report document = .ok report' after) :
    report'.ids = report.ids ++ (choices .initial bound report document).map (·.id) ∧
      (∀ choice ∈ choices .initial bound report document, choice.Free document.registry) ∧
      Profile.Turns document.registry base document.profiles
        ((choices .initial bound report document).map (·.id)) after.profiles := by
  induction bound generalizing report document with
  | zero => cases done
  | succ bound ih =>
      obtain ⟨_, _, _, surface, _⟩ := begun.kept
      have root : base.root? = document.surface.root? := by rw [surface, Surface.root?_populate]
      obtain ⟨pass, middle, sound, agrees, same, outcome⟩ :=
        scanPass_cases begun.sound .initial { report with passes := report.passes + 1 }
      rcases outcome with ⟨walk, turn⟩ | ⟨former, element, latter, controlType, stops, turn⟩
      · rw [scanPasses_of_settled turn, finishScan_initial] at done
        obtain ⟨rfl, rfl⟩ := EStateM.Result.ok.inj done
        rw [choices_of_settled turn, profiles_congr agrees.text_eq]
        refine ⟨?_, List.forall_mem_nil _, .settled ?_⟩
        · exact walk.continues.ids_eq.trans (List.append_nil _).symm
        · exact usable_profiles (walk.lackingFrom_nil root)
      · have valid' := valid controlType (Registry.mem_all_of_resolve? stops.resolved)
        have populated := begun.surface_of_stopsAt bare stops
        obtain ⟨front, tag, edited, behind, before, later, first⟩ :=
          stops.turn root rooted populated valid' agrees
        have begun' := begun.edited bare stops sound agrees same
          (document.newId pass controlType)
        obtain ⟨_, registry, _, _⟩ := setAttribute_frame middle element.toTag "id"
          (document.newId pass controlType)
        rw [agrees.registry_eq] at registry
        rw [scanPasses_of_stopped turn] at done
        obtain ⟨ids, free, turns⟩ := ih begun' (by rw [registry]; exact valid) done
        rw [registry] at free turns
        rw [later] at turns
        rw [choices_of_stopped turn, before]
        refine ⟨?_, List.forall_mem_cons.mpr ⟨stops.free, free⟩, .turn first turns⟩
        rw [ids]
        have kept : pass.report.ids = report.ids := stops.walk.continues.ids_eq
        rw [kept, List.append_assoc]
        rfl

/-- What a first scan that succeeds has chosen, and the turns in which the tags get these ids. -/
theorem turns_of_createControls {document after : Document} {report : ScanReport}
    (sound : document.Sound) (bare : Bare document.surface) (rooted : Rooted document.surface)
    (valid : ∀ controlType ∈ document.registry.all, Naming.isValid controlType.name = true)
    (created : createControls document = .ok report after) :
    report.ids = document.firstChoices.map (·.id) ∧
      (∀ choice ∈ document.firstChoices, choice.Free document.registry) ∧
      Profile.Turns document.registry document.surface document.profiles
        (document.firstChoices.map (·.id)) after.profiles := by
  have quiet : { document with buffer := document.buffer.suppress }.Sound :=
    sound.withBuffer rfl rfl
  obtain ⟨report', start, started, sound', agrees, surface, _, none'⟩ := startScan_initial quiet
  have registry : start.registry = document.registry := agrees.registry_eq
  have text : start.text = document.text := agrees.text_eq
  have begun : Begun document.surface start := by
    have begun' := Begun.of_base sound'
    rw [surface] at begun'
    exact begun'
  have chosen : document.firstChoices =
      choices .initial start.options.maxScanPasses report' start := by
    unfold firstChoices
    rw [started]
  rw [createControls_of_start started] at created
  rw [chosen]
  cases ran : scanPasses .initial start.options.maxScanPasses report' start with
  | error failure middle => rw [ran] at created; cases created
  | ok report'' middle =>
      rw [ran] at created
      obtain ⟨rfl, rfl⟩ := EStateM.Result.ok.inj created
      obtain ⟨ids, free, turns⟩ := turns_of_scanPasses bare rooted begun
        (by rw [registry]; exact valid) ran
      rw [registry] at free turns
      rw [profiles_congr text] at turns
      rw [none', List.nil_append] at ids
      have released : { middle with buffer := middle.buffer.release }.profiles =
          middle.profiles := profiles_congr (release_frame middle.buffer).1
      rw [released]
      exact ⟨ids, free, turns⟩

/-! ## What the chosen ids come to -/

/-- One element has the id, and no other one has it up to letter case. -/
def HasOnce (document : Document) (id : Text) : Prop :=
  ∃ former element latter, (Tree.parse document.text).elements = former ++ element :: latter ∧
    element.id? = some id ∧
    ∀ other ∈ former ++ latter, ∀ named, other.id? = some named → named.lower ≠ id.lower

/-- An id that is that of one tag is that of one element. -/
theorem hasOnce_of_sole {base : Surface} {registry : Registry} {document : Document} {id : Text}
    (sole : Profile.Sole registry base id document.profiles) : document.HasOnce id := by
  obtain ⟨front, profile, rest, split, has, _, apart⟩ := sole
  obtain ⟨former, element, latter, elements, rfl, rfl, rfl⟩ := elements_of_profiles split
  rw [id?_profile] at has
  refine ⟨former, element, latter, elements, has, fun other member named has' => ?_⟩
  rw [← List.map_append, ← List.map_append] at apart
  exact apart _ (List.mem_map_of_mem (List.mem_map_of_mem member)) named
    ((id?_profile _ _).trans has')

/-- A tag that lacks no usable id is in the end where it was, and says what it said. -/
theorem exists_kept {base : Surface} {document after : Document} {ids : List Text}
    (turns : Profile.Turns document.registry base document.profiles ids after.profiles)
    {former latter : List Element} {element : Element}
    (split : (Tree.parse document.text).elements = former ++ element :: latter)
    (usable : element.toTag ∉ lacking base document) :
    ∃ former' element' latter',
      (Tree.parse after.text).elements = former' ++ element' :: latter' ∧
      former'.length = former.length ∧
      after.profile element'.toTag = document.profile element.toTag := by
  obtain ⟨front, rest, kept, length⟩ :=
    turns.stays (profiles_of_elements split) (lacks_of_not_mem split usable)
  obtain ⟨former', element', latter', elements, rfl, same, _⟩ := elements_of_profiles kept
  simp only [List.length_map] at length
  exact ⟨former', element', latter', elements, length, same.symm⟩

end Document

end PageDesigner
