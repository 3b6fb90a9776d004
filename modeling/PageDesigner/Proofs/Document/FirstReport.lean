import PageDesigner.Proofs.Document.Repetition
import PageDesigner.Proofs.Document.Unrepeated

/-!
# What a first scan reports

There is something to report of a server control when no type is known for it, and of
each of its attributes that names a property and does not convert (`complaints`).  A
pass of a first scan looks at the attributes of a tag when it creates its component.  A
pass that stops at a tag without an id throws away what it has found, and the next one
finds the tags of no known type again, but not the attributes: the components of the
tags in front exist by then.

So a first scan reports of the tags in front of the one into which it wrote its last id
that they are of no known type, and of the others everything (`issues_of_createControls`).
A later scan right behind it reports everything (`exists_persist`).
-/

namespace PageDesigner

/-! ## What there is to report -/

/-- The issue with an attribute of a tag of the type: it names a property and does not convert. -/
def ControlType.refusal? (controlType : ControlType) (tag : Tag) (entry : Attribute) :
    Option Issue :=
  if entry.name.text.sameName "id" || entry.name.text.sameName "runat" then none
  else
    match controlType.property? entry.name.text with
    | none => none
    | some property =>
        match property.read entry.value with
        | .ok _ => none
        | .error cause => some (.ofTag tag (property.name ++ ": " ++ cause.message))

/-- Whether an issue is about a directive. -/
def Issue.isOfDirective (issue : Issue) : Bool := ("%@ " : Text).isPrefixOf issue.tag

namespace Component

open Reading

theorem refusal?_of_states {controlType : ControlType} {property : Property} {entry : Attribute}
    (states : States controlType property entry) (tag : Tag) :
    controlType.refusal? tag entry =
      match property.read entry.value with
      | .ok _ => none
      | .error cause => some (.ofTag tag (property.name ++ ": " ++ cause.message)) := by
  obtain ⟨plain, named⟩ := states
  unfold ControlType.refusal?
  rw [if_neg (Bool.eq_false_iff.mp plain), named]

theorem refusal?_of_unstated {controlType : ControlType} {entry : Attribute}
    (unstated : ∀ property, ¬ States controlType property entry) (tag : Tag) :
    controlType.refusal? tag entry = none := by
  unfold ControlType.refusal?
  split
  · rfl
  · next plain =>
      cases named : controlType.property? entry.name.text with
      | none => rfl
      | some property => exact absurd ⟨Bool.eq_false_iff.mpr plain, named⟩ (unstated property)

/-- An attribute is reported when it is refused, and for nothing else. -/
theorem Reading.issues_apply (tag : Tag) (reading : Reading) (entry : Attribute) :
    (apply tag reading entry).issues =
      reading.issues ++ (reading.component.controlType.refusal? tag entry).toList := by
  rcases apply_cases tag reading entry with
    ⟨property, states, _, same⟩ | ⟨event, binds, unstated, same⟩ | ⟨unstated, _, same⟩
  · rw [same, issues_applyProperty (declared_of_states states), refusal?_of_states states]
    cases property.read entry.value with
    | ok value => simp
    | error cause => simp
  · rw [same, applyEvent_eq (declared_of_binds binds), refusal?_of_unstated unstated]
    simp
  · rw [same, refusal?_of_unstated unstated]
    simp

theorem Reading.issues_foldl (tag : Tag) (entries : List Attribute) (reading : Reading) :
    (entries.foldl (apply tag) reading).issues =
      reading.issues ++ entries.filterMap (reading.component.controlType.refusal? tag) := by
  induction entries generalizing reading with
  | nil => simp
  | cons entry entries ih =>
      rw [List.foldl_cons, ih, controlType_apply, issues_apply, List.append_assoc]
      cases refused : reading.component.controlType.refusal? tag entry with
      | none => simp [refused]
      | some issue => simp [refused]

/-- A tag that is read into a fresh component leaves the refused attributes to report. -/
theorem issues_readTag_fresh (controlType : ControlType) (element : Element) :
    ((fresh controlType).readTag element false).2 =
      element.attributes.filterMap (controlType.refusal? element.toTag) := by
  have folded := Reading.issues_foldl element.toTag element.attributes
    ⟨fresh controlType, [], [], []⟩
  unfold readTag
  exact folded

end Component

namespace ScanPass

variable {registry : Registry} {taken : List Text}

/-- What there is to report of a server control. -/
def complaints (registry : Registry) (element : Element) : List Issue :=
  match registry.resolve? element.name with
  | none => [.ofTag element.toTag "no control type registered for this tag"]
  | some controlType => element.attributes.filterMap (controlType.refusal? element.toTag)

/-- What there is to report of the server controls of no known type. -/
def untyped (registry : Registry) (elements : List Element) : List Issue :=
  (elements.filter fun element => (registry.resolve? element.name).isNone).flatMap
    (complaints registry)

theorem complaints_unknown {element : Element} (resolved : registry.resolve? element.name = none)
    (surface : Surface) : tagIssues registry surface element = complaints registry element := by
  rw [tagIssues_unknown resolved, complaints, resolved]

theorem complaints_known {element : Element} {controlType : ControlType}
    (resolved : registry.resolve? element.name = some controlType) :
    ((Component.fresh controlType).readTag element false).2 = complaints registry element := by
  rw [Component.issues_readTag_fresh, complaints, resolved]

theorem untyped_cons_unknown {element : Element}
    (resolved : registry.resolve? element.name = none) (rest : List Element) :
    untyped registry (element :: rest) = complaints registry element ++ untyped registry rest := by
  simp [untyped, resolved]

theorem untyped_cons_known {element : Element} {controlType : ControlType}
    (resolved : registry.resolve? element.name = some controlType) (rest : List Element) :
    untyped registry (element :: rest) = untyped registry rest := by
  simp [untyped, resolved]

theorem untyped_sublist (registry : Registry) (elements : List Element) :
    (untyped registry elements).Sublist (elements.flatMap (complaints registry)) := by
  induction elements with
  | nil => exact .slnil
  | cons element rest ih =>
      rw [List.flatMap_cons]
      cases resolved : registry.resolve? element.name with
      | none =>
          rw [untyped_cons_unknown resolved]
          exact (List.Sublist.refl _).append ih
      | some controlType =>
          rw [untyped_cons_known resolved]
          exact ih.trans (List.sublist_append_right _ _)

/-- Leaving out what there is to report of the tags of known types leaves out nothing just in case
there is nothing to report of them. -/
theorem untyped_eq_iff {elements : List Element} :
    untyped registry elements = elements.flatMap (complaints registry) ↔
      ∀ element ∈ elements, (registry.resolve? element.name).isSome = true →
        complaints registry element = [] := by
  induction elements with
  | nil => exact ⟨fun _ _ member => (nomatch member), fun _ => rfl⟩
  | cons element rest ih =>
      rw [List.flatMap_cons, List.forall_mem_cons, ← ih]
      cases resolved : registry.resolve? element.name with
      | none =>
          rw [untyped_cons_unknown resolved, List.append_cancel_left_eq]
          simp
      | some controlType =>
          rw [untyped_cons_known resolved]
          constructor
          · intro same
            have lengths := congrArg List.length same
            have few := (untyped_sublist registry rest).length_le
            rw [List.length_append] at lengths
            have none' : complaints registry element = [] :=
              List.eq_nil_of_length_eq_zero (by omega)
            rw [none', List.nil_append] at same
            exact ⟨fun _ => none', same⟩
          · rintro ⟨none', same⟩
            rw [none' rfl, List.nil_append]
            exact same

/-! ## One pass -/

/-- Tags whose components exist are passed over, and reported only if they are of no known type. -/
theorem visitAll_sited {elements : List Element} {pass : ScanPass}
    (sited : Surface.Sited registry pass.surface elements)
    (claimable : Claimable registry pass.surface pass.claimed elements) (rest : List Element) :
    visitAll registry .initial taken (elements ++ rest) pass =
      visitAll registry .initial taken rest
        { pass with
          claimed := pass.claimed ++ (claims registry elements).map Text.lower
          issues := pass.issues ++ untyped registry elements } := by
  induction elements generalizing pass with
  | nil => simp [claims, untyped]
  | cons element elements ih =>
      have sited' : Surface.Sited registry pass.surface elements :=
        fun other member => sited other (List.mem_cons_of_mem _ member)
      cases claimable with
      | unknown resolved later =>
          rw [List.cons_append, visitAll_unknown resolved, complaints_unknown resolved,
            @ih { pass with issues := pass.issues ++ complaints registry element } sited' later,
            claims_cons_unknown resolved, untyped_cons_unknown resolved, List.append_assoc]
      | @known _ _ _ controlType id resolved named valid fresh notRoot later =>
          obtain ⟨component, found, sameType⟩ :=
            sited element List.mem_cons_self controlType id resolved named
          have usable : pass.usableId? element.toTag = some id :=
            usableId?_eq_some.mpr ⟨named, valid, fresh, notRoot⟩
          rw [List.cons_append, visitAll_known resolved usable (settle_kept found sameType),
            @ih (pass.claiming id) sited' later, claims_cons_known resolved named,
            untyped_cons_known resolved, List.map_cons, ← List.singleton_append,
            ← List.append_assoc]
          rfl

/-- A list of tags that lack no id is one, and then another behind what the first claims. -/
theorem Claimable.split {surface : Surface} {claimed : List Text} {former latter : List Element}
    (claimable : Claimable registry surface claimed (former ++ latter)) :
    Claimable registry surface claimed former ∧
      Claimable registry surface (claimed ++ (claims registry former).map Text.lower) latter := by
  induction former generalizing claimed with
  | nil => exact ⟨.nil claimed, by simpa [claims] using claimable⟩
  | cons element former ih =>
      cases claimable with
      | unknown resolved later =>
          obtain ⟨here, behind⟩ := ih later
          rw [claims_cons_unknown resolved]
          exact ⟨.unknown resolved here, behind⟩
      | known resolved named valid fresh notRoot later =>
          obtain ⟨here, behind⟩ := ih later
          rw [List.append_assoc] at behind
          rw [claims_cons_known resolved named]
          exact ⟨.known resolved named valid fresh notRoot here, behind⟩

/-- A pass over tags that lack no id gets to their end. -/
theorem Claimable.exists_visitAll {mode : ScanMode} {elements : List Element} {pass : ScanPass}
    (claimable : Claimable registry pass.surface pass.claimed elements)
    (distinct : pass.surface.container.Distinct) :
    ∃ final, visitAll registry mode taken elements pass = .ok none final ∧
      Walk registry mode pass elements final := by
  obtain ⟨final, -, outcome⟩ := visitAll_cases registry mode taken elements distinct
  rcases outcome with ⟨walk, done⟩ | ⟨former, element, latter, _, rfl, walk, resolved, lacks, _⟩
  · exact ⟨final, done, walk⟩
  · exact absurd lacks (claimable.usable rfl walk resolved)

/-- Tags whose components do not exist are looked at. -/
theorem issues_of_unsited {elements : List Element} {pass final : ScanPass}
    (within : ∀ name ∈ pass.surface.container.names,
      pass.surface.isRoot name = true ∨ name.lower ∈ pass.claimed)
    (claimable : Claimable registry pass.surface pass.claimed elements)
    (done : visitAll registry .initial taken elements pass = .ok none final) :
    final.issues = pass.issues ++ elements.flatMap (complaints registry) := by
  induction elements generalizing pass with
  | nil =>
      obtain ⟨-, rfl⟩ := EStateM.Result.ok.inj done
      simp
  | cons element elements ih =>
      cases claimable with
      | unknown resolved later =>
          rw [visitAll_unknown resolved, complaints_unknown resolved] at done
          rw [@ih { pass with issues := pass.issues ++ complaints registry element } within later
            done, List.flatMap_cons, List.append_assoc]
      | @known _ _ _ controlType id resolved named valid fresh notRoot later =>
          have usable : pass.usableId? element.toTag = some id :=
            usableId?_eq_some.mpr ⟨named, valid, fresh, notRoot⟩
          have free := Surface.site?_of_unclaimed within fresh notRoot
          let after := (pass.claiming id).creating controlType id element
          have settled : settle .initial controlType id element pass = .ok () after :=
            settle_created valid free
          have root : after.surface.root? = pass.surface.root? := Surface.root?_place _ _ _
          -- The new component is claimed, and the others are as before.
          have within' : ∀ name ∈ after.surface.container.names,
              after.surface.isRoot name = true ∨ name.lower ∈ after.claimed := by
            intro name member
            have names : after.surface.container.names = pass.surface.container.names ++ [id] :=
              Surface.names_place _ _ _
            rw [names] at member
            rcases List.mem_append.mp member with before | here
            · refine (within name before).imp (fun isRoot => ?_) (List.mem_append_left _)
              unfold Surface.isRoot at isRoot ⊢
              rw [root]
              exact isRoot
            · rw [List.mem_singleton.mp here]
              exact .inr (List.mem_append_right _ (List.mem_singleton_self _))
          have issues : after.issues = pass.issues ++ complaints registry element :=
            congrArg (pass.issues ++ ·) (complaints_known resolved)
          rw [visitAll_known resolved usable settled] at done
          rw [ih within' (later.congr root rfl) done, issues, List.flatMap_cons, List.append_assoc]

end ScanPass

/-! ## All passes -/

namespace Document

open ScanPass (Claimable Walk claims complaints takenIds untyped visitAll visitAll_sited
  issues_of_unsited)

/-- The last id that was written stands in the first tag of the rest, unless it is not read
back. -/
def LastWritten (registry : Registry) (ids : List Text) (kept rest : List Element) : Prop :=
  match ids.getLast? with
  | none => kept = []
  | some id => ∃ element later, rest = element :: later ∧
      (registry.resolve? element.name).isSome = true ∧ ∀ read ∈ element.id?, read = id

/-- A first scan from the base goes on behind the ids that it has written: the kept tags have
their components, and the last id stands in the tag behind them. -/
structure Resumes (base : Surface) (document : Document) (ids : List Text)
    (kept rest : List Element) : Prop where
  sound : document.Sound
  controls : (Tree.parse document.text).controls = kept ++ rest
  surface : document.surface = base.populate document.registry kept
  claimable : Claimable document.registry base [] kept
  sited : Surface.Sited document.registry document.surface kept
  last : LastWritten document.registry ids kept rest

section

variable {base : Surface} {document after : Document} {ids : List Text} {kept rest : List Element}
  {report report' : ScanReport}

theorem Resumes.begun (resumes : Resumes base document ids kept rest) : Begun base document :=
  ⟨resumes.sound, kept, rest, resumes.controls, resumes.surface, resumes.claimable, resumes.sited⟩

/-- The last turn of a first scan: of the kept tags it reports those of no known type, and of the
others everything. -/
theorem Resumes.issues_of_settled (bare : Bare base)
    (resumes : Resumes base document ids kept rest)
    (claimable : Claimable document.registry base [] (kept ++ rest)) {bound : Nat}
    (done : scanPasses .initial (bound + 1) report document = .ok report' after) :
    document.Agrees after ∧ report'.ids = report.ids ∧ report'.issues = report.issues ++
      (untyped document.registry kept ++ rest.flatMap (complaints document.registry)) := by
  obtain ⟨sound, controls, surface, -, sited, -⟩ := resumes
  have root : document.surface.root? = base.root? := by rw [surface, Surface.root?_populate]
  obtain ⟨here, behind⟩ := claimable.split
  let start := document.startOf { report with passes := report.passes + 1 }
  let middle : ScanPass :=
    { start with
      claimed := (claims document.registry kept).map Text.lower
      issues := untyped document.registry kept }
  have first : visitAll document.registry .initial (takenIds (Tree.parse document.text))
      (kept ++ rest) start =
      visitAll document.registry .initial (takenIds (Tree.parse document.text)) rest middle :=
    @visitAll_sited _ _ kept start sited (here.congr root rfl) rest
  have claimable' : Claimable document.registry middle.surface middle.claimed rest :=
    behind.congr root rfl
  -- Only the root and what the kept tags claim is there.
  have within : ∀ name ∈ middle.surface.container.names,
      middle.surface.isRoot name = true ∨ name.lower ∈ middle.claimed := by
    intro name member
    rw [show middle.surface = document.surface from rfl, surface] at member ⊢
    rw [Surface.names_populate] at member
    rcases List.mem_append.mp member with before | claimed
    · left
      unfold Surface.isRoot
      rw [Surface.root?_populate]
      exact bare name before
    · exact .inr (List.mem_map_of_mem claimed)
  obtain ⟨final, visited, walk⟩ := claimable'.exists_visitAll sound.distinct
  have issues := issues_of_unsited within claimable' visited
  have runs := scanPass_eq sound .initial { report with passes := report.passes + 1 }
  rw [controls, first, visited] at runs
  rw [scanPasses] at done
  simp only [bind, EStateM.bind, runs] at done
  rw [finishScan_initial] at done
  obtain ⟨rfl, rfl⟩ := EStateM.Result.ok.inj done
  obtain ⟨parsed, parses, -, agrees, -⟩ := parse_eq sound
  rw [parses]
  refine ⟨⟨agrees.text_eq, agrees.registry_eq, agrees.designers_eq, agrees.options_eq⟩,
    walk.continues.ids_eq, ?_⟩
  dsimp only
  rw [issues, walk.continues.issues_eq]
  rfl

/-- Every other turn writes an id into the first tag that lacks one, and keeps no issue. -/
theorem Resumes.turn (bare : Bare base) (resumes : Resumes base document ids kept rest)
    (valid : ∀ controlType ∈ document.registry.all, Naming.isValid controlType.name = true)
    (bound : Nat) (report : ScanReport) :
    Claimable document.registry base [] (kept ++ rest) ∨
      ∃ id kept' rest' document' report', Resumes base document' (ids ++ [id]) kept' rest' ∧
        document'.registry = document.registry ∧ document'.options = document.options ∧
        report'.ids = report.ids ++ [id] ∧ report'.issues = report.issues ∧
        scanPasses .initial (bound + 1) report document =
          scanPasses .initial bound report' document' := by
  rcases scanPasses_initial_cases bare resumes.begun bound report with
    ⟨_, _, scanned, agrees, -⟩ |
      ⟨former, element, latter, controlType, pass, middle, stops, populated, surface, agrees,
        begun, turn⟩
  · left
    have claimable := scanned.claimable
    rw [agrees.registry_eq, agrees.text_eq, resumes.controls] at claimable
    exact claimable
  · right
    have split := stops.split
    rw [← agrees.text_eq] at split
    obtain ⟨kept', rest', controls, openings⟩ := controls_setAttribute split "id"
      (document.newId pass controlType)
    obtain ⟨registry, edited, behind, tags, name, id, -⟩ := stops.exists_edited
      (valid controlType (Registry.mem_all_of_resolve? stops.resolved)) agrees
    obtain ⟨surface', -, -, options⟩ := setAttribute_frame middle element.toTag "id"
      (document.newId pass controlType)
    generalize (middle.setAttribute element.toTag "id" (document.newId pass controlType)).2 =
      document' at *
    refine ⟨document.newId pass controlType, kept', rest', document', _,
      ⟨begun.sound, controls, ?_, ?_, ?_, ?_⟩, registry, options.trans agrees.options_eq, ?_, ?_,
      turn⟩
    · rw [surface', surface, registry, Surface.populate_congr openings, populated]
    · rw [registry]
      refine stops.walk.claimable.congr ?_ openings
      rw [startOf, resumes.surface, Surface.root?_populate]
    · rw [surface', surface, registry]
      exact (stops.walk.sited resumes.sound.distinct).congr openings
    · -- The edited tag is the first one behind those in front.
      have same : kept'.map (·.toTag) = former.map (·.toTag) := by
        have tags' := congrArg (List.map Prod.fst) openings
        rwa [List.map_map, List.map_map] at tags'
      rw [controls, List.map_append, same] at tags
      obtain ⟨written, later, rfl, here, -⟩ :=
        List.map_eq_cons_iff.mp (List.append_cancel_left tags)
      unfold LastWritten
      rw [List.getLast?_concat, registry]
      refine ⟨written, later, rfl, ?_, ?_⟩
      · rw [here, name, stops.resolved]
        rfl
      · intro read member
        rw [here, id] at member
        split at member
        · exact (Option.some.inj member).symm
        · cases member
    · dsimp only
      rw [stops.walk.continues.ids_eq]
      rfl
    · exact stops.walk.continues.issues_eq

/-- A first scan reports of the tags in front of the one with its last id those of no known type,
and of the others everything. -/
theorem Resumes.issues_of_scanPasses {bound : Nat} (bare : Bare base)
    (resumes : Resumes base document report.ids kept rest)
    (valid : ∀ controlType ∈ document.registry.all, Naming.isValid controlType.name = true)
    (done : scanPasses .initial bound report document = .ok report' after) :
    after.options = document.options ∧ ∃ kept' rest',
      (Tree.parse after.text).controls = kept' ++ rest' ∧
      LastWritten document.registry report'.ids kept' rest' ∧
      report'.issues = report.issues ++
        (untyped document.registry kept' ++ rest'.flatMap (complaints document.registry)) := by
  induction bound generalizing report document kept rest with
  | zero => cases done
  | succ bound ih =>
      rcases resumes.turn bare valid bound report with
        claimable |
          ⟨id, _, _, document', report'', resumes', registry, options, ids, issues, turn⟩
      · obtain ⟨agrees, ids, issues⟩ := resumes.issues_of_settled bare claimable done
        refine ⟨agrees.options_eq, kept, rest, ?_, ?_, issues⟩
        · rw [agrees.text_eq, resumes.controls]
        · rw [ids]
          exact resumes.last
      · rw [turn] at done
        rw [← ids] at resumes'
        rw [← registry] at valid
        obtain ⟨options', later⟩ := ih resumes' valid done
        rw [registry, issues] at later
        exact ⟨options'.trans options, later⟩

end

/-- The tags in front of the one with the last id that a scan has written. -/
def overtaken (registry : Registry) (ids : List Text) (controls : List Element) : List Element :=
  match ids.getLast? with
  | none => []
  | some id => controls.takeWhile fun element =>
      !((registry.resolve? element.name).isSome && element.id? == some id)

theorem overtaken_eq {registry : Registry} {base : Surface} {ids : List Text}
    {kept rest : List Element} (claimable : Claimable registry base [] (kept ++ rest))
    (last : LastWritten registry ids kept rest) :
    overtaken registry ids (kept ++ rest) = kept := by
  unfold LastWritten at last
  unfold overtaken
  cases written : ids.getLast? with
  | none =>
      rw [written] at last
      exact last.symm
  | some id =>
      rw [written] at last
      obtain ⟨element, later, rfl, known, same⟩ := last
      obtain ⟨-, behind⟩ := claimable.split
      cases behind with
      | unknown resolved => rw [resolved] at known; cases known
      | @known _ _ _ _ read resolved named _ fresh =>
          obtain rfl := same read named
          dsimp only
          rw [List.takeWhile_append_of_pos, List.takeWhile_cons, known, named, beq_self_eq_true]
          · exact List.append_nil kept
          · -- No tag in front has the id.
            intro other member
            rw [Bool.not_eq_true', Bool.and_eq_false_iff, or_iff_not_imp_left,
              Bool.not_eq_false, beq_eq_false_iff_ne]
            intro known' named'
            exact fresh (List.mem_map_of_mem
              (Surface.mem_claims.mpr ⟨other, member, known', named'⟩))

/-! ## Directives -/

/-- An issue with a server control is not about a directive. -/
theorem isOfDirective_of_complaints {text : Text} {registry : Registry} {element : Element}
    (member : element ∈ (Tree.parse text).controls) {issue : Issue}
    (listed : issue ∈ complaints registry element) : issue.isOfDirective = false := by
  have own : issue.tag = element.name.text := by
    unfold complaints at listed
    split at listed
    · rw [List.mem_singleton.mp listed]
      rfl
    · obtain ⟨entry, -, refused⟩ := List.mem_filterMap.mp listed
      unfold ControlType.refusal? at refused
      split at refused
      · cases refused
      · split at refused
        · cases refused
        · split at refused
          · cases refused
          · rw [← Option.some.inj refused]
            rfl
  obtain ⟨former, latter, split⟩ := List.append_of_mem member
  obtain ⟨front, tag, -, -, -, -, same, -⟩ := exists_control split
  have name : element.name.text = tag.written := by
    have same' := congrArg (fun opening : Opening => opening.1.name.text) same
    exact same'.trans (Name.text_ofText tag.written)
  unfold Issue.isOfDirective
  rw [own, name]
  rw [Bool.eq_false_iff]
  intro found
  obtain ⟨more, written⟩ := List.isPrefixOf_iff_prefix.mp found
  have starts := tag.named
  rw [← written] at starts
  cases starts

/-- What there is to report of server controls stays where the issues of directives are left out. -/
theorem filter_complaints {text : Text} (registry : Registry) {elements : List Element}
    (among : ∀ element ∈ elements, element ∈ (Tree.parse text).controls) :
    (elements.flatMap (complaints registry)).filter (!·.isOfDirective) =
      elements.flatMap (complaints registry) := by
  refine List.filter_eq_self.mpr fun issue member => ?_
  obtain ⟨element, listed, found⟩ := List.mem_flatMap.mp member
  rw [isOfDirective_of_complaints (among element listed) found]
  rfl

/-- The issues of the directives are about directives. -/
theorem issues_registerDirectives {directives : List Directive} {report report' : ScanReport}
    {document after : Document}
    (done : registerDirectives report directives document = .ok report' after) :
    report'.issues.filter (!·.isOfDirective) = report.issues.filter (!·.isOfDirective) := by
  induction directives generalizing report document with
  | nil =>
      obtain ⟨rfl, -⟩ := EStateM.Result.ok.inj done
      rfl
  | cons directive rest ih =>
      unfold registerDirectives at done
      simp only [bind, EStateM.bind, get_eq] at done
      cases added : document.directives.addParsed directive with
      | error failure =>
          rw [added] at done
          have ofDirective : (⟨"%@ " ++ directive.name, none, directive.region.first,
              failure.message⟩ : Issue).isOfDirective = true :=
            List.isPrefixOf_iff_prefix.mpr (List.prefix_append _ _)
          have later := ih done
          rw [later]
          dsimp only
          rw [List.filter_append, List.filter_cons_of_neg (by rw [ofDirective]; decide),
            List.filter_nil, List.append_nil]
      | ok entry =>
          rw [added] at done
          exact @ih { report with directives := report.directives + 1 }
            { document with directives := entry.2 } done

end Document

/-! ## A later scan right behind -/

namespace Surface

variable {registry : Registry} {surface : Surface} {claimed : List Text} {elements : List Element}

/-- Siting the controls of tags leaves the component under a name that is claimed before. -/
theorem get?_populate_of_claimed
    (claimable : ScanPass.Claimable registry surface claimed elements) {base : Surface}
    {name : Text} (before : name.lower ∈ claimed) (notRoot : base.isRoot name = false) :
    (base.populate registry elements).container.get? name = base.container.get? name := by
  induction claimable generalizing base with
  | nil => rfl
  | @unknown _ element _ resolved _ ih =>
      have skipped : base.siteTag registry element = base := by
        unfold siteTag
        rw [resolved]
      rw [populate, List.foldl_cons, skipped]
      exact ih before notRoot
  | @known claimed element rest controlType id resolved named _ fresh _ _ ih =>
      have placed : base.siteTag registry element =
          base.place id ((Component.fresh controlType).readTag element false).1 := by
        unfold siteTag
        rw [resolved, named]
      have differs : id.sameName name = false := by
        rw [Bool.eq_false_iff, ne_eq, Text.sameName_iff]
        intro same
        rw [same] at fresh
        exact fresh before
      rw [populate, List.foldl_cons, placed]
      refine (ih (List.mem_append_left _ before) ?_).trans (get?_place_of_ne differs notRoot _)
      rw [isRoot, root?_place]
      exact notRoot

/-- When only the root and what is claimed is there, siting the controls of tags puts a fresh
component under the id of each, into which the tag was read. -/
theorem get?_populate (claimable : ScanPass.Claimable registry surface claimed elements)
    {base : Surface} (root : surface.root? = base.root?)
    (within : ∀ name ∈ base.container.names, base.isRoot name = true ∨ name.lower ∈ claimed)
    {element : Element} (member : element ∈ elements) {controlType : ControlType}
    (resolved : registry.resolve? element.name = some controlType) :
    ∃ id, element.id? = some id ∧ Naming.isValid id = true ∧ base.isRoot id = false ∧
      (base.populate registry elements).container.get? id =
        some ((Component.fresh controlType).readTag element false).1 := by
  have rooted : ∀ name, surface.isRoot name = base.isRoot name := by
    intro name
    unfold isRoot
    rw [root]
  induction claimable generalizing base with
  | nil => cases member
  | @unknown _ other _ resolved' _ ih =>
      have skipped : base.siteTag registry other = base := by
        unfold siteTag
        rw [resolved']
      rcases List.mem_cons.mp member with rfl | member
      · rw [resolved] at resolved'
        cases resolved'
      · rw [populate, List.foldl_cons, skipped]
        exact ih root within member rooted
  | @known claimed other rest controlType' id resolved' named valid fresh notRoot later ih =>
      have placed : base.siteTag registry other =
          base.place id ((Component.fresh controlType').readTag other false).1 := by
        unfold siteTag
        rw [resolved', named]
      have roots : ∀ name, (base.siteTag registry other).isRoot name = base.isRoot name := by
        intro name
        rw [isRoot, root?_siteTag]
        rfl
      rw [rooted] at notRoot
      rw [populate, List.foldl_cons]
      rcases List.mem_cons.mp member with rfl | member
      · rw [resolved] at resolved'
        obtain rfl := Option.some.inj resolved'
        refine ⟨id, named, valid, notRoot, ?_⟩
        refine (get?_populate_of_claimed later (by simp) (by rw [roots, notRoot])).trans ?_
        rw [placed]
        exact get?_place_self (site?_of_unclaimed within fresh notRoot) notRoot _
      · have found := @ih (base.siteTag registry other) (by rw [root, root?_siteTag]) ?_
          member (fun name => (rooted name).trans (roots name).symm)
        · simp only [roots] at found
          exact found
        · intro name there
          rw [placed, names_place] at there
          rw [roots]
          rcases List.mem_append.mp there with before | here
          · exact (within name before).imp (fun root => root) (List.mem_append_left _)
          · right
            rw [List.mem_singleton.mp here]
            simp

end Surface

namespace Document

open ScanPass (complaints untyped)

variable {base : Surface} {document : Document}

/-- What a first scan has sited leaves a later scan nothing to do. -/
theorem Scanned.atRest (scanned : Scanned base document) (bare : Bare base) :
    AtRest document.registry (Tree.parse document.text).controls document.surface where
  rests := by
    intro element member controlType resolved
    obtain ⟨id, named, valid, notRoot, found⟩ := Surface.get?_populate scanned.claimable rfl
      (fun name listed => .inl (bare name listed)) member resolved
    refine ⟨id, _, named, valid, ?_, by rw [scanned.surface_eq]; exact found,
      congrArg ControlType.name (Component.controlType_readTag _ _ _),
      Component.similar_readTag_fresh rfl⟩
    rw [Surface.isRoot, scanned.surface_eq, Surface.root?_populate]
    exact notRoot
  once := scanned.reconciled.once
  only := scanned.reconciled.only

/-- A later scan right behind a first one succeeds, and reports of all tags what there is. -/
theorem Scanned.exists_persist (scanned : Scanned base document) (bare : Bare base)
    (allowed : 0 < document.options.maxScanPasses) :
    ∃ report after, persist document = .ok report after ∧ after.text = document.text ∧
      report.issues =
        (Tree.parse document.text).controls.flatMap (complaints document.registry) := by
  obtain ⟨bound, limit⟩ := Nat.exists_eq_succ_of_ne_zero (Nat.ne_of_gt allowed)
  have start : { document with buffer := document.buffer.suppress }.Sound :=
    scanned.sound.withBuffer rfl rfl
  have ran := scanPasses_resting start (scanned.atRest bare) bound .empty
  obtain ⟨parsed, parses, -, agrees, -⟩ := parse_eq start
  rw [parses] at ran
  have runs := persist_eq document
  rw [limit, ran] at runs
  refine ⟨_, _, runs, (release_frame _).1.trans agrees.text_eq, ?_⟩
  refine List.flatMap_congr fun element member => ?_
  cases resolved : document.registry.resolve? element.name with
  | none => exact ScanPass.complaints_unknown resolved document.surface
  | some controlType =>
      obtain ⟨id, named, -, -, found⟩ := Surface.get?_populate scanned.claimable rfl
        (fun name listed => .inl (bare name listed)) member resolved
      rw [← scanned.surface_eq] at found
      rw [← ScanPass.complaints_known resolved]
      refine (ScanPass.tagIssues_known resolved named found).trans ?_
      rw [Component.controlType_readTag]
      rfl

/-! ## The whole first scan -/

/-- A first scan reports of the tags in front of the one with its last id those of no known type,
and of the others everything that there is to report. -/
theorem issues_of_createControls {after : Document} {report : ScanReport} (sound : document.Sound)
    (bare : Bare document.surface)
    (valid : ∀ controlType ∈ document.registry.all, Naming.isValid controlType.name = true)
    (done : createControls document = .ok report after) :
    after.options = document.options ∧ ∃ kept rest,
      (Tree.parse after.text).controls = kept ++ rest ∧
      overtaken document.registry report.ids (Tree.parse after.text).controls = kept ∧
      report.issues.filter (!·.isOfDirective) =
        untyped document.registry kept ++
          rest.flatMap (complaints document.registry) := by
  obtain ⟨scanned, registry, -⟩ := scanned_of_createControls sound bare done
  obtain ⟨middle, ran, released⟩ := quietly_eq_ok done
  have quiet : { document with buffer := document.buffer.suppress }.Sound :=
    sound.withBuffer rfl rfl
  obtain ⟨first, start, started, sound', agrees, surface, -, ids⟩ := startScan_initial quiet
  rw [bind_of_ok started] at ran
  obtain ⟨_, _, got, ran⟩ := ok_of_bind ran
  rw [get_eq] at got
  obtain ⟨rfl, rfl⟩ := EStateM.Result.ok.inj got
  -- The start reports directives only.
  have directives : first.issues.filter (!·.isOfDirective) = [] := by
    unfold startScan at started
    obtain ⟨_, _, _, registered⟩ := ok_of_bind started
    obtain ⟨_, _, _, registered⟩ := ok_of_bind registered
    exact issues_registerDirectives registered
  have registry' : start.registry = document.registry := agrees.registry_eq
  have resumes : Resumes document.surface start first.ids []
      (Tree.parse start.text).controls := by
    rw [ids]
    exact ⟨sound', rfl, surface, .nil [], fun _ member => (nomatch member), rfl⟩
  obtain ⟨options, kept, rest, controls, last, issues⟩ :=
    resumes.issues_of_scanPasses bare (by rw [registry']; exact valid) ran
  have text : after.text = middle.text := by
    rw [released]
    exact (release_frame middle.buffer).1
  have options' : after.options = middle.options := by rw [released]
  have claimable := scanned.claimable
  rw [registry, text, controls] at claimable
  rw [registry'] at last issues
  rw [text, controls]
  refine ⟨options'.trans (options.trans agrees.options_eq), kept, rest, rfl,
    overtaken_eq claimable last, ?_⟩
  have front : (untyped document.registry kept).filter (!·.isOfDirective) =
      untyped document.registry kept :=
    @filter_complaints middle.text _ _ fun element member => by
      rw [controls]
      exact List.mem_append_left _ (List.mem_filter.mp member).1
  have behind := @filter_complaints middle.text document.registry rest fun element member => by
    rw [controls]
    exact List.mem_append_right _ member
  rw [issues, List.filter_append, directives, List.nil_append, List.filter_append, front, behind]

end Document

end PageDesigner
