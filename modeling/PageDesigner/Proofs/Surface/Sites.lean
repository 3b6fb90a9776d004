import PageDesigner.Control.Builtin
import PageDesigner.Proofs.Surface.Mapping

/-!
# Runs of a container

What an operation of a container may answer and leave behind is said without its code
(`Container.Effect`): a component is sited at the end, under a free identifier or under the name
of its type with the smallest number that is free; a removal takes one site out from between
the others, and a renaming changes its name only; what is refused is refused for a cause and
leaves the container alone.  Every operation does that on a container whose names are distinct
(`Container.effect_run`), and so the names stay distinct identifiers over any run
(`Container.Effect.identified`).
-/

namespace PageDesigner

namespace Container

/-! ## Operations and their effects -/

/-- An operation on a container. -/
inductive Operation where
  | add (name? : Option Text) (component : Component)
  | remove (name : Text)
  | rename (name newName : Text)
  | drain
  deriving DecidableEq, Repr

/-- What an operation answers. -/
inductive Answer where
  | sited (name : Text)
  | removed (component? : Option Component)
  | renamed (previous : Text)
  | drained (sites : List Site)
  | refused (failure : DesignError)
  deriving DecidableEq, Repr

/-- Carrying an operation out gives the answer and the container behind it. -/
def run (container : Container) : Operation → Answer × Container
  | .add name? component =>
      match container.add name? component with
      | .ok (name, added) => (.sited name, added)
      | .error failure => (.refused failure, container)
  | .remove name =>
      match container.remove? name with
      | some (component, rest) => (.removed (some component), rest)
      | none => (.removed none, container)
  | .rename name newName =>
      match container.rename name newName with
      | .ok (previous, renamed) => (.renamed previous, renamed)
      | .error failure => (.refused failure, container)
  | .drain => (.drained container.drained, empty)

/-- Whether some site has the name, letter case aside. -/
def isTaken (container : Container) (name : Text) : Bool := Naming.isTaken container.names name

/-- What an operation may answer, and the container that it then leaves behind, which is the same
one if the operation is refused. -/
inductive Effect (container : Container) : Operation → Answer → Container → Prop where
  /-- A given name is kept if it is a free identifier. -/
  | sited {name : Text} {component : Component} (valid : Naming.isValid name = true)
      (free : container.isTaken name = false) :
      Effect container (.add (some name) component) (.sited name)
        ⟨container.sites ++ [⟨name, component⟩]⟩
  /-- Without one, the name of the type gets the smallest number from one on that is free. -/
  | generated {name? : Option Text} {component : Component} {number : Nat}
      (ungiven : name?.getD [] = []) (positive : 1 ≤ number)
      (few : number ≤ container.sites.length + 1)
      (free : container.isTaken (Naming.numbered component.controlType.name number) = false)
      (smallest : ∀ smaller, 1 ≤ smaller → smaller < number →
        container.isTaken (Naming.numbered component.controlType.name smaller) = true) :
      Effect container (.add name? component)
        (.sited (Naming.numbered component.controlType.name number))
        ⟨container.sites ++ [⟨Naming.numbered component.controlType.name number, component⟩]⟩
  | invalid {name : Text} {component : Component} (given : name ≠ [])
      (invalid : Naming.isValid name = false) :
      Effect container (.add (some name) component) (.refused (.invalidName name)) container
  | taken {name : Text} {component : Component} (valid : Naming.isValid name = true)
      (taken : container.isTaken name = true) :
      Effect container (.add (some name) component) (.refused (.duplicateName name)) container
  /-- The site with the name goes, and the others stay in their order. -/
  | removed {name : Text} {former latter : List Site} {site : Site}
      (sites : container.sites = former ++ site :: latter)
      (named : site.name.sameName name = true) :
      Effect container (.remove name) (.removed (some site.component)) ⟨former ++ latter⟩
  | absent {name : Text} (free : container.isTaken name = false) :
      Effect container (.remove name) (.removed none) container
  /-- The site gets a name that is free among the others, which may be its own. -/
  | renamed {name newName : Text} {former latter : List Site} {site : Site}
      (sites : container.sites = former ++ site :: latter)
      (named : site.name.sameName name = true) (valid : Naming.isValid newName = true)
      (free : isTaken ⟨former ++ latter⟩ newName = false) :
      Effect container (.rename name newName) (.renamed site.name)
        ⟨former ++ { site with name := newName } :: latter⟩
  | unknown {name newName : Text} (free : container.isTaken name = false) :
      Effect container (.rename name newName) (.refused (.componentNotFound name)) container
  | misnamed {name newName : Text} (named : container.isTaken name = true)
      (invalid : Naming.isValid newName = false) :
      Effect container (.rename name newName) (.refused (.invalidName newName)) container
  | clashing {name newName : Text} {former latter : List Site} {site : Site}
      (sites : container.sites = former ++ site :: latter)
      (named : site.name.sameName name = true) (valid : Naming.isValid newName = true)
      (taken : isTaken ⟨former ++ latter⟩ newName = true) :
      Effect container (.rename name newName) (.refused (.duplicateName newName)) container
  | drained : Effect container .drain (.drained container.sites.reverse) empty

/-! ## Taken names -/

theorem isTaken_eq_false {container : Container} {name : Text} :
    container.isTaken name = false ↔ container.site? name = none := by
  rw [site?_eq_none, ← Naming.isTaken_iff, Bool.not_eq_true]
  rfl

theorem isTaken_eq_true {container : Container} {name : Text} :
    container.isTaken name = true ↔ ∃ site ∈ container.sites, site.name.sameName name = true := by
  simp [isTaken, Naming.isTaken, names]

/-- With a site between two others, names are distinct if the name of the site is free among the
others, whose names are distinct. -/
theorem distinct_middle {former latter : List Site} {site : Site} :
    Distinct ⟨former ++ site :: latter⟩ ↔
      isTaken ⟨former ++ latter⟩ site.name = false ∧ Distinct ⟨former ++ latter⟩ := by
  rw [isTaken_eq_false, site?_eq_none]
  unfold Distinct names
  simp only [List.map_append, List.map_cons]
  rw [List.nodup_middle, List.nodup_cons]

/-- With distinct names, no other site has the name of the one in between. -/
theorem apart_of_distinct {former latter : List Site} {site other : Site}
    (distinct : Distinct ⟨former ++ site :: latter⟩) (member : other ∈ former ++ latter) :
    other.name.sameName site.name = false := by
  rw [Bool.eq_false_iff]
  intro same
  have alone := (distinct_middle.mp distinct).1
  rw [isTaken_eq_true.mpr ⟨other, member, same⟩] at alone
  cases alone

/-- The site that a name stands for parts the others. -/
theorem exists_parts {container : Container} {name : Text} {site : Site}
    (found : container.site? name = some site) :
    ∃ former latter, container.sites = former ++ site :: latter ∧
      site.name.sameName name = true ∧
      ∀ other ∈ former, other.name.sameName name = false := by
  obtain ⟨same, former, latter, sites, apart⟩ := List.find?_eq_some_iff_append.mp found
  exact ⟨former, latter, sites, same, fun other member => by simpa using apart other member⟩

/-- A name is free for a site if it is free among the others. -/
theorem freeFor_iff_isTaken {former latter : List Site} {site : Site}
    (distinct : Distinct ⟨former ++ site :: latter⟩) (newName : Text) :
    FreeFor ⟨former ++ site :: latter⟩ newName site ↔
      isTaken ⟨former ++ latter⟩ newName = false := by
  rw [← Bool.not_eq_true, isTaken_eq_true]
  constructor
  · rintro free ⟨other, member, same⟩
    have member' : other ∈ former ++ site :: latter :=
      (List.Sublist.append_left (List.sublist_cons_self site latter) former).subset member
    obtain rfl := free other member' same
    have apart := apart_of_distinct distinct member
    rw [Text.sameName_refl] at apart
    cases apart
  · intro free other member same
    rcases List.mem_append.mp member with before | inside
    · exact absurd ⟨other, List.mem_append_left _ before, same⟩ free
    · rcases List.mem_cons.mp inside with here | behind
      · exact here
      · exact absurd ⟨other, List.mem_append_right _ behind, same⟩ free

/-! ## Every operation does what it may -/

theorem run_add_of_ok {container : Container} {name? : Option Text} {component : Component}
    {name : Text} (chosen : container.nameFor name? component = .ok name) :
    container.run (.add name? component) =
      (.sited name, ⟨container.sites ++ [⟨name, component⟩]⟩) := by
  simp only [run, add, chosen]

theorem run_add_of_error {container : Container} {name? : Option Text} {component : Component}
    {failure : DesignError} (refused : container.nameFor name? component = .error failure) :
    container.run (.add name? component) = (.refused failure, container) := by
  simp only [run, add, refused]

/-- A generated name has the smallest number, which the number of sites bounds. -/
theorem effect_add_generated {container : Container} {name? : Option Text} {component : Component}
    (ungiven : name?.getD [] = [])
    (chosen : container.nameFor name? component =
      .ok (container.nextName component.controlType.name)) :
    Effect container (.add name? component) (container.run (.add name? component)).1
      (container.run (.add name? component)).2 := by
  obtain ⟨number, same, positive, free, smallest, few⟩ :=
    Naming.unused_smallest component.controlType.name container.names
  have fewer := (List.dedup_sublist (container.names.map Text.lower)).length_le
  rw [List.length_map, names, List.length_map] at fewer
  rw [nextName, same] at chosen
  rw [run_add_of_ok chosen]
  exact .generated ungiven positive (Nat.le_trans few (Nat.succ_le_succ fewer)) free smallest

theorem effect_add (container : Container) (name? : Option Text) (component : Component) :
    Effect container (.add name? component) (container.run (.add name? component)).1
      (container.run (.add name? component)).2 := by
  match name? with
  | none => exact effect_add_generated rfl rfl
  | some [] => exact effect_add_generated rfl rfl
  | some (char :: rest) =>
      have chosen : container.nameFor (some (char :: rest)) component =
          if !Naming.isValid (char :: rest) then .error (.invalidName (char :: rest))
          else if container.contains (char :: rest) then .error (.duplicateName (char :: rest))
          else .ok (char :: rest) := rfl
      cases valid : Naming.isValid (char :: rest) with
      | false =>
          rw [valid] at chosen
          rw [run_add_of_error chosen]
          exact .invalid (List.cons_ne_nil _ _) valid
      | true =>
          rw [valid, contains] at chosen
          cases found : container.site? (char :: rest) with
          | none =>
              rw [found] at chosen
              rw [run_add_of_ok chosen]
              exact .sited valid (isTaken_eq_false.mpr found)
          | some site =>
              rw [found] at chosen
              rw [run_add_of_error chosen]
              exact .taken valid
                (isTaken_eq_true.mpr ⟨site, mem_of_site? found, sameName_of_site? found⟩)

theorem effect_remove (container : Container) (name : Text) :
    Effect container (.remove name) (container.run (.remove name)).1
      (container.run (.remove name)).2 := by
  have removes := remove?_eq container name
  cases found : container.site? name with
  | none =>
      rw [found, Option.map_none] at removes
      simp only [run, removes]
      exact .absent (isTaken_eq_false.mpr found)
  | some site =>
      obtain ⟨former, latter, sites, same, apart⟩ := exists_parts found
      have erased : container.sites.eraseP (·.name.sameName name) = former ++ latter :=
        List.eraseP_eq_iff.mpr (.inr ⟨site, former, latter, by simpa using apart, same, sites, rfl⟩)
      rw [found, Option.map_some, erased] at removes
      simp only [run, removes]
      exact .removed sites same

/-- Renaming a site leaves the others as they are. -/
theorem relabelled_parts {former latter : List Site} {site : Site}
    (distinct : Distinct ⟨former ++ site :: latter⟩) {name : Text}
    (named : site.name.sameName name = true) (newName : Text) :
    relabelled ⟨former ++ site :: latter⟩ name newName =
      ⟨former ++ { site with name := newName } :: latter⟩ := by
  have apart : ∀ other ∈ former ++ latter, other.name.sameName name = false := by
    intro other member
    rw [Bool.eq_false_iff]
    intro same
    have apart := apart_of_distinct distinct member
    rw [Text.sameName_comm] at named
    rw [Text.sameName_trans same named] at apart
    cases apart
  have kept : ∀ others ⊆ former ++ latter, others.map (fun other =>
      { other with name := Text.renamed name newName other.name }) = others := by
    intro others within
    refine (List.map_congr_left fun other member => ?_).trans (List.map_id others)
    rw [Text.renamed, apart other (within member)]
    rfl
  unfold relabelled
  rw [List.map_append, List.map_cons, kept former (List.subset_append_left _ _),
    kept latter (List.subset_append_right _ _), Text.renamed, named, if_pos rfl]

/-! ### What is not renamed -/

section Refused

variable {container : Container} {name newName : Text} {site : Site}

theorem exists_position? (found : container.site? name = some site) :
    ∃ index, container.position? name = some index ∧ container.sites[index]? = some site := by
  cases place : container.position? name with
  | none => rw [position?_eq_none.mp place] at found; cases found
  | some index => exact ⟨index, rfl, (site?_of_position? place).symm.trans found⟩

theorem rename_of_unknown (absent : container.site? name = none) (newName : Text) :
    container.rename name newName = .error (.componentNotFound name) := by
  unfold rename
  rw [position?_eq_none.mpr absent]

theorem rename_of_invalid (found : container.site? name = some site)
    (invalid : Naming.isValid newName = false) :
    container.rename name newName = .error (.invalidName newName) := by
  obtain ⟨index, place, -⟩ := exists_position? found
  simp only [rename, place, invalid, Bool.not_false, if_true]

theorem rename_of_clash (distinct : container.Distinct) (found : container.site? name = some site)
    (valid : Naming.isValid newName = true) (clash : ¬ container.FreeFor newName site) :
    container.rename name newName = .error (.duplicateName newName) := by
  obtain ⟨index, place, there⟩ := exists_position? found
  rw [← freeFor_iff distinct there, Bool.not_eq_false] at clash
  simp only [rename, place, valid, clash, Bool.not_true, Bool.false_eq_true, if_false, if_true]

end Refused

theorem effect_rename {container : Container} (distinct : container.Distinct)
    (name newName : Text) :
    Effect container (.rename name newName) (container.run (.rename name newName)).1
      (container.run (.rename name newName)).2 := by
  cases found : container.site? name with
  | none =>
      simp only [run, rename_of_unknown found]
      exact .unknown (isTaken_eq_false.mpr found)
  | some site =>
      obtain ⟨former, latter, sites, same, -⟩ := exists_parts found
      obtain rfl : container = ⟨former ++ site :: latter⟩ := congrArg Container.mk sites
      have free_iff := freeFor_iff_isTaken distinct newName
      cases valid : Naming.isValid newName with
      | false =>
          simp only [run, rename_of_invalid found valid]
          exact .misnamed (isTaken_eq_true.mpr ⟨site, mem_of_site? found, same⟩) valid
      | true =>
          cases taken : isTaken ⟨former ++ latter⟩ newName with
          | false =>
              have renamed := rename_eq distinct found valid (free_iff.mpr taken)
              rw [relabelled_parts distinct same] at renamed
              simp only [run, renamed]
              exact .renamed rfl same valid taken
          | true =>
              have clash : ¬ FreeFor ⟨former ++ site :: latter⟩ newName site := by
                rw [free_iff, taken]
                exact nofun
              simp only [run, rename_of_clash distinct found valid clash]
              exact .clashing rfl same valid taken

/-- Every operation does what it may, if no two names are equal up to letter case. -/
theorem effect_run {container : Container} (distinct : container.Distinct) (operation : Operation) :
    Effect container operation (container.run operation).1 (container.run operation).2 := by
  cases operation with
  | add name? component => exact effect_add container name? component
  | remove name => exact effect_remove container name
  | rename name newName => exact effect_rename distinct name newName
  | drain => exact .drained

/-! ## Names over a run -/

/-- No two names are equal up to letter case, and every name is an identifier. -/
structure Identified (container : Container) : Prop where
  distinct : container.Distinct
  valid : ∀ site ∈ container.sites, Naming.isValid site.name = true

/-- Whether the name of the type of an added component is an identifier. -/
def Operation.isTyped : Operation → Bool
  | .add _ component => Naming.isValid component.controlType.name
  | _ => true

theorem identified_empty : Identified empty := ⟨distinct_empty, fun _ member => nomatch member⟩

/-- A site with a free identifier fits between the others. -/
theorem Identified.insert {former latter : List Site} (identified : Identified ⟨former ++ latter⟩)
    {site : Site} (valid : Naming.isValid site.name = true)
    (free : isTaken ⟨former ++ latter⟩ site.name = false) :
    Identified ⟨former ++ site :: latter⟩ := by
  refine ⟨distinct_middle.mpr ⟨free, identified.distinct⟩, fun other member => ?_⟩
  rcases List.mem_append.mp member with before | inside
  · exact identified.valid other (List.mem_append_left _ before)
  · rcases List.mem_cons.mp inside with rfl | behind
    · exact valid
    · exact identified.valid other (List.mem_append_right _ behind)

theorem Identified.erase {former latter : List Site} {site : Site}
    (identified : Identified ⟨former ++ site :: latter⟩) : Identified ⟨former ++ latter⟩ :=
  ⟨(distinct_middle.mp identified.distinct).2, fun other member => identified.valid other
    ((List.Sublist.append_left (List.sublist_cons_self site latter) former).subset member)⟩

theorem Identified.append {container : Container} (identified : container.Identified) {site : Site}
    (valid : Naming.isValid site.name = true) (free : container.isTaken site.name = false) :
    Identified ⟨container.sites ++ [site]⟩ := by
  have whole : (⟨container.sites ++ []⟩ : Container) = container :=
    congrArg Container.mk (List.append_nil _)
  exact insert (whole.symm ▸ identified) valid (whole.symm ▸ free)

/-- What an operation may leave behind has distinct identifiers for names. -/
theorem Effect.identified {container after : Container} {operation : Operation} {answer : Answer}
    (effect : Effect container operation answer after) (typed : operation.isTyped = true)
    (identified : container.Identified) : after.Identified := by
  cases effect with
  | sited valid free => exact identified.append valid free
  | generated _ _ _ free _ => exact identified.append (Naming.isValid_numbered typed _) free
  | removed sites _ =>
      obtain rfl : container = _ := congrArg Container.mk sites
      exact identified.erase
  | renamed sites _ valid free =>
      obtain rfl : container = _ := congrArg Container.mk sites
      exact identified.erase.insert valid free
  | drained => exact identified_empty
  | _ => exact identified

/-- The container behind a run of operations that begins with nothing sited. -/
def ranFromEmpty (operations : List Operation) : Container :=
  operations.foldl (fun container operation => (container.run operation).2) empty

theorem identified_ranFromEmpty {operations : List Operation}
    (typed : ∀ operation ∈ operations, operation.isTyped = true) :
    (ranFromEmpty operations).Identified :=
  List.foldlRecOn operations _ identified_empty fun _ identified operation member =>
    (effect_run identified.distinct operation).identified (typed operation member) identified

/--
Whatever is added, removed, renamed and drained, if the names of the types of what is added are
identifiers: the names of the sites are identifiers, no two of them are equal up to letter case,
and the next operation does what it may.
-/
theorem identified_behind_operations (operations : List Operation)
    (typed : ∀ operation ∈ operations, operation.isTyped = true) :
    (ranFromEmpty operations).Identified ∧
      ∀ operation, Effect (ranFromEmpty operations) operation
        ((ranFromEmpty operations).run operation).1 ((ranFromEmpty operations).run operation).2 :=
  have identified := identified_ranFromEmpty typed
  ⟨identified, effect_run identified.distinct⟩

/-- A run with two generated names, of which the first one is freed again, a name that changes its
letter case only, and one that is refused. -/
def gapRun : List Operation :=
  [.add none (.fresh Builtin.button), .add (some []) (.fresh Builtin.button),
    .add (some "save") (.fresh Builtin.label), .remove "BUTTON1", .rename "Save" "SAVE",
    .rename "button2" "save"]

/-- A name that is generated behind the run fills the gap. -/
theorem identified_behind_gapRun :
    (∀ operation ∈ gapRun, operation.isTyped = true) ∧
      (ranFromEmpty gapRun).Identified ∧
      Effect ⟨[⟨"Button2", .fresh Builtin.button⟩, ⟨"SAVE", .fresh Builtin.label⟩]⟩
        (.add none (.fresh Builtin.button)) (.sited "Button1")
        ⟨[⟨"Button2", .fresh Builtin.button⟩, ⟨"SAVE", .fresh Builtin.label⟩,
          ⟨"Button1", .fresh Builtin.button⟩]⟩ := by
  have typed : ∀ operation ∈ gapRun, operation.isTyped = true := by decide
  have behind : ranFromEmpty gapRun =
      ⟨[⟨"Button2", .fresh Builtin.button⟩, ⟨"SAVE", .fresh Builtin.label⟩]⟩ := by decide
  obtain ⟨identified, effect⟩ := identified_behind_operations gapRun typed
  have generated := effect (.add none (.fresh Builtin.button))
  rw [behind] at generated
  exact ⟨typed, identified, generated⟩

end Container

end PageDesigner
