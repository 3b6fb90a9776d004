import PageDesigner.Proofs.Document.Convergence

/-!
# Ids from turn to turn

A turn of a first scan writes an id into the first tag that lacks a usable one.  Here a turn
is seen in the profiles of a text alone (`Turn`): the tags in front and behind say what they
said, and the tag itself has the new id then, or still has none.

A tag whose id is usable keeps its profile and its place (`Turn.stays`), so it does through
all turns (`Turns.stays`).  A tag that has not taken its id is the first one that lacks an id
in the next turn and gets the same id again (`Turns.again`).  So in the end each id that was
chosen is that of one tag (`Turns.sole`).
-/

namespace PageDesigner

open ScanPass (canName)

theorem ScanPass.canName_iff {surface : Surface} {earlier : List Text} {id : Text} :
    canName surface earlier id = true ↔
      Naming.isValid id = true ∧ surface.isRoot id = false ∧ id.lower ∉ earlier := by
  simp [canName, and_assoc]

namespace Profile

/-- The id that the tag states. -/
def id? (profile : Profile) : Option Text := Entry.id? profile.entries

variable (registry : Registry) (base : Surface)

/-- The type that the tag stands for as a server control. -/
def controlType? (profile : Profile) : Option ControlType :=
  if profile.isControl then registry.resolve? profile.name else none

/-- The ids of the server controls of known types. -/
def claims (profiles : List Profile) : List Text :=
  profiles.filterMap fun profile => (profile.controlType? registry).bind fun _ => profile.id?

/-- Whether the tag stands for a type and lacks a usable id, given what the tags in front say. -/
def lacks (front : List Profile) (profile : Profile) : Bool :=
  (profile.controlType? registry).isSome &&
    !profile.id?.any (canName base ((claims registry front).map Text.lower))

/-- No tag lacks a usable id. -/
def Usable (profiles : List Profile) : Prop :=
  ∀ front profile rest, profiles = front ++ profile :: rest →
    lacks registry base front profile = false

/-- One of the tags has the id and can use it; no other one has it, up to letter case. -/
def Sole (id : Text) (profiles : List Profile) : Prop :=
  ∃ front profile rest, profiles = front ++ profile :: rest ∧ profile.id? = some id ∧
    lacks registry base front profile = false ∧
    ∀ other ∈ front ++ rest, ∀ named, other.id? = some named → named.lower ≠ id.lower

/-- The first tag that lacks a usable id gets a new one.  It has this id then, or it has none as
before. -/
structure Turn (former : List Profile) (tag edited : Profile) (latter : List Profile) (id : Text) :
    Prop where
  usable : Usable registry base former
  lacks : lacks registry base former tag = true
  chosen : ∃ controlType, tag.controlType? registry = some controlType ∧
    id = Naming.unused controlType.name (base.container.names ++ claims registry former ++
      (former ++ tag :: latter).filterMap id?)
  can : canName base ((claims registry former).map Text.lower) id = true
  type_eq : edited.controlType? registry = tag.controlType? registry
  taken : edited.id? = some id ∨ edited.id? = none ∧ tag.id? = none

/-- Turns up to the one in which no tag lacks an id, with the ids that they choose. -/
inductive Turns : List Profile → List Text → List Profile → Prop
  | settled {profiles : List Profile} (usable : Usable registry base profiles) :
      Turns profiles [] profiles
  | turn {former latter last : List Profile} {tag edited : Profile} {id : Text}
      {ids : List Text} (first : Turn registry base former tag edited latter id)
      (later : Turns (former ++ edited :: latter) ids last) :
      Turns (former ++ tag :: latter) (id :: ids) last

variable {registry : Registry} {base : Surface} {former latter : List Profile}
  {tag edited : Profile} {id : Text}

theorem claims_append (first second : List Profile) :
    claims registry (first ++ second) = claims registry first ++ claims registry second :=
  List.filterMap_append

theorem lacks_eq_false_iff {front : List Profile} {profile : Profile} :
    lacks registry base front profile = false ↔ profile.controlType? registry = none ∨
      ∃ named, profile.id? = some named ∧
        canName base ((claims registry front).map Text.lower) named = true := by
  unfold lacks
  rw [Bool.and_eq_false_iff, Option.isSome_eq_false_iff, Option.isNone_iff_eq_none,
    Bool.not_eq_false', Option.any_eq_true]

/-- What a tag claims is its id. -/
theorem mem_claims_cons {claimed : Text} {rest : List Profile}
    (member : claimed ∈ claims registry (tag :: rest)) :
    tag.id? = some claimed ∨ claimed ∈ claims registry rest := by
  obtain ⟨profile, listed, claims'⟩ := List.mem_filterMap.mp member
  rcases List.mem_cons.mp listed with rfl | later
  · obtain ⟨_, _, named⟩ := Option.bind_eq_some_iff.mp claims'
    exact .inl named
  · exact .inr (List.mem_filterMap.mpr ⟨profile, later, claims'⟩)

/-- The first tag that lacks an id is one tag. -/
theorem first_lacking {former' latter' : List Profile} {tag' : Profile}
    (same : former ++ tag :: latter = former' ++ tag' :: latter')
    (usable : Usable registry base former) (lacking : lacks registry base former tag = true)
    (usable' : Usable registry base former') (lacking' : lacks registry base former' tag' = true) :
    former = former' ∧ tag = tag' ∧ latter = latter' := by
  rcases List.append_eq_append_iff.mp same with ⟨more, rfl, behind⟩ | ⟨more, rfl, behind⟩
  · cases more with
    | nil => simpa using behind
    | cons head more =>
        obtain ⟨rfl, _⟩ := List.cons.inj behind
        rw [usable' former _ more rfl] at lacking
        cases lacking
  · cases more with
    | nil => simpa [eq_comm] using behind
    | cons head more =>
        obtain ⟨rfl, _⟩ := List.cons.inj behind
        rw [usable former' _ more rfl] at lacking'
        cases lacking'

/-! ## One turn -/

namespace Turn

variable (turn : Turn registry base former tag edited latter id)

include turn

/-- The new id differs from every other one up to letter case. -/
theorem fresh {profile : Profile} (member : profile ∈ former ++ tag :: latter) {named : Text}
    (has : profile.id? = some named) : named.lower ≠ id.lower := by
  obtain ⟨controlType, _, rfl⟩ := turn.chosen
  intro same
  have free := Naming.unused_free controlType.name (base.container.names ++
    claims registry former ++ (former ++ tag :: latter).filterMap id?)
  have listed : named ∈ base.container.names ++ claims registry former ++
      (former ++ tag :: latter).filterMap id? :=
    List.mem_append_right _ (List.mem_filterMap.mpr ⟨profile, member, has⟩)
  have found := List.mem_map_of_mem (f := Text.lower) listed
  rw [same] at found
  rw [Naming.isTaken_iff.mpr found] at free
  cases free

/-- A tag behind the edited one can use the id that it could use before. -/
theorem usable_behind {more rest : List Profile} {profile : Profile}
    (behind : latter = more ++ profile :: rest)
    (usable : Profile.lacks registry base (former ++ tag :: more) profile = false) :
    Profile.lacks registry base (former ++ edited :: more) profile = false := by
  rcases lacks_eq_false_iff.mp usable with unknown | ⟨named, has, can⟩
  · exact lacks_eq_false_iff.mpr (.inl unknown)
  · obtain ⟨valid, notRoot, unclaimed⟩ := ScanPass.canName_iff.mp can
    refine lacks_eq_false_iff.mpr (.inr ⟨named, has,
      ScanPass.canName_iff.mpr ⟨valid, notRoot, fun claimed => ?_⟩⟩)
    obtain ⟨other, member, same⟩ := List.mem_map.mp claimed
    rw [claims_append] at member unclaimed
    rcases List.mem_append.mp member with before | member
    · exact unclaimed (List.mem_map.mpr ⟨other, List.mem_append_left _ before, same⟩)
    rcases mem_claims_cons member with new | later
    · rcases turn.taken with takes | ⟨none', _⟩
      · obtain rfl := Option.some.inj (takes.symm.trans new)
        exact turn.fresh (by rw [behind]; simp) has same.symm
      · rw [none'] at new
        cases new
    · refine unclaimed (List.mem_map.mpr ⟨other, List.mem_append_right _ ?_, same⟩)
      exact ((List.sublist_cons_self tag more).filterMap _).subset later

/-- A tag with a usable id keeps its profile, its place and its id; of the others, only one is
edited. -/
theorem stays {front rest : List Profile} {profile : Profile}
    (split : former ++ tag :: latter = front ++ profile :: rest)
    (usable : Profile.lacks registry base front profile = false) :
    ∃ front' rest', former ++ edited :: latter = front' ++ profile :: rest' ∧
      front'.length = front.length ∧ Profile.lacks registry base front' profile = false ∧
      ∀ other ∈ front' ++ rest', other = edited ∨ other ∈ front ++ rest := by
  rcases List.append_eq_append_iff.mp split with ⟨more, rfl, behind⟩ | ⟨more, rfl, behind⟩
  · cases more with
    | nil =>
        obtain ⟨rfl, _⟩ := List.cons.inj behind
        rw [List.append_nil, turn.lacks] at usable
        cases usable
    | cons head more =>
        rw [List.cons_append] at behind
        obtain ⟨rfl, later⟩ := List.cons.inj behind
        refine ⟨former ++ edited :: more, rest, by rw [later]; simp, by simp,
          turn.usable_behind later usable, fun other member => ?_⟩
        simp only [List.mem_append, List.mem_cons] at member ⊢
        tauto
  · cases more with
    | nil =>
        obtain ⟨rfl, _⟩ := List.cons.inj behind
        rw [← List.append_nil front, turn.lacks] at usable
        cases usable
    | cons head more =>
        rw [List.cons_append] at behind
        obtain ⟨rfl, rfl⟩ := List.cons.inj behind
        refine ⟨front, more ++ edited :: latter, by simp, rfl, usable, fun other member => ?_⟩
        simp only [List.mem_append, List.mem_cons] at member ⊢
        tauto

/-- An id that is that of one tag stays so. -/
theorem keeps_sole {held : Text} (sole : Sole registry base held (former ++ tag :: latter)) :
    Sole registry base held (former ++ edited :: latter) := by
  obtain ⟨front, profile, rest, split, has, usable, apart⟩ := sole
  obtain ⟨front', rest', split', _, usable', others⟩ := turn.stays split usable
  refine ⟨front', profile, rest', split', has, usable', fun other member named has' => ?_⟩
  rcases others other member with rfl | before
  · rcases turn.taken with takes | ⟨none', _⟩
    · obtain rfl := Option.some.inj (takes.symm.trans has')
      exact (turn.fresh (by rw [split]; simp) has).symm
    · rw [none'] at has'
      cases has'
  · exact apart other before named has'

/-- An id that the tag takes is that of one tag. -/
theorem sole_of_takes (takes : edited.id? = some id) :
    Sole registry base id (former ++ edited :: latter) := by
  refine ⟨former, edited, latter, rfl, takes, ?_, fun other member named has => ?_⟩
  · exact lacks_eq_false_iff.mpr (.inr ⟨id, takes, turn.can⟩)
  · refine turn.fresh ?_ has
    rcases List.mem_append.mp member with before | behind
    · exact List.mem_append_left _ before
    · exact List.mem_append_right _ (List.mem_cons_of_mem _ behind)

end Turn

/-! ## All turns -/

namespace Turns

variable {profiles last : List Profile} {ids : List Text}

/-- A tag with a usable id keeps its profile and its place through all turns. -/
theorem stays (turns : Turns registry base profiles ids last) {front rest : List Profile}
    {profile : Profile} (split : profiles = front ++ profile :: rest)
    (usable : Profile.lacks registry base front profile = false) :
    ∃ front' rest', last = front' ++ profile :: rest' ∧ front'.length = front.length := by
  induction turns generalizing front rest with
  | settled => exact ⟨front, rest, split, rfl⟩
  | turn first _ ih =>
      obtain ⟨front', rest', split', length, usable', _⟩ := first.stays split usable
      obtain ⟨front'', rest'', split'', length'⟩ := ih split' usable'
      exact ⟨front'', rest'', split'', length'.trans length⟩

theorem keeps_sole (turns : Turns registry base profiles ids last) {held : Text}
    (sole : Sole registry base held profiles) : Sole registry base held last := by
  induction turns with
  | settled => exact sole
  | turn first _ ih => exact ih (first.keeps_sole sole)

/-- A tag that has not taken its id is the next one to get an id, and gets the same. -/
theorem again (first : Turn registry base former tag edited latter id)
    (later : Turns registry base (former ++ edited :: latter) ids last)
    (refuses : edited.id? = none ∧ tag.id? = none) : ∃ more, ids = id :: more := by
  have lacking : Profile.lacks registry base former edited = true := by
    have before := first.lacks
    unfold Profile.lacks at before ⊢
    rw [refuses.2] at before
    rw [refuses.1, first.type_eq]
    exact before
  generalize same : former ++ edited :: latter = profiles at later
  cases later with
  | settled usable =>
      rw [usable former edited latter same.symm] at lacking
      cases lacking
  | turn second _ =>
      obtain ⟨rfl, rfl, rfl⟩ := first_lacking same first.usable lacking second.usable second.lacks
      obtain ⟨controlType, type, chosen⟩ := first.chosen
      obtain ⟨controlType', type', chosen'⟩ := second.chosen
      rw [first.type_eq, type] at type'
      obtain rfl := Option.some.inj type'
      have ids : (former ++ edited :: latter).filterMap id? =
          (former ++ tag :: latter).filterMap id? := by
        rw [List.filterMap_append, List.filterMap_append, List.filterMap_cons_none refuses.1,
          List.filterMap_cons_none refuses.2]
      rw [chosen', ids, ← chosen]
      exact ⟨_, rfl⟩

/-- In the end each id that was chosen is that of one tag. -/
theorem sole (turns : Turns registry base profiles ids last) {id : Text} (member : id ∈ ids) :
    Sole registry base id last := by
  induction turns with
  | settled => cases member
  | turn first later ih =>
      rcases List.mem_cons.mp member with rfl | behind
      · rcases first.taken with takes | refuses
        · exact later.keeps_sole (first.sole_of_takes takes)
        · obtain ⟨more, rfl⟩ := again first later refuses
          exact ih List.mem_cons_self
      · exact ih behind

end Turns

end Profile

end PageDesigner
