import PageDesigner.Proofs.Document.FirstScan
import PageDesigner.Proofs.Document.Insertion

/-!
# Tags without a usable id

The tags that lack an id are found in one walk over the tags of a text
(`lackingFrom`): a tag of a known type lacks one when it has none, or one that cannot
name a component because of its form, of the root, or of a tag in front.  A pass of a
scan stops at the first of them.

Which tags lack an id depends on what the tags say, not on their places
(`lackingFrom_congr`), and an id that is new to all of them changes nothing for the
tags behind it (`lackingFrom_renewed`).
-/

namespace PageDesigner

namespace ScanPass

/-- Whether an id can name a component of its own, given the ids of the tags in front in small
letters. -/
def canName (surface : Surface) (earlier : List Text) (id : Text) : Bool :=
  Naming.isValid id && !surface.isRoot id && !earlier.contains id.lower

/-- The tags of known types that lack a usable id: it is missing or empty, no identifier, the name
of the root, or the id of a tag in front up to letter case. -/
def lackingFrom (registry : Registry) (surface : Surface) : List Text → List Tag → List Tag
  | _, [] => []
  | earlier, tag :: rest =>
      if (registry.resolve? tag.name).isNone then lackingFrom registry surface earlier rest
      else
        let later :=
          lackingFrom registry surface (earlier ++ tag.id?.toList.map Text.lower) rest
        if tag.id?.any (canName surface earlier) then later else tag :: later

variable {registry : Registry} {surface : Surface} {earlier : List Text} {tag : Tag}

theorem canName_append (surface : Surface) (earlier more : List Text) (id : Text) :
    canName surface (earlier ++ more) id =
      (canName surface earlier id && !more.contains id.lower) := by
  unfold canName
  rw [List.contains_append, Bool.not_or]
  exact (Bool.and_assoc _ _ _).symm

theorem canName_congr {first second : Text} (same : first.lower = second.lower) :
    canName surface earlier first = canName surface earlier second := by
  unfold canName
  rw [Naming.isValid_congr same, Surface.isRoot_congr (Text.sameName_iff.mpr same), same]

theorem usableId?_isNone {pass : ScanPass} (root : surface.root? = pass.surface.root?)
    (tag : Tag) : (pass.usableId? tag).isNone = !tag.id?.any (canName surface pass.claimed) := by
  unfold usableId? canName Surface.isRoot
  rw [root]
  cases tag.id? with
  | none => rfl
  | some id =>
      rw [Option.any_some, Option.filter_some, Bool.and_right_comm]
      split
      · next usable => rw [usable]; rfl
      · next lacks => rw [Bool.eq_false_iff.mpr lacks]; rfl

theorem lackingFrom_unknown (resolved : registry.resolve? tag.name = none) (earlier : List Text)
    (rest : List Tag) :
    lackingFrom registry surface earlier (tag :: rest) =
      lackingFrom registry surface earlier rest := by
  rw [lackingFrom, resolved]
  rfl

theorem lackingFrom_known {controlType : ControlType}
    (resolved : registry.resolve? tag.name = some controlType) (rest : List Tag) :
    lackingFrom registry surface earlier (tag :: rest) =
      (if tag.id?.any (canName surface earlier) then [] else [tag]) ++
        lackingFrom registry surface (earlier ++ tag.id?.toList.map Text.lower) rest := by
  rw [lackingFrom, resolved]
  cases tag.id?.any (canName surface earlier) <;> rfl

theorem length_lackingFrom_le (registry : Registry) (surface : Surface) (earlier : List Text)
    (tags : List Tag) : (lackingFrom registry surface earlier tags).length ≤ tags.length := by
  induction tags generalizing earlier with
  | nil => exact Nat.le_refl 0
  | cons tag rest ih =>
      cases resolved : registry.resolve? tag.name with
      | none =>
          rw [lackingFrom_unknown resolved]
          exact Nat.le_succ_of_le (ih earlier)
      | some controlType =>
          rw [lackingFrom_known resolved, List.length_append, List.length_cons, Nat.add_comm]
          refine Nat.add_le_add (ih _) ?_
          split
          · exact Nat.zero_le 1
          · exact Nat.le_refl 1

/-- It does not matter where the tags stand. -/
theorem lackingFrom_congr {document document' : Document} {tags tags' : List Tag}
    (same : tags'.map document'.profile = tags.map document.profile) (earlier : List Text) :
    (lackingFrom registry surface earlier tags').map document'.profile =
      (lackingFrom registry surface earlier tags).map document.profile := by
  induction tags generalizing tags' earlier with
  | nil =>
      rw [List.map_nil, List.map_eq_nil_iff] at same
      rw [same]
      rfl
  | cons tag rest ih =>
      obtain ⟨tag', rest', rfl, here, later⟩ := List.map_eq_cons_iff.mp same
      have name : tag'.name = tag.name := congrArg Profile.name here
      have id : tag'.id? = tag.id? := by
        rw [← Tag.id?_entries, ← Tag.id?_entries]
        exact congrArg (Entry.id? ·.entries) here
      cases resolved : registry.resolve? tag.name with
      | none =>
          rw [lackingFrom_unknown resolved, lackingFrom_unknown (by rw [name]; exact resolved)]
          exact ih later earlier
      | some controlType =>
          rw [lackingFrom_known resolved, lackingFrom_known (by rw [name]; exact resolved), id,
            List.map_append, List.map_append, ih later]
          refine congrArg (· ++ _) ?_
          split
          · rfl
          · rw [List.map_singleton, List.map_singleton, here]

/-- Ids in front count as far as they decide about the ids behind them. -/
theorem lackingFrom_of_canName {earlier earlier' : List Text} {tags : List Tag}
    (same : ∀ tag ∈ tags, ∀ id, tag.id? = some id →
      canName surface earlier id = canName surface earlier' id) :
    lackingFrom registry surface earlier tags = lackingFrom registry surface earlier' tags := by
  induction tags generalizing earlier earlier' with
  | nil => rfl
  | cons tag rest ih =>
      have later : ∀ more : List Text,
          lackingFrom registry surface (earlier ++ more) rest =
            lackingFrom registry surface (earlier' ++ more) rest := by
        refine fun more => ih fun tag member id named => ?_
        rw [canName_append, canName_append, same tag (List.mem_cons_of_mem _ member) id named]
      cases resolved : registry.resolve? tag.name with
      | none =>
          rw [lackingFrom_unknown resolved, lackingFrom_unknown resolved]
          have plain := later []
          rw [List.append_nil, List.append_nil] at plain
          exact plain
      | some controlType =>
          have here : tag.id?.any (canName surface earlier) =
              tag.id?.any (canName surface earlier') := by
            cases named : tag.id? with
            | none => rfl
            | some id => exact same tag List.mem_cons_self id named
          rw [lackingFrom_known resolved, lackingFrom_known resolved, here, later]

/-- An id that could not name a component may be exchanged for one that no tag behind has. -/
theorem lackingFrom_renewed {tags : List Tag} {old? : Option Text} {new : Text}
    (lacks : old?.any (canName surface earlier) = false)
    (fresh : ∀ tag ∈ tags, ∀ id, tag.id? = some id → id.lower ≠ new.lower) :
    lackingFrom registry surface (earlier ++ [new.lower]) tags =
      lackingFrom registry surface (earlier ++ old?.toList.map Text.lower) tags := by
  refine lackingFrom_of_canName fun tag member id named => ?_
  rw [canName_append, canName_append]
  have apart : ([new.lower] : List Text).contains id.lower = false := by
    simpa using fresh tag member id named
  rw [apart]
  cases old? with
  | none => rfl
  | some old =>
      by_cases same : id.lower = old.lower
      · have unusable : canName surface earlier old = false := lacks
        rw [canName_congr same, unusable, Bool.false_and, Bool.false_and]
      · have apart' : ([old.lower] : List Text).contains id.lower = false := by simpa using same
        exact congrArg (fun taken => canName surface earlier id && !taken) apart'.symm

/-- The tag that lacked an id lacks none when it takes the new one, and still lacks one otherwise;
nothing changes for the tags behind it. -/
theorem lackingFrom_edited {document document' : Document} {edited : Tag} {rest behind : List Tag}
    {controlType : ControlType} {new : Text} {takes : Bool}
    (resolved : registry.resolve? edited.name = some controlType)
    (lacks : tag.id?.any (canName surface earlier) = false)
    (can : canName surface earlier new = true)
    (fresh : ∀ tag ∈ rest, ∀ id, tag.id? = some id → id.lower ≠ new.lower)
    (id : edited.id? = if takes then some new else none) (missing : takes = false → tag.id? = none)
    (profiles : behind.map document'.profile = rest.map document.profile) :
    (lackingFrom registry surface earlier (edited :: behind)).map document'.profile =
      (if takes then [] else [document'.profile edited]) ++
        (lackingFrom registry surface (earlier ++ tag.id?.toList.map Text.lower) rest).map
          document.profile := by
  rw [lackingFrom_known resolved, id, List.map_append]
  cases takes with
  | true =>
      rw [if_pos rfl, if_pos rfl, Option.any_some, can, if_pos rfl, List.map_nil,
        ← lackingFrom_renewed lacks fresh]
      exact lackingFrom_congr profiles _
  | false =>
      rw [if_neg Bool.false_ne_true, if_neg Bool.false_ne_true, missing rfl, Option.any_none,
        if_neg Bool.false_ne_true, List.map_singleton]
      exact congrArg (_ :: ·) (lackingFrom_congr profiles _)

/-- A pass has walked over tags that lack no id. -/
theorem Walk.lackingFrom_eq {mode : ScanMode} {pass final : ScanPass} {elements : List Element}
    (walk : Walk registry mode pass elements final) (root : surface.root? = pass.surface.root?)
    (rest : List Tag) :
    lackingFrom registry surface pass.claimed (elements.map (·.toTag) ++ rest) =
      lackingFrom registry surface final.claimed rest := by
  induction walk with
  | done => rfl
  | unknown resolved _ _ ih =>
      rw [List.map_cons, List.cons_append, lackingFrom_unknown resolved]
      exact ih root
  | @known pass after final element _ _ id resolved usable settled _ ih =>
      have named : element.toTag.id? = some id := (usableId?_eq_some.mp usable).1
      have can := usableId?_isNone root element.toTag
      rw [usable, named, Option.any_some] at can
      have can' : canName surface pass.claimed id = true := (Bool.not_eq_false' _).mp can.symm
      rw [List.map_cons, List.cons_append, lackingFrom_known resolved, named, Option.any_some,
        can', if_pos rfl, List.nil_append, ← ih (root.trans settled.settles.root?_eq.symm),
        settled.claimed_eq]
      rfl

/-- None of the tags that a pass has walked over lacks an id. -/
theorem Walk.lackingFrom_nil {mode : ScanMode} {pass final : ScanPass} {elements : List Element}
    (walk : Walk registry mode pass elements final) (root : surface.root? = pass.surface.root?) :
    lackingFrom registry surface pass.claimed (elements.map (·.toTag)) = [] := by
  have none' := walk.lackingFrom_eq root []
  rw [List.append_nil] at none'
  exact none'

/-- No tag lacks an id when all can be claimed. -/
theorem Claimable.lackingFrom_eq {elements : List Element}
    (claimable : Claimable registry surface earlier elements) :
    lackingFrom registry surface earlier (elements.map (·.toTag)) = [] := by
  induction claimable with
  | nil => rfl
  | unknown resolved _ ih =>
      rw [List.map_cons, lackingFrom_unknown resolved]
      exact ih
  | @known earlier element _ _ id resolved named valid fresh notRoot _ ih =>
      have named' : element.toTag.id? = some id := named
      have can : canName surface earlier id = true := by
        unfold canName
        rw [valid, notRoot]
        simpa using fresh
      rw [List.map_cons, lackingFrom_known resolved, named', Option.any_some, can, if_pos rfl]
      exact ih

end ScanPass

end PageDesigner
