import Mathlib.Data.List.Perm.Basic
import PageDesigner.Json.Record
import PageDesigner.Proofs.Json.Value

/-!
# Records are read from objects

An object states a record by its members, in any order (`IsRecord`).  As long as no field
is stated twice, the two readers of records, the one for documents and the one for values
inside of a document, find the same fields (`fields_of_isRecord`).  What a field of each
type holds is read back from its value.
-/

namespace PageDesigner.JsonValue

/-- The value is the object with the stated members, in any order. -/
def IsRecord (stated : List (Text × JsonValue)) : JsonValue → Prop
  | object members => members.Perm (stated.map fun (name, value) => (some name, value))
  | _ => False

variable {stated : List (Text × JsonValue)} {value : JsonValue}

theorem IsRecord.exists_members (record : value.IsRecord stated) :
    ∃ members, value = object members ∧
      members.Perm (stated.map fun (name, value) => (some name, value)) := by
  cases value with
  | object members => exact ⟨members, rfl, record⟩
  | _ => exact record.elim

/-! ## Fields -/

/-- Among members of different names, those of one name are what is listed for it. -/
theorem membersNamed_stated (distinct : (stated.map (·.1)).Nodup) (name : Text) :
    membersNamed (stated.map fun (name, value) => (some name, value)) name =
      (stated.lookup name).toList := by
  induction stated with
  | nil => rfl
  | cons entry rest ih =>
      obtain ⟨own, value⟩ := entry
      obtain ⟨absent, distinct⟩ := List.nodup_cons.mp distinct
      have later := ih distinct
      unfold membersNamed at later ⊢
      by_cases same : own = name
      · subst same
        have none' : rest.lookup own = none := by
          refine List.lookup_eq_none_iff.mpr fun entry member => bne_iff_ne.mpr ?_
          rintro rfl
          exact absent (List.mem_map.mpr ⟨entry, member, rfl⟩)
        rw [none'] at later
        simp [later]
      · have differs : (name == own) = false := beq_eq_false_iff_ne.mpr (Ne.symm same)
        rw [List.lookup_cons, differs, ← later, List.map_cons, List.filter_cons_of_neg]
        simpa using same

theorem membersNamed_perm {members others : List (Option Text × JsonValue)}
    (same : members.Perm others) (name : Text) :
    (membersNamed members name).Perm (membersNamed others name) :=
  (same.filter _).map _

/-- A record states one value at most for a field. -/
theorem IsRecord.membersNamed_eq {members : List (Option Text × JsonValue)}
    (record : (object members).IsRecord stated) (distinct : (stated.map (·.1)).Nodup)
    (name : Text) : membersNamed members name = (stated.lookup name).toList := by
  have same := membersNamed_perm record name
  rw [membersNamed_stated distinct] at same
  cases found : stated.lookup name with
  | none => rw [found] at same; exact same.eq_nil
  | some value => rw [found] at same; exact same.eq_singleton

/-- Both readers of records find the stated fields. -/
theorem IsRecord.fields_eq (record : value.IsRecord stated)
    (distinct : (stated.map (·.1)).Nodup) (names : List Text) :
    fieldsOnce? names value = some (names.map fun name => stated.lookup name) ∧
      fieldsLast? names value = some (names.map fun name => stated.lookup name) := by
  obtain ⟨members, rfl, listed⟩ := record.exists_members
  have named := record.membersNamed_eq distinct
  have texts : members.all (·.1.isSome) = true := by
    refine List.all_eq_true.mpr fun member inside => ?_
    obtain ⟨entry, _, rfl⟩ := List.mem_map.mp (listed.mem_iff.mp inside)
    rfl
  have once : (names.map (membersNamed members)).all (·.length ≤ 1) = true := by
    refine List.all_eq_true.mpr fun values inside => ?_
    obtain ⟨name, _, rfl⟩ := List.mem_map.mp inside
    rw [named]
    cases stated.lookup name <;> rfl
  constructor
  · unfold fieldsOnce?
    dsimp only
    rw [texts, once, Bool.and_self, if_pos rfl, List.map_map]
    refine congrArg some (List.map_congr_left fun name _ => ?_)
    rw [Function.comp_apply, named]
    cases stated.lookup name <;> rfl
  · unfold fieldsLast?
    refine congrArg some (List.map_congr_left fun name _ => ?_)
    rw [named]
    cases stated.lookup name <;> rfl

/-! ## Meaning and depth -/

theorem areMeaningful_iff {items : List JsonValue} :
    areMeaningful items = true ↔ ∀ item ∈ items, item.isMeaningful = true := by
  induction items with
  | nil => exact iff_of_true rfl (List.forall_mem_nil _)
  | cons item items ih => rw [areMeaningful, Bool.and_eq_true, ih, List.forall_mem_cons]

theorem areMeaningfulMembers_iff {members : List (Option Text × JsonValue)} :
    areMeaningfulMembers members = true ↔
      ∀ member ∈ members, member.1.isSome = true ∧ member.2.isMeaningful = true := by
  induction members with
  | nil => exact iff_of_true rfl (List.forall_mem_nil _)
  | cons member members ih =>
      rw [areMeaningfulMembers, Bool.and_eq_true, Bool.and_eq_true, ih, List.forall_mem_cons]

theorem depthOfItems_le_iff {items : List JsonValue} {bound : Nat} :
    depthOfItems items ≤ bound ↔ ∀ item ∈ items, item.depth ≤ bound := by
  induction items with
  | nil => exact iff_of_true (Nat.zero_le bound) (List.forall_mem_nil _)
  | cons item items ih => rw [depthOfItems, Nat.max_le, ih, List.forall_mem_cons]

theorem depthOfMembers_le_iff {members : List (Option Text × JsonValue)} {bound : Nat} :
    depthOfMembers members ≤ bound ↔ ∀ member ∈ members, member.2.depth ≤ bound := by
  induction members with
  | nil => exact iff_of_true (Nat.zero_le bound) (List.forall_mem_nil _)
  | cons member members ih => rw [depthOfMembers, Nat.max_le, ih, List.forall_mem_cons]

/-- A record of meaningful values is meaningful, and lies one level above the deepest of them. -/
theorem IsRecord.plain (record : value.IsRecord stated) {bound : Nat}
    (plain : ∀ entry ∈ stated, entry.2.isMeaningful = true ∧ entry.2.depth ≤ bound) :
    value.isMeaningful = true ∧ value.depth ≤ bound + 1 := by
  obtain ⟨members, rfl, listed⟩ := record.exists_members
  have own : ∀ member ∈ members, ∃ entry ∈ stated, (some entry.1, entry.2) = member :=
    fun member inside => List.mem_map.mp (listed.mem_iff.mp inside)
  constructor
  · refine areMeaningfulMembers_iff.mpr fun member inside => ?_
    obtain ⟨entry, listed, rfl⟩ := own member inside
    exact ⟨rfl, (plain entry listed).1⟩
  · refine Nat.succ_le_succ (depthOfMembers_le_iff.mpr fun member inside => ?_)
    obtain ⟨entry, listed, rfl⟩ := own member inside
    exact (plain entry listed).2

/-! ## Field types -/

theorem texts?_ofTexts (texts : List Text) : (ofTexts texts).texts? = some texts := by
  induction texts with
  | nil => rfl
  | cons text texts ih =>
      have later : (texts.map ofText).mapM text? = some texts := ih
      show ((text :: texts).map ofText).mapM text? = _
      rw [List.map_cons, List.mapM_cons, later]
      rfl

theorem integer?_ofInt (number : Int) : (ofInt number).integer? = some number :=
  Numeral.integer?_ofInt number

theorem uint64?_ofInt (number : UInt64) : (ofInt number.toNat).uint64? = some number := by
  have within : (0 : Int) ≤ number.toNat ∧ ((number.toNat : Int)).toNat < UInt64.size :=
    ⟨Int.natCast_nonneg _, number.toNat_lt_size⟩
  unfold uint64?
  rw [integer?_ofInt, Option.filter_some, if_pos (decide_eq_true within), Option.map_some,
    Int.toNat_natCast, UInt64.ofNat_toNat]

theorem int64?_ofInt (number : Int64) : (ofInt number.toInt).int64? = some number := by
  have within : Int64.minValue.toInt ≤ number.toInt ∧ number.toInt ≤ Int64.maxValue.toInt :=
    ⟨number.minValue_le_toInt, number.toInt_le⟩
  unfold int64?
  rw [integer?_ofInt, Option.filter_some, if_pos (decide_eq_true within), Option.map_some,
    Int64.ofInt_toInt]

theorem plain_ofTexts (texts : List Text) :
    (ofTexts texts).isMeaningful = true ∧ (ofTexts texts).depth ≤ 1 := by
  constructor
  · refine areMeaningful_iff.mpr fun item inside => ?_
    obtain ⟨text, _, rfl⟩ := List.mem_map.mp inside
    rfl
  · refine Nat.succ_le_succ (depthOfItems_le_iff.mpr fun item inside => ?_)
    obtain ⟨text, _, rfl⟩ := List.mem_map.mp inside
    exact Nat.le_refl 0

theorem plain_ofInt {number : Int} (below : number.natAbs < UInt64.size) :
    (ofInt number).isMeaningful = true ∧ (ofInt number).depth ≤ 1 :=
  ⟨Numeral.isFinite_ofInt below, Nat.zero_le 1⟩

theorem plain_uint64 (number : UInt64) :
    (ofInt number.toNat).isMeaningful = true ∧ (ofInt number.toNat).depth ≤ 1 :=
  plain_ofInt (by rw [Int.natAbs_natCast]; exact number.toNat_lt_size)

theorem plain_int64 (number : Int64) :
    (ofInt number.toInt).isMeaningful = true ∧ (ofInt number.toInt).depth ≤ 1 := by
  have least : Int64.minValue.toInt = -0x8000000000000000 := rfl
  have greatest : Int64.maxValue.toInt = 0x7FFFFFFFFFFFFFFF := rfl
  have above := number.minValue_le_toInt
  have below := number.toInt_le
  have size : UInt64.size = 0x10000000000000000 := rfl
  exact plain_ofInt (by omega)

end PageDesigner.JsonValue
