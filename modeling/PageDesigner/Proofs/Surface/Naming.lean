import Mathlib.Data.List.Dedup
import PageDesigner.Surface.Naming

/-!
# Generated names

A generated name has the smallest number that makes it differ from every taken name up to
letter case (`unused_smallest`); there is one, because one more number is tried than names
are taken.  It is valid as soon as the name of the type is.
-/

namespace PageDesigner

namespace Text

theorem ofNat_injective {first second : Nat} (same : ofNat first = ofNat second) :
    first = second := by
  have read := congrArg (Nat.ofDigitChars 10 · 0) same
  simpa [ofNat, Nat.ofDigitChars_toDigits] using read

theorem isDigit_ofNat {number : Nat} {char : Char} (member : char ∈ ofNat number) :
    char.isDigit = true :=
  Nat.isDigit_of_mem_toDigits (by decide) (by decide) member

theorem toLower_of_not_isUpper {char : Char} (small : char.isUpper = false) :
    char.toLower = char := by
  unfold Char.toLower
  exact dif_neg (of_decide_eq_false small)

theorem isAlpha_toLower {char : Char} (capital : char.isUpper = true) :
    char.toLower.isAlpha = true := by
  obtain ⟨above, below⟩ := of_decide_eq_true capital
  have shifted : char.toLower.val = char.val + 32 := by
    unfold Char.toLower
    rw [dif_pos ⟨above, below⟩]
    rfl
  have above' : 65 ≤ char.val.toNat := above
  have below' : char.val.toNat ≤ 90 := below
  have place : char.toLower.val.toNat = char.val.toNat + 32 := by
    have offset : (32 : UInt32).toNat = 32 := rfl
    rw [shifted, UInt32.toNat_add, Nat.mod_eq_of_lt, offset]
    omega
  refine Bool.or_eq_true_iff.mpr (.inr (Bool.and_eq_true_iff.mpr ⟨decide_eq_true ?_,
    decide_eq_true ?_⟩))
  · show 97 ≤ char.toLower.val.toNat
    omega
  · show char.toLower.val.toNat ≤ 122
    omega

theorem isAlpha_of_isUpper {char : Char} (capital : char.isUpper = true) : char.isAlpha = true :=
  Bool.or_eq_true_iff.mpr (.inl capital)

theorem toLower_of_isDigit {char : Char} (digit : char.isDigit = true) : char.toLower = char := by
  simp only [Char.isDigit, Bool.and_eq_true, decide_eq_true_eq] at digit
  refine toLower_of_not_isUpper (decide_eq_false fun capital => ?_)
  exact absurd (Nat.le_trans capital.1 digit.2) (by decide)

@[simp]
theorem lower_ofNat (number : Nat) : (ofNat number).lower = ofNat number := by
  have same : ∀ char ∈ ofNat number, char.toLower = char := fun char member =>
    toLower_of_isDigit (isDigit_ofNat member)
  unfold lower
  rw [List.map_congr_left same, List.map_id']

end Text

namespace Naming

theorem isTaken_iff {names : List Text} {name : Text} :
    isTaken names name = true ↔ name.lower ∈ names.map Text.lower := by
  simp [isTaken, Text.sameName_iff]

theorem numbered_lower_injective {base : Text} {first second : Nat}
    (same : (numbered base first).lower = (numbered base second).lower) : first = second := by
  unfold numbered at same
  rw [Text.lower_append, Text.lower_append, Text.lower_ofNat, Text.lower_ofNat] at same
  exact Text.ofNat_injective (List.append_cancel_left same)

/-- No more numbers are taken than there are taken names, letter case aside. -/
theorem le_of_isTaken {base : Text} {taken : List Text} {count : Nat}
    (occupied : ∀ index < count, isTaken taken (numbered base (index + 1)) = true) :
    count ≤ (taken.map Text.lower).dedup.length := by
  have different : ((List.range count).map fun index =>
      (numbered base (index + 1)).lower).Nodup := by
    refine List.Nodup.map ?_ List.nodup_range
    intro first second same
    exact Nat.succ.inj (numbered_lower_injective same)
  have within : ((List.range count).map fun index => (numbered base (index + 1)).lower) ⊆
      (taken.map Text.lower).dedup := by
    intro name member
    obtain ⟨index, inRange, rfl⟩ := List.mem_map.mp member
    exact List.mem_dedup.mpr (isTaken_iff.mp (occupied index (List.mem_range.mp inRange)))
  have fits := different.length_le_of_subset within
  rw [List.length_map, List.length_range] at fits
  exact fits

/-- A generated name has the smallest positive number that is free, and this number is at most one
more than there are taken names. -/
theorem unused_smallest (base : Text) (taken : List Text) :
    ∃ number, unused base taken = numbered base number ∧ 1 ≤ number ∧
      isTaken taken (numbered base number) = false ∧
      (∀ smaller, 1 ≤ smaller → smaller < number →
        isTaken taken (numbered base smaller) = true) ∧
      number ≤ (taken.map Text.lower).dedup.length + 1 := by
  unfold unused
  dsimp only
  rw [List.find?_map]
  cases found : (List.range (taken.length + 1)).find?
      ((fun name => !isTaken taken name) ∘ fun index => numbered base (index + 1)) with
  | some index =>
      obtain ⟨free, _, occupied⟩ := List.find?_range_eq_some.mp found
      have below : ∀ former < index, isTaken taken (numbered base (former + 1)) = true :=
        fun former before => by simpa using occupied former before
      refine ⟨index + 1, rfl, Nat.succ_pos index, by simpa using free, ?_,
        Nat.succ_le_succ (le_of_isTaken below)⟩
      intro smaller positive before
      obtain ⟨former, rfl⟩ := Nat.exists_eq_succ_of_ne_zero (Nat.ne_of_gt positive)
      exact below former (Nat.lt_of_succ_lt_succ before)
  | none =>
      -- More candidates than taken names: they cannot all be taken.
      exfalso
      have occupied : ∀ index < taken.length + 1,
          isTaken taken (numbered base (index + 1)) = true := by
        intro index before
        simpa using List.find?_eq_none.mp found index (List.mem_range.mpr before)
      have fits := le_of_isTaken occupied
      have fewer := (List.dedup_sublist (taken.map Text.lower)).length_le
      rw [List.length_map] at fewer
      omega

/-- A generated name is one of the numbered names. -/
theorem unused_eq_numbered (base : Text) (taken : List Text) :
    ∃ number, unused base taken = numbered base number ∧
      isTaken taken (numbered base number) = false := by
  obtain ⟨number, same, _, free, _⟩ := unused_smallest base taken
  exact ⟨number, same, free⟩

/-- A generated name differs from every taken one up to letter case. -/
theorem unused_free (base : Text) (taken : List Text) :
    isTaken taken (unused base taken) = false := by
  obtain ⟨number, same, free⟩ := unused_eq_numbered base taken
  rw [same]
  exact free

/-- Letter case does not decide whether a name is valid. -/
theorem isValid_congr {first second : Text} (same : first.lower = second.lower) :
    isValid first = isValid second := by
  have small : ∀ name : Text, isValid name.lower = isValid name := by
    have letter : ∀ char : Char, (char.toLower.isAlpha || char.toLower == '_') =
        (char.isAlpha || char == '_') := by
      intro char
      cases capital : char.isUpper with
      | false => rw [Text.toLower_of_not_isUpper capital]
      | true => rw [Text.isAlpha_toLower capital, Text.isAlpha_of_isUpper capital]; rfl
    have inner : ∀ char : Char, (char.toLower.isAlphanum || char.toLower == '_') =
        (char.isAlphanum || char == '_') := by
      intro char
      cases capital : char.isUpper with
      | false => rw [Text.toLower_of_not_isUpper capital]
      | true =>
          unfold Char.isAlphanum
          rw [Text.isAlpha_toLower capital, Text.isAlpha_of_isUpper capital]
          rfl
    intro name
    cases name with
    | nil => rfl
    | cons char rest =>
        show ((char.toLower.isAlpha || char.toLower == '_') && (rest.map Char.toLower).all _) = _
        rw [letter, List.all_map]
        exact congrArg (_ && ·) (congrArg (rest.all ·) (funext inner))
  rw [← small first, same, small second]

/-- An identifier with a number behind it is an identifier. -/
theorem isValid_numbered {base : Text} (valid : isValid base = true) (number : Nat) :
    isValid (numbered base number) = true := by
  cases base with
  | nil => cases valid
  | cons first rest =>
      simp only [isValid, Bool.and_eq_true, List.all_eq_true] at valid
      simp only [numbered, isValid, List.cons_append, Bool.and_eq_true, List.all_eq_true]
      refine ⟨valid.1, ?_⟩
      intro char member
      rcases List.mem_append.mp member with inBase | inNumber
      · exact valid.2 char inBase
      · simp [Char.isAlphanum, Text.isDigit_ofNat inNumber]

/-- Names generated for an identifier are identifiers. -/
theorem isValid_unused {base : Text} (valid : isValid base = true) (taken : List Text) :
    isValid (unused base taken) = true := by
  obtain ⟨number, same, _⟩ := unused_eq_numbered base taken
  rw [same]
  exact isValid_numbered valid number

end Naming

end PageDesigner
