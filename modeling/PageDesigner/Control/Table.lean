import PageDesigner.Text.Basic

/-!
# Tables keyed by text

A table holds at most one entry for each key it is given.  Setting a key keeps
the place of an entry that is already there.
-/

namespace PageDesigner

/-- Entries under their keys. -/
abbrev Table (α : Type) := List (Text × α)

namespace Table

variable {α : Type}

/-- The entry under a key. -/
def get? (table : Table α) (key : Text) : Option α := table.lookup key

/-- Put an entry under a key, in place of the one that is there. -/
def put (key : Text) (entry : α) : Table α → Table α
  | [] => [(key, entry)]
  | (other, old) :: rest =>
      if other = key then (key, entry) :: rest else (other, old) :: put key entry rest

/-- The table without the entry under a key. -/
def erase (table : Table α) (key : Text) : Table α := table.filter (·.1 != key)

/-! ## Laws -/

@[simp]
theorem get?_put_self (table : Table α) (key : Text) (entry : α) :
    get? (put key entry table) key = some entry := by
  induction table with
  | nil => simp [put, get?]
  | cons head rest ih =>
      obtain ⟨other, old⟩ := head
      by_cases h : other = key
      · simp [put, get?, h]
      · have h' : (key == other) = false := by simpa using Ne.symm h
        simpa [put, get?, h, List.lookup_cons, h'] using ih

theorem get?_put_of_ne (table : Table α) {key key' : Text} (entry : α) (hne : key' ≠ key) :
    get? (put key entry table) key' = get? table key' := by
  have hkey : (key' == key) = false := by simpa using hne
  induction table with
  | nil => simp [put, get?, List.lookup_cons, hkey]
  | cons head rest ih =>
      obtain ⟨other, old⟩ := head
      by_cases h : other = key
      · subst h
        simp [put, get?, List.lookup_cons, hkey]
      · simp only [get?] at ih
        simp only [put, get?, h, if_false, List.lookup_cons, ih]

@[simp]
theorem get?_erase_self (table : Table α) (key : Text) : get? (erase table key) key = none := by
  induction table with
  | nil => rfl
  | cons head rest ih =>
      obtain ⟨other, old⟩ := head
      by_cases h : other = key
      · simpa [erase, get?, h] using ih
      · have h' : (key == other) = false := by simpa using Ne.symm h
        simpa [erase, get?, h, List.lookup_cons, h'] using ih

theorem get?_erase_of_ne (table : Table α) {key key' : Text} (hne : key' ≠ key) :
    get? (erase table key) key' = get? table key' := by
  induction table with
  | nil => rfl
  | cons head rest ih =>
      obtain ⟨other, old⟩ := head
      by_cases h : other = key
      · subst h
        have hkey : (key' == other) = false := by simpa using hne
        simpa [erase, get?, List.lookup_cons, hkey] using ih
      · simp only [erase, get?] at ih
        have hkeep : (other != key) = true := by simpa using h
        simp only [erase, get?, List.filter_cons, hkeep, if_true, List.lookup_cons, ih]

end Table

end PageDesigner
