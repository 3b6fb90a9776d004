import Mathlib.Data.List.Nodup
import PageDesigner.Surface.Directives

/-!
# Runs of a directive table

What an operation of a directive table may answer and leave behind is said without its code
(`DirectiveTable.Effect`).  On a table that is in order (`DirectiveTable.Keyed`) every operation
does that and leaves a table that is in order.  The keys in the table do not tell which ones were
handed out before: those are collected over the run (`DirectiveTable.issued`), and the next key
is above all of them, so none is handed out again (`DirectiveTable.issued_increasing`).
-/

namespace PageDesigner

namespace DirectiveTable

/-! ## Operations and their effects -/

/-- An operation on a directive table. -/
inductive Operation where
  | add (name : Text) (properties : List (Text × Text))
  | addParsed (directive : Directive)
  | remove (key : Nat)
  | firstOrAdd (name : Text)
  | clear
  deriving DecidableEq, Repr

/-- What an operation answers. -/
inductive Answer where
  | placed (placeholder : Text)
  | removed (markup : Text)
  | first (record : DirectiveRecord)
  | cleared
  | refused (failure : DesignError)
  deriving DecidableEq, Repr

/-- What an operation answers, with the table behind it; a failure leaves the table alone. -/
def answered {α : Type} (table : DirectiveTable) (answer : α → Answer) :
    Except DesignError (α × DirectiveTable) → Answer × DirectiveTable
  | .ok (result, after) => (answer result, after)
  | .error failure => (.refused failure, table)

/-- Carrying an operation out gives the answer and the table behind it. -/
def run (table : DirectiveTable) : Operation → Answer × DirectiveTable
  | .add name properties => answered table .placed (table.add name properties)
  | .addParsed directive => answered table .placed (table.addParsed directive)
  | .remove key => answered table .removed (table.remove key)
  | .firstOrAdd name => answered table .first (table.firstOrAdd name)
  | .clear => (.cleared, table.cleared)

/-- The keys, in the order of the table. -/
def keys (table : DirectiveTable) : List Nat := table.records.map (·.key)

/-- The table with one more directive, under the next key. -/
def extended (table : DirectiveTable) (name : Text) (properties : List (Text × Text)) :
    DirectiveTable :=
  ⟨table.records ++ [⟨name, properties, table.nextKey⟩], table.nextKey + 1⟩

/-- What an operation may answer, and the table that it then leaves behind, which is the same one
if the operation is refused. -/
inductive Effect (table : DirectiveTable) : Operation → Answer → DirectiveTable → Prop where
  /-- A directive comes last, under the next key; one that a document has at most once must not be
  there yet. -/
  | placed {name : Text} {properties : List (Text × Text)}
      (free : ∀ unique ∈ uniqueNames, unique.sameName name = true → table.named name = []) :
      Effect table (.add name properties) (.placed (placeholder table.nextKey))
        (table.extended name properties)
  | repeated {name unique : Text} {properties : List (Text × Text)} (once : unique ∈ uniqueNames)
      (same : unique.sameName name = true) (there : table.named name ≠ []) :
      Effect table (.add name properties) (.refused (.duplicateDirective unique)) table
  /-- A directive of the markup is placed with its name and its attributes. -/
  | parsed {directive : Directive} {answer : Answer} {after : DirectiveTable}
      (effect : Effect table (.add directive.name (propertiesOf directive)) answer after) :
      Effect table (.addParsed directive) answer after
  /-- The directive with the key goes, which is no other one's, and the others stay in order. -/
  | removed {former latter : List DirectiveRecord} {record : DirectiveRecord}
      (records : table.records = former ++ record :: latter)
      (apart : ∀ other ∈ former ++ latter, other.key ≠ record.key) :
      Effect table (.remove record.key) (.removed record.markup) ⟨former ++ latter, table.nextKey⟩
  | unknown {key : Nat} (absent : key ∉ table.keys) :
      Effect table (.remove key) (.refused (.unknownDirective key)) table
  /-- The first directive with the name is found as it is. -/
  | found {name : Text} {former latter : List DirectiveRecord} {record : DirectiveRecord}
      (records : table.records = former ++ record :: latter)
      (named : record.name.sameName name = true)
      (first : ∀ other ∈ former, other.name.sameName name = false) :
      Effect table (.firstOrAdd name) (.first record) table
  /-- Without one, an empty directive is placed. -/
  | created {name : Text} (absent : table.named name = []) :
      Effect table (.firstOrAdd name) (.first ⟨name, [], table.nextKey⟩) (table.extended name [])
  | cleared : Effect table .clear .cleared ⟨[], table.nextKey⟩

/-! ## Directives that a document has at most once -/

variable {table after : DirectiveTable} {name name' : Text}

theorem named_congr (same : name.sameName name' = true) : table.named name = table.named name' := by
  unfold named
  congr
  funext record
  simp only [Text.sameName, Text.sameName_iff.mp same]

theorem first?_eq_none : table.first? name = none ↔ table.named name = [] := by
  unfold first? named
  rw [List.find?_eq_none, List.filter_eq_nil_iff]

theorem named_extended_of_ne (properties : List (Text × Text))
    (differs : name.sameName name' = false) :
    (table.extended name properties).named name' = table.named name' := by
  simp [named, extended, differs]

/-- Only a directive that a document has at most once, and has already, is in conflict. -/
theorem of_conflict?_eq_some {unique : Text} (conflict : table.conflict? name = some unique) :
    unique ∈ uniqueNames ∧ unique.sameName name = true ∧ table.named name ≠ [] := by
  obtain ⟨found, there⟩ := Option.filter_eq_some_iff.mp conflict
  have same : unique.sameName name = true :=
    List.find?_some (p := fun unique : Text => unique.sameName name) found
  refine ⟨List.mem_of_find?_eq_some found, same, fun absent => ?_⟩
  rw [← named_congr same, ← first?_eq_none] at absent
  rw [absent] at there
  cases there

theorem conflict?_eq_none :
    table.conflict? name = none ↔
      ∀ unique ∈ uniqueNames, unique.sameName name = true → table.named name = [] := by
  constructor
  · intro none' unique member same
    unfold conflict? at none'
    cases found : uniqueNames.find? (·.sameName name) with
    | none => exact absurd same (List.find?_eq_none.mp found unique member)
    | some unique' =>
        rw [found] at none'
        have same' : unique'.sameName name = true :=
          List.find?_some (p := fun unique : Text => unique.sameName name) found
        rw [← named_congr same', ← first?_eq_none]
        simpa using none'
  · intro free
    refine Option.eq_none_iff_forall_ne_some.mpr fun unique conflict => ?_
    obtain ⟨member, same, there⟩ := of_conflict?_eq_some conflict
    exact there (free unique member same)

theorem add_of_conflict {unique : Text} (conflict : table.conflict? name = some unique)
    (properties : List (Text × Text)) :
    table.add name properties = .error (.duplicateDirective unique) := by
  unfold add
  rw [conflict]

theorem add_of_free (free : table.conflict? name = none) (properties : List (Text × Text)) :
    table.add name properties =
      .ok (placeholder table.nextKey, table.extended name properties) := by
  unfold add
  rw [free]
  rfl

/-! ## Tables in order -/

/-- A document has at most one of the unique directives, keys count up in the order of the table,
and the next one is above all of them. -/
structure Keyed (table : DirectiveTable) : Prop where
  once : ∀ unique ∈ uniqueNames, (table.named unique).length ≤ 1
  increasing : table.keys.Pairwise (· < ·)
  below : ∀ key ∈ table.keys, key < table.nextKey

theorem keyed_empty : Keyed empty :=
  ⟨fun _ _ => Nat.zero_le _, List.Pairwise.nil, fun _ member => nomatch member⟩

theorem keys_extended (properties : List (Text × Text)) :
    (table.extended name properties).keys = table.keys ++ [table.nextKey] := by
  unfold keys extended
  rw [List.map_append]
  rfl

theorem Keyed.extended (keyed : table.Keyed)
    (free : ∀ unique ∈ uniqueNames, unique.sameName name = true → table.named name = [])
    (properties : List (Text × Text)) : (table.extended name properties).Keyed where
  once := by
    intro unique member
    cases same : name.sameName unique with
    | false =>
        rw [named_extended_of_ne properties same]
        exact keyed.once unique member
    | true =>
        have same' : unique.sameName name = true := by rw [Text.sameName_comm, same]
        have absent := free unique member same'
        rw [← named_congr same'] at absent
        unfold named at absent
        unfold named DirectiveTable.extended
        rw [List.filter_append, absent, List.nil_append]
        exact List.length_filter_le _ _
  increasing := by
    rw [keys_extended]
    refine List.pairwise_append.mpr ⟨keyed.increasing, List.pairwise_singleton _ _, ?_⟩
    intro key member last isLast
    rw [List.mem_singleton.mp isLast]
    exact keyed.below key member
  below := by
    intro key member
    rw [keys_extended] at member
    rcases List.mem_append.mp member with former | last
    · exact Nat.lt_succ_of_lt (keyed.below key former)
    · rw [List.mem_singleton.mp last]
      exact Nat.lt_succ_self _

/-- Taking directives out keeps the table in order. -/
theorem Keyed.sublist (keyed : table.Keyed) {records : List DirectiveRecord}
    (part : records.Sublist table.records) : Keyed ⟨records, table.nextKey⟩ where
  once := fun unique member =>
    Nat.le_trans (part.filter _).length_le (keyed.once unique member)
  increasing := keyed.increasing.sublist (part.map _)
  below := fun key member => keyed.below key ((part.map _).subset member)

theorem Keyed.apart {former latter : List DirectiveRecord} {record : DirectiveRecord}
    (keyed : table.Keyed) (records : table.records = former ++ record :: latter) :
    ∀ other ∈ former ++ latter, other.key ≠ record.key := by
  have alone : (table.keys).Nodup := keyed.increasing.imp Nat.ne_of_lt
  unfold keys at alone
  rw [records, List.map_append, List.map_cons, List.nodup_middle, ← List.map_append] at alone
  intro other member same
  exact (List.nodup_cons.mp alone).1 (same ▸ List.mem_map_of_mem member)

/-! ## Every operation does what it may -/

theorem effect_add (table : DirectiveTable) (name : Text) (properties : List (Text × Text)) :
    Effect table (.add name properties) (table.run (.add name properties)).1
      (table.run (.add name properties)).2 := by
  cases conflict : table.conflict? name with
  | none =>
      simp only [run, add_of_free conflict, answered]
      exact .placed (conflict?_eq_none.mp conflict)
  | some unique =>
      obtain ⟨member, same, there⟩ := of_conflict?_eq_some conflict
      simp only [run, add_of_conflict conflict, answered]
      exact .repeated member same there

theorem effect_remove (keyed : table.Keyed) (key : Nat) :
    Effect table (.remove key) (table.run (.remove key)).1 (table.run (.remove key)).2 := by
  cases found : table.records.find? (·.key == key) with
  | none =>
      simp only [run, remove, found, answered]
      refine .unknown fun member => ?_
      obtain ⟨record, member', same⟩ := List.mem_map.mp member
      exact List.find?_eq_none.mp found record member' (beq_iff_eq.mpr same)
  | some record =>
      obtain ⟨same, former, latter, records, apart⟩ := List.find?_eq_some_iff_append.mp found
      have erased : table.records.eraseP (·.key == key) = former ++ latter :=
        List.eraseP_eq_iff.mpr
          (.inr ⟨record, former, latter, by simpa using apart, same, records, rfl⟩)
      simp only [run, remove, found, answered, erased]
      obtain rfl : record.key = key := beq_iff_eq.mp same
      exact .removed records (keyed.apart records)

theorem effect_firstOrAdd (table : DirectiveTable) (name : Text) :
    Effect table (.firstOrAdd name) (table.run (.firstOrAdd name)).1
      (table.run (.firstOrAdd name)).2 := by
  cases found : table.first? name with
  | some record =>
      obtain ⟨same, former, latter, records, apart⟩ := List.find?_eq_some_iff_append.mp found
      simp only [run, firstOrAdd, found, answered]
      exact .found records same fun other member => by simpa using apart other member
  | none =>
      have absent := first?_eq_none.mp found
      have free : table.conflict? name = none := conflict?_eq_none.mpr fun _ _ _ => absent
      have placed : (table.extended name []).first? name = some ⟨name, [], table.nextKey⟩ := by
        unfold first? at found
        simp [first?, extended, List.find?_append, found]
      simp only [run, firstOrAdd, found, add_of_free free, placed, answered]
      exact .created absent

/-- Every operation does what it may on a table in order. -/
theorem effect_run (keyed : table.Keyed) (operation : Operation) :
    Effect table operation (table.run operation).1 (table.run operation).2 := by
  cases operation with
  | add name properties => exact effect_add table name properties
  | addParsed directive => exact .parsed (effect_add table directive.name (propertiesOf directive))
  | remove key => exact effect_remove keyed key
  | firstOrAdd name => exact effect_firstOrAdd table name
  | clear => exact .cleared

/-- Asking for the first directive of a name is never refused. -/
theorem Effect.exists_first {answer : Answer}
    (effect : Effect table (.firstOrAdd name) answer after) : ∃ record, answer = .first record := by
  cases effect with
  | found => exact ⟨_, rfl⟩
  | created => exact ⟨_, rfl⟩

/-! ## Keys over a run -/

/-- What an operation may leave behind is the table with one more directive, or with some of its
directives. -/
theorem Effect.shape {operation : Operation} {answer : Answer}
    (effect : Effect table operation answer after) :
    (∃ name properties,
        (∀ unique ∈ uniqueNames, unique.sameName name = true → table.named name = []) ∧
        after = table.extended name properties) ∨
      ∃ records, records.Sublist table.records ∧ after = ⟨records, table.nextKey⟩ := by
  induction effect with
  | placed free => exact .inl ⟨_, _, free, rfl⟩
  | created absent => exact .inl ⟨_, _, fun _ _ _ => absent, rfl⟩
  | parsed _ ih => exact ih
  | @removed former latter record records _ =>
      rw [records]
      exact .inr ⟨_, List.Sublist.append_left (List.sublist_cons_self record latter) former, rfl⟩
  | cleared => exact .inr ⟨_, List.nil_sublist _, rfl⟩
  | _ => exact .inr ⟨_, List.Sublist.refl _, rfl⟩

theorem Effect.keyed {operation : Operation} {answer : Answer}
    (effect : Effect table operation answer after) (keyed : table.Keyed) : after.Keyed := by
  obtain ⟨name, properties, free, rfl⟩ | ⟨records, part, rfl⟩ := effect.shape
  · exact keyed.extended free properties
  · exact keyed.sublist part

/-- The keys that a table has and another one has not. -/
def newKeys (before after : DirectiveTable) : List Nat :=
  after.keys.filter fun key => !before.keys.contains key

/-- The keys that are handed out over a run, in the order of the operations. -/
def issued (table : DirectiveTable) : List Operation → List Nat
  | [] => []
  | operation :: rest =>
      newKeys table (table.run operation).2 ++ issued (table.run operation).2 rest

/-- An operation hands out the next key or none. -/
theorem Effect.newKeys_eq {operation : Operation} {answer : Answer}
    (effect : Effect table operation answer after) (keyed : table.Keyed) :
    newKeys table after = [table.nextKey] ∧ after.nextKey = table.nextKey + 1 ∨
      newKeys table after = [] ∧ after.nextKey = table.nextKey := by
  have old : ∀ key ∈ table.keys, ¬ (!table.keys.contains key) = true := by simp
  obtain ⟨name, properties, -, rfl⟩ | ⟨records, part, rfl⟩ := effect.shape
  · refine .inl ⟨?_, rfl⟩
    have unused : table.nextKey ∉ table.keys := fun member =>
      Nat.lt_irrefl _ (keyed.below _ member)
    unfold newKeys
    rw [keys_extended, List.filter_append, List.filter_eq_nil_iff.mpr old, List.nil_append]
    simp [unused]
  · refine .inr ⟨?_, rfl⟩
    exact List.filter_eq_nil_iff.mpr fun key member => old key ((part.map _).subset member)

/-- The keys that are handed out over a run count up from the next one of the table. -/
theorem issued_increasing (keyed : table.Keyed) (operations : List Operation) :
    (table.issued operations).Pairwise (· < ·) ∧
      ∀ key ∈ table.issued operations, table.nextKey ≤ key := by
  induction operations generalizing table with
  | nil => exact ⟨List.Pairwise.nil, fun _ member => nomatch member⟩
  | cons operation rest ih =>
      have effect := effect_run keyed operation
      obtain ⟨increasing, above⟩ := ih (effect.keyed keyed)
      unfold issued
      obtain ⟨new, next⟩ | ⟨new, next⟩ := effect.newKeys_eq keyed
      · rw [next] at above
        rw [new, List.singleton_append]
        refine ⟨List.pairwise_cons.mpr ⟨above, increasing⟩, fun key member => ?_⟩
        rcases List.mem_cons.mp member with rfl | later
        · exact Nat.le_refl _
        · exact Nat.le_of_succ_le (above key later)
      · rw [next] at above
        rw [new, List.nil_append]
        exact ⟨increasing, above⟩

/-- The table behind a run of operations that begins with no directive. -/
def ranFromEmpty (operations : List Operation) : DirectiveTable :=
  operations.foldl (fun table operation => (table.run operation).2) empty

theorem keyed_ranFromEmpty (operations : List Operation) : (ranFromEmpty operations).Keyed :=
  List.foldlRecOn operations _ keyed_empty fun _ keyed operation _ =>
    (effect_run keyed operation).keyed keyed

/-- A key that was freed is not handed out again. -/
example : (ranFromEmpty [.add "Page" [], .remove 0, .firstOrAdd "page"]).keys = [1] := by decide

/--
Whatever is placed, removed, asked for and cleared: the table has at most one `Page` and at most
one `Control` directive, its keys count up, no key was handed out twice, asking for the first
directive of a name gives one, and the next operation does what it may.
-/
theorem keyed_behind_operations (operations : List Operation) :
    ((ranFromEmpty operations).named "Page").length ≤ 1 ∧
      ((ranFromEmpty operations).named "Control").length ≤ 1 ∧
      (ranFromEmpty operations).keys.Pairwise (· < ·) ∧
      (empty.issued operations).Pairwise (· < ·) ∧
      (∀ name, ∃ record, ((ranFromEmpty operations).run (.firstOrAdd name)).1 = .first record) ∧
      ∀ operation, Effect (ranFromEmpty operations) operation
        ((ranFromEmpty operations).run operation).1
        ((ranFromEmpty operations).run operation).2 := by
  have keyed := keyed_ranFromEmpty operations
  exact ⟨keyed.once _ (by decide), keyed.once _ (by decide), keyed.increasing,
    (issued_increasing keyed_empty operations).1,
    fun name => (effect_firstOrAdd _ name).exists_first, effect_run keyed⟩

end DirectiveTable

end PageDesigner
