import PageDesigner.Proofs.Json.Layout

/-!
# Values of JSON are read back

A value is spelled by laying out its tokens (`JsonValue.Spells`): its strings in any
spelling, with any blanks between the tokens.  Whatever the spelling, the document reads
as the value (`parse?_of_spells`).
-/

namespace PageDesigner

namespace JsonValue

open JsonToken (Lays Apart)

mutual

/-- The tokens of a value. -/
def tokens : JsonValue → List JsonToken
  | null => [.null]
  | boolean value => [.boolean value]
  | number numeral => [.number numeral]
  | string content? => [.string content?]
  | array items => .arrayOpen :: (itemTokens items ++ [.arrayClose])
  | object members => .objectOpen :: (memberTokens members ++ [.objectClose])

/-- The tokens of items with commas between them. -/
def itemTokens : List JsonValue → List JsonToken
  | [] => []
  | [item] => tokens item
  | item :: next :: rest => tokens item ++ .comma :: itemTokens (next :: rest)

/-- The tokens of members with commas between them. -/
def memberTokens : List (Option Text × JsonValue) → List JsonToken
  | [] => []
  | [(key, value)] => .string key :: .colon :: tokens value
  | (key, value) :: next :: rest =>
      .string key :: .colon :: (tokens value ++ .comma :: memberTokens (next :: rest))

end

/-- The string of a text. -/
def ofText (text : Text) : JsonValue := string (some text)

/-- The array of strings of texts. -/
def ofTexts (texts : List Text) : JsonValue := array (texts.map ofText)

/-- The number of an integer. -/
def ofInt (number : Int) : JsonValue := .number (.ofInt number)

/-- The ways to spell a value. -/
def Spells (value : JsonValue) (text : Text) : Prop := Lays value.tokens text

/-! ## Neighbours -/

theorem apart_cons {token : JsonToken} (mark : token.isNumber = false) {rest : List JsonToken}
    (apart : rest.IsChain Apart) : (token :: rest).IsChain Apart :=
  List.isChain_cons.mpr ⟨fun _ _ => .inl mark, apart⟩

/-- A mark parts the tokens in front of it from those behind it. -/
theorem apart_append {front rest : List JsonToken} {token : JsonToken}
    (apart : front.IsChain Apart) (mark : token.isNumber = false) (behind : rest.IsChain Apart) :
    (front ++ token :: rest).IsChain Apart := by
  refine List.isChain_append.mpr ⟨apart, apart_cons mark behind, fun last _ first leads => ?_⟩
  obtain rfl := Option.some.inj leads
  exact .inr mark

mutual

/-- No two numbers of a value stand side by side. -/
theorem apart_tokens : ∀ value : JsonValue, value.tokens.IsChain Apart
  | null => .singleton _
  | boolean _ => .singleton _
  | number _ => .singleton _
  | string _ => .singleton _
  | array items => apart_cons rfl (apart_append (apart_itemTokens items) rfl .nil)
  | object members => apart_cons rfl (apart_append (apart_memberTokens members) rfl .nil)

theorem apart_itemTokens : ∀ items : List JsonValue, (itemTokens items).IsChain Apart
  | [] => .nil
  | [item] => apart_tokens item
  | item :: next :: rest => apart_append (apart_tokens item) rfl (apart_itemTokens (next :: rest))

theorem apart_memberTokens :
    ∀ members : List (Option Text × JsonValue), (memberTokens members).IsChain Apart
  | [] => .nil
  | [(_, value)] => apart_cons rfl (apart_cons rfl (apart_tokens value))
  | (_, value) :: next :: rest =>
      apart_cons rfl (apart_cons rfl
        (apart_append (apart_tokens value) rfl (apart_memberTokens (next :: rest))))

end

/-! ## Reading tokens -/

/-- No value starts with the end of an array. -/
theorem exists_tokens (value : JsonValue) :
    ∃ first rest, value.tokens = first :: rest ∧ first ≠ .arrayClose := by
  cases value <;> exact ⟨_, _, rfl, by nofun⟩

theorem exists_itemTokens (item : JsonValue) (items : List JsonValue) :
    ∃ first rest, itemTokens (item :: items) = first :: rest ∧ first ≠ .arrayClose := by
  obtain ⟨first, rest, shape, opens⟩ := item.exists_tokens
  cases items with
  | nil => exact ⟨first, rest, shape, opens⟩
  | cons next items => exact ⟨first, _, by rw [itemTokens, shape]; rfl, opens⟩

theorem exists_memberTokens (member : Option Text × JsonValue)
    (members : List (Option Text × JsonValue)) :
    ∃ rest, memberTokens (member :: members) = .string member.1 :: rest := by
  cases members with
  | nil => exact ⟨_, rfl⟩
  | cons next members => exact ⟨_, rfl⟩

theorem read?_array {bound : Nat} {first : JsonToken} (opens : first ≠ .arrayClose)
    (rest : List JsonToken) :
    read? (bound + 1) (.arrayOpen :: first :: rest) =
      (readItems? bound (first :: rest)).map fun (items, rest) => (.array items, rest) := by
  cases first with
  | arrayClose => exact absurd rfl opens
  | _ => rfl

/--
The readers read the tokens of values back, given enough nested calls.  Two calls for each
token are enough: a value makes one call for its array or object, and one for each item or
member, all of which have tokens of their own.
-/
structure Understands (bound : Nat) : Prop where
  value : ∀ (value : JsonValue) (rest : List JsonToken), 2 * value.tokens.length ≤ bound →
    read? bound (value.tokens ++ rest) = some (value, rest)
  items : ∀ (item : JsonValue) (items : List JsonValue) (rest : List JsonToken),
    2 * (itemTokens (item :: items)).length < bound →
      readItems? bound (itemTokens (item :: items) ++ .arrayClose :: rest) =
        some (item :: items, rest)
  members : ∀ (member : Option Text × JsonValue) (members : List (Option Text × JsonValue))
    (rest : List JsonToken), 2 * (memberTokens (member :: members)).length < bound →
      readMembers? bound (memberTokens (member :: members) ++ .objectClose :: rest) =
        some (member :: members, rest)

theorem understands_zero : Understands 0 := by
  refine ⟨fun value rest within => ?_, fun _ _ _ within => ?_, fun _ _ _ within => ?_⟩
  · obtain ⟨first, rest, shape, _⟩ := value.exists_tokens
    rw [shape] at within
    cases within
  · cases within
  · cases within

namespace Understands

variable {bound : Nat}

theorem value_succ (understands : Understands bound) (value : JsonValue) (rest : List JsonToken)
    (within : 2 * value.tokens.length ≤ bound + 1) :
    read? (bound + 1) (value.tokens ++ rest) = some (value, rest) := by
  cases value with
  | array items =>
      cases items with
      | nil => rfl
      | cons item items =>
          simp only [tokens, List.length_cons, List.length_append] at within
          have inner := understands.items item items rest (by omega)
          obtain ⟨first, more, shape, opens⟩ := exists_itemTokens item items
          rw [tokens, List.cons_append, List.append_assoc, List.singleton_append]
          rw [shape, List.cons_append] at inner ⊢
          rw [read?_array opens, inner]
          rfl
  | object members =>
      cases members with
      | nil => rfl
      | cons member members =>
          simp only [tokens, List.length_cons, List.length_append] at within
          have inner := understands.members member members rest (by omega)
          obtain ⟨more, shape⟩ := exists_memberTokens member members
          rw [tokens, List.cons_append, List.append_assoc, List.singleton_append]
          rw [shape, List.cons_append] at inner ⊢
          rw [read?, inner]
          · rfl
          · nofun
  | _ => rfl

theorem items_succ (understands : Understands bound) (item : JsonValue) (items : List JsonValue)
    (rest : List JsonToken) (within : 2 * (itemTokens (item :: items)).length < bound + 1) :
    readItems? (bound + 1) (itemTokens (item :: items) ++ .arrayClose :: rest) =
      some (item :: items, rest) := by
  cases items with
  | nil =>
      rw [itemTokens] at within ⊢
      rw [readItems?, understands.value item _ (by omega)]
  | cons next items =>
      rw [itemTokens, List.length_append, List.length_cons] at within
      have first := understands.value item
        (.comma :: (itemTokens (next :: items) ++ .arrayClose :: rest)) (by omega)
      have later := understands.items next items rest (by omega)
      rw [itemTokens, List.append_assoc, List.cons_append, readItems?, first]
      dsimp only
      rw [later]
      rfl

theorem members_succ (understands : Understands bound) (member : Option Text × JsonValue)
    (members : List (Option Text × JsonValue)) (rest : List JsonToken)
    (within : 2 * (memberTokens (member :: members)).length < bound + 1) :
    readMembers? (bound + 1) (memberTokens (member :: members) ++ .objectClose :: rest) =
      some (member :: members, rest) := by
  obtain ⟨key, value⟩ := member
  cases members with
  | nil =>
      simp only [memberTokens, List.length_cons] at within
      have only := understands.value value (.objectClose :: rest) (by omega)
      rw [memberTokens, List.cons_append, List.cons_append, readMembers?, only]
  | cons next members =>
      simp only [memberTokens, List.length_append, List.length_cons] at within
      have first := understands.value value
        (.comma :: (memberTokens (next :: members) ++ .objectClose :: rest)) (by omega)
      have later := understands.members next members rest (by omega)
      rw [memberTokens, List.cons_append, List.cons_append, List.append_assoc, List.cons_append,
        readMembers?, first]
      dsimp only
      rw [later]
      rfl

end Understands

theorem understands (bound : Nat) : Understands bound := by
  induction bound with
  | zero => exact understands_zero
  | succ bound ih => exact ⟨ih.value_succ, ih.items_succ, ih.members_succ⟩

/-- A document is read as its value, however the value is spelled. -/
theorem parse?_of_spells {value : JsonValue} {text : Text} (spells : value.Spells text) :
    parse? text = some value := by
  have read := (understands (2 * value.tokens.length + 2)).value value [] (by omega)
  rw [List.append_nil] at read
  unfold parse?
  rw [JsonToken.Lays.tokens?_eq spells value.apart_tokens]
  simp only [Option.bind_eq_bind, Option.bind_some, read]

/-! ## What the designer writes -/

theorem spells_write (text : Text) : (ofText text).Spells (Quoted.write text) :=
  .single (.string (Quoted.writes_escaped text))

theorem lays_join (texts : List Text) :
    Lays (itemTokens (texts.map ofText)) (Text.join "," (texts.map Quoted.write)) := by
  induction texts with
  | nil => exact .done
  | cons text texts ih =>
      cases texts with
      | nil => exact spells_write text
      | cons next texts =>
          have comma : Lays [.comma] [','] := .single .comma
          exact ((spells_write text).append comma).append ih

/-- The list of names that the designer writes into a page is read back. -/
theorem spells_writeAll (texts : List Text) : (ofTexts texts).Spells (Quoted.writeAll texts) := by
  have front : Lays [.arrayOpen] ['['] := .single .arrayOpen
  have back : Lays [.arrayClose] [']'] := .single .arrayClose
  exact (front.append (lays_join texts)).append back

theorem parse?_writeAll (texts : List Text) :
    parse? (Quoted.writeAll texts) = some (ofTexts texts) :=
  parse?_of_spells (spells_writeAll texts)

end JsonValue

end PageDesigner
