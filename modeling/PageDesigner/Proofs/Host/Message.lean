import PageDesigner.Host.Message
import PageDesigner.Proofs.Json.Record

/-!
# Messages of the surface are received as sent

The surface sends a message as a record of its name, in any letter case, and its
arguments.  The arguments are a record of their own (`States`), which stands in the message
as it is or is spelled in a string there (`Gives`).  Whatever way the surface chooses, and
however it spells the document, the message that is received is the one that was sent
(`received_of_sent`).
-/

namespace PageDesigner.SurfaceMessage

open JsonValue (ofText ofTexts ofInt)

/-- The name of the message, in small letters. -/
def name : SurfaceMessage → Text
  | selectionChanged _ _ => "selection_changed"
  | contextMenu _ _ _ => "context_menu_request"

/-- The ways to mention the component of a context menu, or that there is none. -/
inductive Mentions : Option Text → List (Text × JsonValue) → Prop
  | component (id : Text) : Mentions (some id) [("ComponentId", ofText id)]
  | null : Mentions none [("ComponentId", .null)]
  | nothing : Mentions none []

/-- The fields that state the arguments of a message. -/
inductive States : SurfaceMessage → List (Text × JsonValue) → Prop
  | selectionChanged (ids : List Text) (primary : UInt64) : States (.selectionChanged ids primary)
      [("SelectedIds", ofTexts ids), ("PrimarySelection", ofInt primary.toNat)]
  | contextMenu (x y : Int64) {id? : Option Text} {component : List (Text × JsonValue)}
      (mentions : Mentions id? component) : States (.contextMenu x y id?)
      (("X", ofInt x.toInt) :: ("Y", ofInt y.toInt) :: component)

/-- The ways to give arguments in a message: as they are, or spelled in a string. -/
inductive Gives (arguments : JsonValue) : JsonValue → Prop
  | inline : Gives arguments arguments
  | nested {text : Text} (spells : arguments.Spells text) : Gives arguments (ofText text)

variable {message : SurfaceMessage} {stated : List (Text × JsonValue)}
  {arguments given envelope : JsonValue} {called raw : Text}

/-! ## Fields -/

namespace Mentions

variable {id? : Option Text} {component : List (Text × JsonValue)}

theorem means (mentions : Mentions id? component) :
    JsonValue.fieldOr none JsonValue.optionalText? (List.lookup "ComponentId".toList component) =
      some id? := by
  cases mentions <;> rfl

theorem plain (mentions : Mentions id? component) :
    ∀ entry ∈ component, entry.2.isMeaningful = true ∧ entry.2.depth ≤ 1 := by
  cases mentions with
  | component id => exact List.forall_mem_singleton.mpr ⟨rfl, Nat.zero_le 1⟩
  | null => exact List.forall_mem_singleton.mpr ⟨rfl, Nat.zero_le 1⟩
  | nothing => exact List.forall_mem_nil _

end Mentions

namespace States

/-- No field is stated twice. -/
theorem distinct (states : message.States stated) : (stated.map (·.1)).Nodup := by
  cases states with
  | selectionChanged => exact (by decide : (["SelectedIds", "PrimarySelection"] : List Text).Nodup)
  | contextMenu x y mentions =>
      cases mentions with
      | nothing => exact (by decide : (["X", "Y"] : List Text).Nodup)
      | _ => exact (by decide : (["X", "Y", "ComponentId"] : List Text).Nodup)

/-- The values of the fields are in range, and nested once at most. -/
theorem plain (states : message.States stated) :
    ∀ entry ∈ stated, entry.2.isMeaningful = true ∧ entry.2.depth ≤ 1 := by
  cases states with
  | selectionChanged ids primary =>
      exact List.forall_mem_cons.mpr ⟨JsonValue.plain_ofTexts ids,
        List.forall_mem_singleton.mpr (JsonValue.plain_uint64 primary)⟩
  | contextMenu x y mentions =>
      exact List.forall_mem_cons.mpr ⟨JsonValue.plain_int64 x,
        List.forall_mem_cons.mpr ⟨JsonValue.plain_int64 y, mentions.plain⟩⟩

end States

/-- Both ways to give arguments lead to the same fields. -/
theorem Gives.arguments?_eq (gives : Gives arguments given) (record : arguments.IsRecord stated)
    (states : message.States stated) (names : List Text) :
    arguments? names given = some (names.map fun name => stated.lookup name) := by
  obtain ⟨once, last⟩ := record.fields_eq states.distinct names
  cases gives with
  | inline =>
      obtain ⟨meaningful, shallow⟩ := record.plain states.plain
      obtain ⟨members, rfl, _⟩ := record.exists_members
      have allowed : (JsonValue.isMeaningful (.object members) &&
          (JsonValue.object members).depth ≤ maxDepth) = true := by
        rw [meaningful, Bool.true_and, decide_eq_true_eq]
        exact Nat.le_trans shallow (by decide)
      unfold arguments?
      dsimp only
      rw [if_pos allowed, last]
  | nested spells =>
      have read := JsonValue.parse?_of_spells spells
      unfold arguments? ofText
      simp only [Option.bind_eq_bind, Option.bind_some, read, once]

/-! ## The message -/

theorem selectionChanged?_stated (ids : List Text) (primary : UInt64) :
    selectionChanged? [some (ofTexts ids), some (ofInt primary.toNat)] =
      some (.selectionChanged ids primary) := by
  unfold selectionChanged?
  simp only [JsonValue.fieldOr, JsonValue.texts?_ofTexts, JsonValue.uint64?_ofInt,
    Option.bind_eq_bind, Option.bind_some]

theorem contextMenu?_stated (x y : Int64) {component : Option JsonValue} {id? : Option Text}
    (means : JsonValue.fieldOr none JsonValue.optionalText? component = some id?) :
    contextMenu? [some (ofInt x.toInt), some (ofInt y.toInt), component] =
      some (.contextMenu x y id?) := by
  unfold contextMenu?
  simp only [JsonValue.int64?_ofInt, means, Option.bind_eq_bind, Option.bind_some]

/-- In no letter case is the name of a context menu that of a selection. -/
theorem not_sameName_selection (calls : called.sameName "context_menu_request" = true) :
    ¬ called.sameName "selection_changed" = true := by
  intro other
  have both := Text.sameName_trans (Text.sameName_comm _ _ ▸ calls) other
  revert both
  decide

/-- The name and the arguments of a message are read as the message. -/
theorem named?_eq (states : message.States stated) (record : arguments.IsRecord stated)
    (gives : Gives arguments given) (calls : called.sameName message.name = true) :
    named? called given = some message := by
  have fields := gives.arguments?_eq record states
  unfold named?
  cases states with
  | selectionChanged ids primary =>
      have isSelection : called.sameName "selection_changed" = true := calls
      rw [if_pos isSelection, fields, Option.bind_some]
      exact selectionChanged?_stated ids primary
  | contextMenu x y mentions =>
      have isMenu : called.sameName "context_menu_request" = true := calls
      rw [if_neg (not_sameName_selection isMenu), if_pos isMenu, fields, Option.bind_some]
      exact contextMenu?_stated x y mentions.means

/--
A message is received as it was sent: whatever the order of its members and the letter case
of its name, whether the arguments stand in it or are spelled in a string, and however the
document is spelled.
-/
theorem received_of_sent (states : message.States stated) (record : arguments.IsRecord stated)
    (gives : Gives arguments given) (calls : called.sameName message.name = true)
    (wraps : envelope.IsRecord [("MsgName", ofText called), ("Arguments", given)])
    (spells : envelope.Spells raw) : parse? raw = some message := by
  have distinct : (["MsgName", "Arguments"] : List Text).Nodup := by decide
  obtain ⟨fields, -⟩ := wraps.fields_eq distinct ["MsgName", "Arguments"]
  have read : JsonValue.parse? raw.trim = some envelope :=
    JsonValue.parse?_of_spells (JsonToken.Lays.trim spells)
  have starts : raw.trim.head? = some '\x7b' := by
    obtain ⟨members, rfl, _⟩ := wraps.exists_members
    obtain ⟨lexeme, rest, opens, shape⟩ := JsonToken.Lays.exists_trim spells
    cases opens
    rw [shape]
    rfl
  have message := named?_eq states record gives calls
  unfold parse?
  dsimp only
  rw [starts, if_neg (by decide), read]
  simp only [Option.bind_eq_bind, Option.bind_some, fields]
  exact message

/-- Ids that need escapes. -/
def hostileIds : List Text := ["a\"b", "\x01😀"]

/-- Arguments with their fields the other way round. -/
def hostileArguments : Text :=
  "\x7b\"PrimarySelection\":18446744073709551615 ,\"SelectedIds\":" ++
    Quoted.writeAll hostileIds ++ "\x7d"

/-- A loud message that gives its arguments in a string, and before its name. -/
theorem received_of_sent_hostileIds :
    parse? ("\n\x7b \"Arguments\" : " ++ Quoted.write hostileArguments ++
        ",\"MsgName\":\"SELECTION_changed\"\x7d\t") =
      some (.selectionChanged hostileIds 18446744073709551615) := by
  have space : JsonToken.isBlank ' ' = true := rfl
  have line : JsonToken.isBlank '\n' = true := rfl
  have tab : JsonToken.isBlank '\t' = true := rfl
  have key (name : Text) := JsonToken.Spells.string (Quoted.writes_escaped name)
  have arguments : (JsonValue.object [(some "PrimarySelection", ofInt 18446744073709551615),
      (some "SelectedIds", ofTexts hostileIds)]).Spells hostileArguments := by
    have front := JsonToken.Lays.token .objectOpen (.token (key "PrimarySelection")
      (.token .colon (.token (.integer 18446744073709551615) (.blank space
        (.token .comma (.token (key "SelectedIds") (.token .colon .done)))))))
    exact (front.append (JsonValue.spells_writeAll hostileIds)).append (.single .objectClose)
  have envelope : (JsonValue.object [(some "Arguments", ofText hostileArguments),
      (some "MsgName", ofText "SELECTION_changed")]).Spells
        ("\n\x7b \"Arguments\" : " ++ Quoted.write hostileArguments ++
          ",\"MsgName\":\"SELECTION_changed\"\x7d\t") := by
    have front := JsonToken.Lays.blank line (.token .objectOpen (.blank space
      (.token (key "Arguments") (.blank space (.token .colon (.blank space .done))))))
    have back := JsonToken.Lays.token .comma (.token (key "MsgName") (.token .colon
      (.token (key "SELECTION_changed") (.token .objectClose (.blank tab .done)))))
    exact (front.append (JsonValue.spells_write hostileArguments)).append back
  have record : (JsonValue.object [(some "PrimarySelection", ofInt 18446744073709551615),
      (some "SelectedIds", ofTexts hostileIds)]).IsRecord
        [("SelectedIds", ofTexts hostileIds), ("PrimarySelection", ofInt 18446744073709551615)] :=
    List.Perm.swap _ _ []
  have wraps : (JsonValue.object [(some "Arguments", ofText hostileArguments),
      (some "MsgName", ofText "SELECTION_changed")]).IsRecord
        [("MsgName", ofText "SELECTION_changed"), ("Arguments", ofText hostileArguments)] :=
    List.Perm.swap _ _ []
  exact received_of_sent (.selectionChanged hostileIds 18446744073709551615) record
    (.nested arguments) (by decide) wraps envelope

end PageDesigner.SurfaceMessage
