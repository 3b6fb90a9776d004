import Mathlib.Data.List.Chain
import PageDesigner.Json.Value
import PageDesigner.Proofs.Json.Numeral
import PageDesigner.Proofs.Json.Quoted

/-!
# Tokens with blanks between them

The tokens of a JSON document can be laid out with any blanks in front of, between and
behind them (`Lays`).  A document is read as its tokens however they are laid out, unless
two numbers stand side by side (`Lays.tokens?_eq`), and trimming a document only takes
blanks off its layout (`Lays.trim`).
-/

namespace PageDesigner

namespace Text

/-- Trimming the end takes blanks off until another character. -/
theorem trimEnd_append {front blanks : Text} (solid : front.getLast?.any isBlank = false)
    (areBlank : blanks.all isBlank = true) : trimEnd (front ++ blanks) = front := by
  have blank : ∀ char ∈ blanks.reverse, isBlank char = true :=
    fun char member => List.all_eq_true.mp areBlank char (List.mem_reverse.mp member)
  have kept : front.reverse.dropWhile isBlank = front.reverse := by
    rw [← List.head?_reverse] at solid
    cases shape : front.reverse with
    | nil => rfl
    | cons last rest =>
        rw [shape] at solid
        exact List.dropWhile_cons_of_neg (Bool.eq_false_iff.mp solid)
  unfold trimEnd
  rw [List.reverse_append, List.dropWhile_append_of_pos blank, kept, List.reverse_reverse]

/-- A trimmed text starts with no blank. -/
theorem head?_trim (text : Text) : text.trim.head?.any isBlank = false := by
  have starts := Piece.stops_dropWhile isBlank text
  have front : text.trim <+: text.trimStart := by
    have behind := List.dropWhile_suffix (l := text.trimStart.reverse) isBlank
    simpa [trim, trimEnd] using List.reverse_prefix.mpr behind
  obtain ⟨rest, shape⟩ := front
  cases trimmed : text.trim with
  | nil => rfl
  | cons char more =>
      rw [trimmed] at shape
      unfold trimStart at shape
      rw [← shape] at starts
      exact starts

end Text

namespace JsonToken

/-- The ways to spell a token.  Of the numbers, only integers are spelled here. -/
inductive Spells : JsonToken → Text → Prop
  | arrayOpen : Spells .arrayOpen ['[']
  | arrayClose : Spells .arrayClose [']']
  | objectOpen : Spells .objectOpen ['\x7b']
  | objectClose : Spells .objectClose ['\x7d']
  | comma : Spells .comma [',']
  | colon : Spells .colon [':']
  | null : Spells .null "null"
  | yes : Spells (.boolean true) "true"
  | no : Spells (.boolean false) "false"
  | integer (number : Int) : Spells (.number (.ofInt number)) (Text.ofInt number)
  | string {content written : Text} (writes : Quoted.Writes content written) :
      Spells (.string (some content)) ('"' :: (written ++ ['"']))

/-- The ways to lay tokens out as a text. -/
inductive Lays : List JsonToken → Text → Prop
  | done : Lays [] []
  | blank {tokens : List JsonToken} {text : Text} {char : Char} (blank : isBlank char = true)
      (lays : Lays tokens text) : Lays tokens (char :: text)
  | token {token : JsonToken} {tokens : List JsonToken} {lexeme text : Text}
      (spells : token.Spells lexeme) (lays : Lays tokens text) :
      Lays (token :: tokens) (lexeme ++ text)

/-- Whether the token is a number, which could run into another one behind it. -/
def isNumber : JsonToken → Bool
  | number _ => true
  | _ => false

/-- Tokens that can stand side by side. -/
def Apart (first second : JsonToken) : Prop := first.isNumber = false ∨ second.isNumber = false

/-! ## One token -/

/-- A text that starts like a number is read as one. -/
theorem first?_of_numeral {char : Char} (starts : char.isDigit = true ∨ char = '-') {rest : Text}
    {number : Numeral} {taken : Nat}
    (read : Numeral.read? (char :: rest) = some (number, taken)) :
    first? (char :: rest) = some (.number number, taken) := by
  have differs : ∀ other : Char, ¬ (other.isDigit = true ∨ other = '-') → char ≠ other := by
    rintro other foreign rfl
    exact foreign starts
  have noWord : ∀ word ∈ words, ¬ word.1.isPrefixOf (char :: rest) = true := by
    simp [words, (differs 'n' (by decide)).symm, (differs 't' (by decide)).symm,
      (differs 'f' (by decide)).symm]
  unfold first?
  split
  · next same => cases same
  · next same => exact absurd (List.cons.inj same).1 (differs '[' (by decide))
  · next same => exact absurd (List.cons.inj same).1 (differs ']' (by decide))
  · next same => exact absurd (List.cons.inj same).1 (differs '\x7b' (by decide))
  · next same => exact absurd (List.cons.inj same).1 (differs '\x7d' (by decide))
  · next same => exact absurd (List.cons.inj same).1 (differs ',' (by decide))
  · next same => exact absurd (List.cons.inj same).1 (differs ':' (by decide))
  · next same => exact absurd (List.cons.inj same).1 (differs '"' (by decide))
  · rw [List.find?_eq_none.mpr noWord, read]
    rfl

namespace Spells

variable {token : JsonToken} {lexeme : Text}

/-- A token starts with a visible character, which continues no number unless it is one itself. -/
theorem exists_head (spells : token.Spells lexeme) :
    ∃ char more, lexeme = char :: more ∧ Text.isBlank char = false ∧
      (token.isNumber = false → Numeral.continues char = false) := by
  cases spells with
  | integer number =>
      obtain ⟨char, more, shape, _⟩ := Numeral.head_ofInt number
      exact ⟨char, more, shape, Text.isBlank_ofInt (by rw [shape]; exact List.mem_cons_self),
        fun other => nomatch other⟩
  | _ => exact ⟨_, _, rfl, by decide, fun _ => by decide⟩

/-- A token ends with a visible character. -/
theorem getLast?_solid (spells : token.Spells lexeme) :
    lexeme.getLast?.any Text.isBlank = false := by
  cases spells with
  | integer number =>
      cases last : (Text.ofInt number).getLast? with
      | none => rfl
      | some char => exact Text.isBlank_ofInt (List.mem_of_getLast? last)
  | string writes =>
      rw [← List.cons_append, List.getLast?_concat]
      decide
  | _ => decide

/-- A token is read in front of every text that does not lengthen it. -/
theorem first?_eq (spells : token.Spells lexeme) {next : Text}
    (stops : token.isNumber = true → next.head?.any Numeral.continues = false) :
    first? (lexeme ++ next) = some (token, lexeme.length) := by
  cases spells with
  | @string content written writes =>
      obtain ⟨units, read, meant⟩ := writes.read next
      rw [List.cons_append, List.append_assoc, List.singleton_append]
      simp [first?, read, meant]
  | integer number =>
      have read := Numeral.read?_ofInt number (stops rfl)
      obtain ⟨char, more, shape, starts⟩ := Numeral.head_ofInt number
      rw [shape, List.cons_append] at read ⊢
      exact first?_of_numeral starts read
  | _ => rfl

end Spells

/-! ## Several tokens -/

theorem tokensFrom?_drop (skip : Nat) (text : Text) :
    tokensFrom? skip text = tokens? (text.drop skip) := by
  induction text generalizing skip with
  | nil => cases skip <;> rfl
  | cons char rest ih =>
      cases skip with
      | zero => rfl
      | succ skip => exact ih skip

/-- Reading goes on behind the token that stands in front. -/
theorem tokens?_cons {char : Char} {more next : Text} {token : JsonToken}
    (solid : isBlank char = false)
    (read : first? (char :: (more ++ next)) = some (token, (char :: more).length)) :
    tokens? (char :: (more ++ next)) = (tokens? next).map (token :: ·) := by
  unfold tokens?
  rw [tokensFrom?, if_neg (Bool.eq_false_iff.mp solid), read]
  dsimp only
  rw [tokensFrom?_drop, List.length_cons, Nat.add_sub_cancel, List.drop_left]
  rfl

namespace Lays

variable {tokens others : List JsonToken} {text rest : Text}

theorem append (lays : Lays tokens text) (further : Lays others rest) :
    Lays (tokens ++ others) (text ++ rest) := by
  induction lays with
  | done => exact further
  | blank blank _ ih => exact .blank blank ih
  | token spells _ ih =>
      rw [List.append_assoc]
      exact .token spells ih

/-- A single token with nothing around it. -/
theorem single {token : JsonToken} {lexeme : Text} (spells : token.Spells lexeme) :
    Lays [token] lexeme := by
  simpa using Lays.token spells .done

/-- Unless a number comes first, the text does not go on with a number. -/
theorem stops (lays : Lays tokens text) (other : ∀ first ∈ tokens.head?, first.isNumber = false) :
    text.head?.any Numeral.continues = false := by
  cases lays with
  | done => rfl
  | blank blank _ =>
      simp only [isBlank, Bool.or_eq_true, beq_iff_eq] at blank
      rcases blank with ((rfl | rfl) | rfl) | rfl <;> rfl
  | token spells _ =>
      obtain ⟨char, more, rfl, _, continues⟩ := spells.exists_head
      exact continues (other _ rfl)

/-- However the tokens of a document are laid out, they are read. -/
theorem tokens?_eq (lays : Lays tokens text) (apart : tokens.IsChain Apart) :
    tokens? text = some tokens := by
  induction lays with
  | done => rfl
  | blank blank _ ih =>
      rw [← ih apart]
      exact if_pos blank
  | @token token tokens lexeme text spells lays ih =>
      obtain ⟨beside, apart⟩ := List.isChain_cons.mp apart
      -- Only another number could go on with a number, and none stands right behind it.
      have stops : token.isNumber = true → text.head?.any Numeral.continues = false :=
        fun number => lays.stops fun first leads =>
          (beside first leads).resolve_left (by rw [number]; decide)
      have read := spells.first?_eq stops
      obtain ⟨char, more, rfl, solid, _⟩ := spells.exists_head
      have solid : isBlank char = false :=
        Bool.eq_false_iff.mpr fun layout =>
          Bool.eq_false_iff.mp solid (Text.isBlank_of_isLayout layout)
      rw [List.cons_append] at read ⊢
      rw [tokens?_cons solid read, ih apart]
      rfl

/-! ## Trimming -/

theorem trimStart (lays : Lays tokens text) : Lays tokens text.trimStart := by
  induction lays with
  | done => exact .done
  | blank blank _ ih =>
      unfold Text.trimStart at ih ⊢
      rw [List.dropWhile_cons_of_pos (Text.isBlank_of_isLayout blank)]
      exact ih
  | token spells lays _ =>
      obtain ⟨char, more, rfl, solid, _⟩ := spells.exists_head
      unfold Text.trimStart
      rw [List.cons_append, List.dropWhile_cons_of_neg (Bool.eq_false_iff.mp solid)]
      exact .token spells lays

/-- Behind the last token stand only blanks. -/
theorem exists_front (lays : Lays tokens text) :
    ∃ front blanks, text = front ++ blanks ∧ Lays tokens front ∧
      front.getLast?.any Text.isBlank = false ∧ blanks.all Text.isBlank = true := by
  induction lays with
  | done => exact ⟨[], [], rfl, .done, rfl, rfl⟩
  | @blank tokens text char blank _ ih =>
      obtain ⟨front, blanks, rfl, lays, solid, areBlank⟩ := ih
      cases front with
      | nil =>
          refine ⟨[], char :: blanks, rfl, lays, rfl, ?_⟩
          rw [List.all_cons, areBlank, Text.isBlank_of_isLayout blank]
          rfl
      | cons head front =>
          refine ⟨char :: head :: front, blanks, rfl, .blank blank lays, ?_, areBlank⟩
          rw [List.getLast?_cons_cons]
          exact solid
  | @token token tokens lexeme text spells _ ih =>
      obtain ⟨front, blanks, rfl, lays, solid, areBlank⟩ := ih
      refine ⟨lexeme ++ front, blanks, by rw [List.append_assoc], .token spells lays, ?_, areBlank⟩
      rw [List.getLast?_append]
      cases last : front.getLast? with
      | none => exact spells.getLast?_solid
      | some char =>
          rw [last] at solid
          exact solid

theorem trim (lays : Lays tokens text) : Lays tokens text.trim := by
  obtain ⟨front, blanks, shape, lays, solid, areBlank⟩ := lays.trimStart.exists_front
  unfold Text.trim
  rw [shape, Text.trimEnd_append solid areBlank]
  exact lays

/-- The trimmed document starts with its first token. -/
theorem exists_trim {token : JsonToken} (lays : Lays (token :: tokens) text) :
    ∃ lexeme rest, token.Spells lexeme ∧ text.trim = lexeme ++ rest := by
  have solid := Text.head?_trim text
  have trimmed := lays.trim
  generalize text.trim = front at solid trimmed ⊢
  cases trimmed with
  | blank blank _ =>
      have layout := Text.isBlank_of_isLayout blank
      rw [List.head?_cons, Option.any_some, layout] at solid
      cases solid
  | token spells _ => exact ⟨_, _, spells, rfl⟩

end Lays

end JsonToken

end PageDesigner
