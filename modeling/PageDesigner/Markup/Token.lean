import PageDesigner.Markup.Name
import PageDesigner.Text.Blank

/-!
# Tokens inside a tag

The inside of a tag is a sequence of pieces: layout, tokens, and junk that no
token starts with.  The first character of a piece decides its class, and the
piece is as long as the class allows.  A quote without a partner makes the whole
rest of the text junk.

The main statement is `flatten_lexemes`: the pieces of a text, one after the
other, are the text.
-/

namespace PageDesigner

/-- A meaningful part of a tag's inside. -/
inductive Token where
  | name (written : Text)
  | equals
  | doubleQuoted (content : Text)
  | singleQuoted (content : Text)
  | bare (content : Text)
  | selfClose
  | close
  | opening
  | directiveClose
  deriving DecidableEq, Repr

namespace Token

/-- What the token means on the right of an equals sign, if it may stand there. -/
def value? : Token → Option Text
  | name written => some written
  | doubleQuoted content => some content
  | singleQuoted content => some content
  | bare content => some content
  | _ => none

/-- The spelling of the token in a report. -/
def text : Token → Text
  | name written => "name '" ++ written ++ "'"
  | equals => "="
  | doubleQuoted content => "\"" ++ content ++ "\""
  | singleQuoted content => "'" ++ content ++ "'"
  | bare content => "value " ++ content
  | selfClose => "/>"
  | close => ">"
  | opening => "<"
  | directiveClose => "%>"

end Token

/-- One piece of a tag's inside, with the characters it takes. -/
inductive Piece where
  | layout (char : Char)
  | token (token : Token) (lexeme : Text)
  | junk (lexeme : Text)
  deriving DecidableEq, Repr

namespace Piece

/-- Characters that start an unquoted value which is not a name. -/
def startsBare (char : Char) : Bool :=
  char.isDigit || char == '#' || char == '.' || char == '-'

/-- Characters that continue an unquoted value. -/
def continuesBare (char : Char) : Bool :=
  !(Text.isLayout char || char == '"' || char == '\'' || char == '<' || char == '>' ||
    char == '=' || char == '/')

/-- The characters the piece takes. -/
def lexeme : Piece → Text
  | layout char => [char]
  | token _ lexeme => lexeme
  | junk lexeme => lexeme

/-- A quoted value whose opening quote has been read. -/
def quoted (quote : Char) (asToken : Text → Token) (rest : Text) : Piece :=
  let content := rest.takeWhile (· != quote)
  if content.length < rest.length then
    .token (asToken content) (quote :: content ++ [quote])
  else .junk (quote :: rest)

/-- The piece at the start of a text that begins with `char`. -/
def first (char : Char) (rest : Text) : Piece :=
  if Text.isLayout char then .layout char
  else if startsName char then
    let written := char :: rest.takeWhile continuesName
    .token (.name written) written
  else if startsBare char then
    let written := char :: rest.takeWhile continuesBare
    .token (.bare written) written
  else if char = '"' then quoted '"' .doubleQuoted rest
  else if char = '\'' then quoted '\'' .singleQuoted rest
  else if char = '=' then .token .equals ['=']
  else if char = '>' then .token .close ['>']
  else if char = '<' then .token .opening ['<']
  else if char = '/' ∧ rest.head? = some '>' then .token .selfClose ['/', '>']
  else if char = '%' ∧ rest.head? = some '>' then .token .directiveClose ['%', '>']
  else .junk [char]

/-- The pieces of the text behind its next `skip` characters. -/
def piecesFrom : Nat → Text → List Piece
  | _, [] => []
  | skip + 1, _ :: rest => piecesFrom skip rest
  | 0, char :: rest =>
      let piece := first char rest
      piece :: piecesFrom (piece.lexeme.length - 1) rest

/-- The pieces of a text, in order. -/
def pieces (text : Text) : List Piece := piecesFrom 0 text

/-! ## Laws -/

theorem head?_eq_some_cons {char : Char} {text : Text} (h : text.head? = some char) :
    text = char :: text.tail := by
  cases text with
  | nil => contradiction
  | cons head tail => simpa using h

/-- A text that its own quote-free start does not exhaust goes on with the quote. -/
theorem quoted_shape {quote : Char} {rest : Text}
    (h : (rest.takeWhile (· != quote)).length < rest.length) :
    ∃ tail, rest = rest.takeWhile (· != quote) ++ quote :: tail := by
  induction rest with
  | nil => simp at h
  | cons char rest ih =>
      by_cases hquote : char = quote
      · subst hquote
        exact ⟨rest, by simp⟩
      · have hne : (char != quote) = true := by simp [hquote]
        simp only [List.takeWhile_cons, hne, if_true] at h ⊢
        obtain ⟨tail, htail⟩ := ih (by simpa using h)
        refine ⟨tail, ?_⟩
        rw [List.cons_append, ← htail]

/-- The first piece of a text starts the text and takes at least one character. -/
theorem first_lexeme (char : Char) (rest : Text) :
    ∃ more tail, (first char rest).lexeme = char :: more ∧ rest = more ++ tail := by
  unfold first
  repeat' split
  · exact ⟨[], rest, rfl, rfl⟩
  · exact ⟨_, rest.dropWhile continuesName, rfl, List.takeWhile_append_dropWhile.symm⟩
  · exact ⟨_, rest.dropWhile continuesBare, rfl, List.takeWhile_append_dropWhile.symm⟩
  · next hchar =>
      subst hchar
      unfold quoted
      simp only
      split
      · next hlength =>
          obtain ⟨tail, htail⟩ := quoted_shape hlength
          refine ⟨rest.takeWhile (· != '"') ++ ['"'], tail, rfl, ?_⟩
          simpa using htail
      · exact ⟨rest, [], rfl, by simp⟩
  · next hchar =>
      subst hchar
      unfold quoted
      simp only
      split
      · next hlength =>
          obtain ⟨tail, htail⟩ := quoted_shape hlength
          refine ⟨rest.takeWhile (· != '\'') ++ ['\''], tail, rfl, ?_⟩
          simpa using htail
      · exact ⟨rest, [], rfl, by simp⟩
  · next hchar => exact ⟨[], rest, by simp [lexeme, hchar], rfl⟩
  · next hchar => exact ⟨[], rest, by simp [lexeme, hchar], rfl⟩
  · next hchar => exact ⟨[], rest, by simp [lexeme, hchar], rfl⟩
  · next hchar =>
      exact ⟨['>'], rest.tail, by simp [lexeme, hchar.1], head?_eq_some_cons hchar.2⟩
  · next hchar =>
      exact ⟨['>'], rest.tail, by simp [lexeme, hchar.1], head?_eq_some_cons hchar.2⟩
  · exact ⟨[], rest, rfl, rfl⟩

theorem piecesFrom_eq (skip : Nat) (text : Text) :
    piecesFrom skip text = pieces (text.drop skip) := by
  induction text generalizing skip with
  | nil => cases skip <;> rfl
  | cons char rest ih =>
      cases skip with
      | zero => rfl
      | succ skip => simpa [piecesFrom] using ih skip

/-- The lexemes of the pieces, one after the other, are the text. -/
theorem flatten_lexemes (text : Text) : ((pieces text).map lexeme).flatten = text := by
  induction hlength : text.length using Nat.strongRecOn generalizing text with
  | _ length ih =>
      cases text with
      | nil => rfl
      | cons char rest =>
          obtain ⟨more, tail, hlexeme, hrest⟩ := first_lexeme char rest
          have hdrop : rest.drop more.length = tail := by simp [hrest]
          have hshort : tail.length < length := by
            rw [← hlength, hrest, List.length_cons, List.length_append]
            omega
          have hpieces : pieces (char :: rest) = first char rest :: pieces tail := by
            show first char rest :: piecesFrom ((first char rest).lexeme.length - 1) rest = _
            rw [hlexeme, piecesFrom_eq, List.length_cons, Nat.add_sub_cancel, hdrop]
          rw [hpieces, List.map_cons, List.flatten_cons, hlexeme, ih _ hshort _ rfl, hrest]
          rfl

end Piece

end PageDesigner
