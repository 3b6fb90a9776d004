import PageDesigner.Markup.Token
import PageDesigner.Markup.Tree
import PageDesigner.Text.Reference

/-!
# Attributes of a tag

The inside of a tag, up to the piece that ends it, is read into attributes.  A
name waits for an equals sign and then for a value; a name that is followed by
another name, or by the end of the tag, has the empty value.  Anything else is
passed over.
-/

namespace PageDesigner

/-- What ended the inside of a tag. -/
inductive TagStop where
  | close
  | selfClose
  /-- Another tag starts before this one was closed. -/
  | interrupted
  /-- The text came to its end. -/
  | exhausted
  deriving DecidableEq, Repr

/-- The inside of a tag: its attributes, what ended it, where, and its length. -/
structure TagBody where
  attributes : List Attribute
  stop : TagStop
  last : Location
  length : Nat
  deriving DecidableEq, Repr

/-- An attribute whose name has been read. -/
structure OpenAttribute where
  name : Text
  first : Location
  last : Location
  awaitsValue : Bool
  deriving DecidableEq, Repr

namespace OpenAttribute

/-- The attribute without a value. -/
def bare (pending : OpenAttribute) : Attribute :=
  ⟨Name.ofText pending.name, [], ⟨pending.first, pending.last⟩⟩

/-- The attribute with a value as written, which ends at `last`. -/
def withValue (pending : OpenAttribute) (written : Text) (last : Location) : Attribute :=
  ⟨Name.ofText pending.name, Reference.decode written, ⟨pending.first, last⟩⟩

end OpenAttribute

/-- What ends a tag at this piece, if the piece ends one. -/
def Piece.stop? : Piece → Option TagStop
  | token .close _ => some .close
  | token .selfClose _ => some .selfClose
  | token .opening _ => some .interrupted
  | _ => none

/--
The pieces of the text behind its next `skip` characters, up to and including
the first piece that ends a tag.
-/
def Piece.tagPiecesFrom : Nat → Text → List Piece
  | _, [] => []
  | skip + 1, _ :: rest => tagPiecesFrom skip rest
  | 0, char :: rest =>
      let piece := first char rest
      if piece.stop?.isSome then [piece]
      else piece :: tagPiecesFrom (piece.lexeme.length - 1) rest

namespace TagBody

/-- The body with attributes and characters in front. -/
def after (attributes : List Attribute) (length : Nat) (body : TagBody) : TagBody :=
  { body with attributes := attributes ++ body.attributes, length := length + body.length }

/--
How a token that does not end the tag moves the reader on: the attributes it
completes, and the attribute that is open behind it.  The token stands between
the two locations.
-/
def step (pending : Option OpenAttribute) (token : Token) (first last : Location) :
    List Attribute × Option OpenAttribute :=
  match token, pending with
  | .equals, _ => ([], pending.map fun waiting => { waiting with awaitsValue := true })
  | _, some waiting =>
      match token.value?, waiting.awaitsValue, token with
      | some written, true, _ => ([waiting.withValue written last], none)
      | _, _, .name written => ([waiting.bare], some ⟨written, first, last, false⟩)
      | _, _, _ => ([], some waiting)
  | .name written, none => ([], some ⟨written, first, last, false⟩)
  | _, none => ([], none)

/-- Read the pieces of a tag's inside. -/
def ofPieces (location : Location) (pending : Option OpenAttribute) : List Piece → TagBody
  | [] => ⟨(pending.map (·.bare)).toList, .exhausted, location, 0⟩
  | piece :: rest =>
      let behind := location.advance piece.lexeme
      match piece.stop? with
      | some .interrupted => ⟨(pending.map (·.bare)).toList, .interrupted, location, 0⟩
      | some stop => ⟨(pending.map (·.bare)).toList, stop, behind, piece.lexeme.length⟩
      | none =>
          match piece with
          | .token token _ =>
              let (done, next) := step pending token location behind
              (ofPieces behind next rest).after done piece.lexeme.length
          | _ => (ofPieces behind pending rest).after [] piece.lexeme.length

/-- Read the inside of a tag from a text that starts at `location`. -/
def ofText (location : Location) (text : Text) : TagBody :=
  ofPieces location none (Piece.tagPiecesFrom 0 text)

end TagBody

end PageDesigner
