import PageDesigner.Markup.Attribute
import PageDesigner.Text.Blank

/-!
# Markup events

Markup is first read into a flat list of events, in source order: a finished
node, an opening tag, a closing tag, or a problem.  An event depends only on the
text, not on which elements are open, so the nesting of elements is a separate
question that `Markup.Parse` answers.

A `<` that starts no construct is plain text.
-/

namespace PageDesigner

/-- What a reader of markup meets. -/
inductive Event where
  | problem (diagnostic : Diagnostic)
  | leaf (node : Node)
  | opened (tag : Tag)
  | closed (name : Text) (region : Region)

namespace Event

/-- Elements that never take a closing tag. -/
def voidNames : List Text :=
  ["area", "base", "br", "col", "embed", "hr", "img", "input", "link", "meta", "param",
    "source", "track", "wbr"]

/-- Elements whose content is raw text up to their closing tag. -/
def rawNames : List Text := ["script", "style"]

/-- A stretch of content behind an opening mark. -/
structure Enclosed where
  content : Text
  /-- Characters taken, the two marks included. -/
  length : Nat
  isClosed : Bool

/-- The content behind the first `skip` characters, up to the closing mark. -/
def enclosed (skip : Nat) (mark text : Text) : Enclosed :=
  match Text.cut? mark (text.drop skip) with
  | some (content, _) => ⟨content, skip + content.length + mark.length, true⟩
  | none => ⟨text.drop skip, text.length, false⟩

/-- Characters taken through the first `mark` behind the first `skip` characters. -/
def lengthThrough (skip : Nat) (mark text : Text) : Nat := (enclosed skip mark text).length

/-- The region of the first `length` characters behind a `<` at `first`. -/
def regionOf (first : Location) (text : Text) (length : Nat) : Region :=
  ⟨first, first.advance ('<' :: text.take length)⟩

/-- The error that a construct is never closed, unless it is. -/
def unlessClosed (part : Enclosed) (problem : Problem) (region : Region) : List Event :=
  if part.isClosed then [] else [.problem ⟨.error, problem, region⟩]

/-- A comment, behind `<`; the opening mark has `skip` characters there. -/
def comment (server : Bool) (skip : Nat) (mark : Text) (first : Location) (text : Text) :
    List Event × Nat :=
  let part := enclosed skip mark text
  let region := regionOf first text part.length
  (unlessClosed part (.unterminatedComment first) region ++
    [.leaf (.comment server part.content region)], part.length)

/-- A declaration such as `<!DOCTYPE html>`, behind `<`. -/
def doctype (first : Location) (text : Text) : List Event × Nat :=
  let part := enclosed 1 ">" text
  ([.leaf (.doctype part.content.trim (regionOf first text part.length))], part.length)

/-- The kind of a server block, and the number of characters in its mark behind `<`. -/
def blockKind : Text → BlockKind × Nat
  | '=' :: _ => (.expression, 2)
  | ':' :: _ => (.htmlEncoded, 2)
  | '#' :: _ => (.dataBinding, 2)
  | '$' :: _ => (.resource, 2)
  | _ => (.code, 1)

/-- A server block, behind `<`. -/
def block (first : Location) (text : Text) : List Event × Nat :=
  let (kind, skip) := blockKind (text.drop 1)
  let part := enclosed skip "%>" text
  let region := regionOf first text part.length
  (unlessClosed part (.unterminatedServerBlock first) region ++
    [.leaf (.block kind part.content region)], part.length)

/-- The name of a directive that does not state one. -/
def defaultDirective : Text := "Page"

/--
The directive in a body that starts at `location`.  A first word that is itself
an attribute name, since an equals sign follows, is no directive name.
-/
def directiveOf (location : Location) (body : Text) (region : Region) : Directive :=
  let blanks := body.takeWhile Text.isBlank
  let text := body.dropWhile Text.isBlank
  let name := text.takeWhile continuesName
  let rest := text.dropWhile continuesName
  let place := location.advance blanks
  if name.isEmpty || (Text.trimStart rest).head? == some '=' then
    ⟨defaultDirective, (TagBody.ofText place text).attributes, region⟩
  else
    ⟨name, (TagBody.ofText (place.advance name) rest).attributes, region⟩

/-- A directive, behind `<`. -/
def directive (first : Location) (text : Text) : List Event × Nat :=
  let part := enclosed 2 "%>" text
  let region := regionOf first text part.length
  let body := directiveOf (first.advance "<%@") part.content region
  (unlessClosed part (.unterminatedDirective first) region ++ [.leaf (.directive body)],
    part.length)

/-- A closing tag, behind `<`. -/
def closingTag (first : Location) (text : Text) : List Event × Nat :=
  let name := (text.drop 1).takeWhile continuesName
  let length := lengthThrough (1 + name.length) ">" text
  ([.closed name (regionOf first text length)], length)

/--
The end of an element with raw content, whose content starts at `location`: its
closing tag with the number of characters up to its end, if there is one.
-/
def rawEnd? (base : Text) (location : Location) (text : Text) : Option (Region × Nat) :=
  let mark : Text := "</" ++ base.lower
  match Text.cut? mark text.lower with
  | none => none
  | some (content, _) =>
      let skip := content.length + mark.length
      let length := lengthThrough skip ">" text
      some (⟨location.advance (text.take content.length), location.advance (text.take length)⟩,
        length)

/-- An opening tag, with its element when the element has no children, behind `<`. -/
def openingTag (first : Location) (text : Text) : List Event × Nat :=
  let written := text.takeWhile continuesName
  let rest := text.drop written.length
  let body := TagBody.ofText ((first.next '<').advance written) rest
  let tag : Tag := ⟨Name.ofText written, body.attributes, ⟨first, body.last⟩⟩
  let length := written.length + body.length
  let malformed : List Event :=
    match body.stop with
    | .close => []
    | .selfClose => []
    | _ => [.problem ⟨.error, .malformedTag written first "expected `>`", tag.region⟩]
  let base := tag.name.base.lower
  if body.stop = .selfClose then
    (malformed ++ [.leaf (.element tag .selfClosing [])], length)
  else if !tag.name.isQualified && voidNames.contains base then
    (malformed ++ [.leaf (.element tag .void [])], length)
  else if !tag.name.isQualified && rawNames.contains base then
    match rawEnd? base body.last (rest.drop body.length) with
    | some (closing, taken) =>
        (malformed ++ [.leaf (.element tag (.closed closing) [])], length + taken)
    | none =>
        (malformed ++ [.problem (.unclosed tag.name.text tag.region),
          .leaf (.element tag .unterminated [])], text.length)
  else
    (malformed ++ [.opened tag], length)

/--
The construct at a `<`, from the text behind it: its events and the number of
characters it takes there.
-/
def construct (first : Location) (text : Text) : List Event × Nat :=
  if ("%--" : Text).isPrefixOf text then comment true 3 "--%>" first text
  else if ("%@" : Text).isPrefixOf text then directive first text
  else if ("%" : Text).isPrefixOf text then block first text
  else if ("!--" : Text).isPrefixOf text then comment false 3 "-->" first text
  else if ("!" : Text).isPrefixOf text then doctype first text
  else
    match text with
    | [] => ([], 0)
    | char :: rest =>
        if char = '/' ∧ rest.head?.any startsTagName then closingTag first text
        else if startsTagName char then openingTag first text
        else ([], 0)

/-- The events of the text behind its next `skip` characters. -/
def eventsFrom (location : Location) : Nat → Text → List Event
  | _, [] => []
  | skip + 1, char :: rest => eventsFrom (location.next char) skip rest
  | 0, char :: rest =>
      if char = '<' then
        let (events, length) := construct location rest
        events ++ eventsFrom (location.next char) length rest
      else eventsFrom (location.next char) 0 rest

/-- The events of a text. -/
def events (text : Text) : List Event := eventsFrom .start 0 text

end Event

end PageDesigner
