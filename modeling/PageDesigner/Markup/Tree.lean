import PageDesigner.Markup.Diagnostic
import PageDesigner.Markup.Name
import PageDesigner.Text.Source

/-!
# Markup trees

A page is a forest of nodes.  Plain text is not a node: it is whatever lies
between the regions of the nodes, and is copied from the source when needed.
The region of an element covers its opening tag only; how the element ends is
recorded beside it.
-/

namespace PageDesigner

/-- An attribute as written, with its character references decoded. -/
structure Attribute where
  name : Name
  value : Text
  region : Region
  deriving DecidableEq, Repr, Inhabited

/-- An opening tag. -/
structure Tag where
  name : Name
  attributes : List Attribute
  region : Region
  deriving DecidableEq, Repr, Inhabited

/-- How the markup of an element ends. -/
inductive TagEnd where
  | selfClosing
  | closed (region : Region)
  | void
  | unterminated
  deriving DecidableEq, Repr

/-- A directive such as `<%@ Page ... %>`. -/
structure Directive where
  name : Text
  attributes : List Attribute
  region : Region
  deriving DecidableEq, Repr

/-- What a server block does with its content. -/
inductive BlockKind where
  | code
  | expression
  | htmlEncoded
  | dataBinding
  | resource
  deriving DecidableEq, Repr

/-- A node of the markup tree. -/
inductive Node where
  | element (tag : Tag) (ending : TagEnd) (children : List Node)
  | directive (content : Directive)
  | block (kind : BlockKind) (content : Text) (region : Region)
  | comment (server : Bool) (content : Text) (region : Region)
  | doctype (content : Text) (region : Region)

/-- An element: its opening tag, its children and its end. -/
structure Element extends Tag where
  ending : TagEnd
  children : List Node

namespace Tag

/-- The first attribute with the given name, up to letter case. -/
def attribute? (tag : Tag) (key : Text) : Option Attribute :=
  tag.attributes.find? (·.name.isWritten key)

/-- The value of the attribute with the given name, or nothing at all. -/
def value (tag : Tag) (key : Text) : Text :=
  ((tag.attribute? key).map (·.value)).getD []

/-- Whether the tag says `runat="server"`. -/
def runsAtServer (tag : Tag) : Bool :=
  tag.attributes.any fun entry =>
    entry.name.isWritten "runat" && entry.value.sameName "server"

/--
Server controls have a qualified name or run at the server.  A script that runs
at the server holds page code and is not a control.
-/
def isServerControl (tag : Tag) : Bool :=
  !tag.name.is "script" && (tag.name.isQualified || tag.runsAtServer)

/-- The `id` of the tag, unless it is missing or empty. -/
def id? (tag : Tag) : Option Text :=
  let id := tag.value "id"
  if id.isEmpty then none else some id

/-- Whether the tag is a server control with the given id, up to letter case. -/
def isControlNamed (tag : Tag) (id : Text) : Bool :=
  tag.isServerControl && tag.id?.any (·.sameName id)

end Tag

namespace Element

/-- Whether the element is written as one tag, `<tag />`. -/
def isSelfClosing (element : Element) : Bool := element.ending = .selfClosing

/-- The region of the closing tag, when there is one. -/
def closing? (element : Element) : Option Region :=
  match element.ending with
  | .closed region => some region
  | _ => none

/-- From the opening tag through the closing tag, for a terminated element. -/
def outer? (element : Element) : Option Region :=
  match element.ending with
  | .selfClosing => some element.region
  | .void => some element.region
  | .closed closing => some ⟨element.region.first, closing.last⟩
  | .unterminated => none

/-- Where the element ends; an unterminated element ends with its opening tag. -/
def last (element : Element) : Location :=
  ((element.outer?).map (·.last)).getD element.region.last

end Element

namespace Node

/-- The region of a node; of an element, that of its opening tag. -/
def region : Node → Region
  | element tag _ _ => tag.region
  | directive content => content.region
  | block _ _ region => region
  | comment _ _ region => region
  | doctype _ region => region

/-- The node as an element, if it is one. -/
def element? : Node → Option Element
  | element tag ending children => some ⟨tag, ending, children⟩
  | _ => none

mutual

/-- The element of a node and all elements below it, in document order. -/
def elements : Node → List Element
  | element tag ending children => ⟨tag, ending, children⟩ :: elementsOf children
  | _ => []

/-- All elements of a forest, in document order. -/
def elementsOf : List Node → List Element
  | [] => []
  | node :: rest => elements node ++ elementsOf rest

end

mutual

/-- The directives in and below a node, in document order. -/
def directives : Node → List Directive
  | directive content => [content]
  | element _ _ children => directivesOf children
  | _ => []

/-- The directives of a forest, in document order. -/
def directivesOf : List Node → List Directive
  | [] => []
  | node :: rest => directives node ++ directivesOf rest

end

end Node

/-- The elements below an element, in document order. -/
def Element.descendants (element : Element) : List Element := Node.elementsOf element.children

/-- Parsed markup together with the text it was read from. -/
structure Tree where
  nodes : List Node
  diagnostics : List Diagnostic
  source : Text

namespace Tree

/-- The first element at the top level, normally `html`. -/
def root? (tree : Tree) : Option Element := tree.nodes.findSome? Node.element?

/-- Every element, in document order. -/
def elements (tree : Tree) : List Element := Node.elementsOf tree.nodes

/-- Every directive, wherever it stands. -/
def directives (tree : Tree) : List Directive := Node.directivesOf tree.nodes

/-- Every tag of a server control, in document order. -/
def controls (tree : Tree) : List Element := tree.elements.filter (·.isServerControl)

/-- The first server control whose id is `id` up to letter case. -/
def control? (tree : Tree) (id : Text) : Option Element :=
  tree.elements.find? (·.isControlNamed id)

/-- The source text between two locations. -/
def slice (tree : Tree) (first last : Location) : Text := Source.slice tree.source first last

end Tree

end PageDesigner
