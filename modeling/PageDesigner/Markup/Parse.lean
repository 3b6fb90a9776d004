import PageDesigner.Markup.Event

/-!
# Building the markup tree

Open elements wait on a stack, innermost first.  A closing tag closes the
innermost open element of its name; the elements it skips, and those still open
at the end of the text, are left unterminated with a warning each.  A closing
tag that matches nothing is only reported.
-/

namespace PageDesigner

/-- An element whose end has not been read, with the children read so far. -/
structure OpenElement where
  tag : Tag
  children : List Node

/-- A tree under construction. -/
structure Growth where
  /-- Finished nodes at the top level. -/
  nodes : List Node
  /-- Open elements, innermost first. -/
  stack : List OpenElement
  diagnostics : List Diagnostic

namespace Growth

/-- Nothing read yet. -/
def empty : Growth := ⟨[], [], []⟩

/-- Add a finished node to the innermost open element, or to the top level. -/
def add (growth : Growth) (node : Node) : Growth :=
  match growth.stack with
  | [] => { growth with nodes := growth.nodes ++ [node] }
  | top :: rest =>
      { growth with stack := { top with children := top.children ++ [node] } :: rest }

/-- Add a diagnostic. -/
def report (growth : Growth) (diagnostic : Diagnostic) : Growth :=
  { growth with diagnostics := growth.diagnostics ++ [diagnostic] }

/-- End the innermost open element in the given way. -/
def endInnermost (growth : Growth) (ending : TagEnd) : Growth :=
  match growth.stack with
  | [] => growth
  | top :: rest => { growth with stack := rest }.add (.element top.tag ending top.children)

/-- Leave the innermost open element unterminated, with a warning. -/
def abandonInnermost (growth : Growth) : Growth :=
  match growth.stack with
  | [] => growth
  | top :: _ =>
      (growth.report (.unclosed top.tag.name.text top.tag.region)).endInnermost .unterminated

/-- Leave the innermost `count` open elements unterminated. -/
def abandon : Nat → Growth → Growth
  | 0, growth => growth
  | count + 1, growth => abandon count growth.abandonInnermost

/-- Take in one event. -/
def take (growth : Growth) : Event → Growth
  | .problem diagnostic => growth.report diagnostic
  | .leaf node => growth.add node
  | .opened tag => { growth with stack := ⟨tag, []⟩ :: growth.stack }
  | .closed name region =>
      match growth.stack.findIdx? (·.tag.name.isWritten name) with
      | some skipped => (abandon skipped growth).endInnermost (.closed region)
      | none => growth.report ⟨.warning, .strayClosingTag name region.first, region⟩

/-- Take in all events and abandon what is still open. -/
def ofEvents (events : List Event) : Growth :=
  let growth := events.foldl take empty
  abandon growth.stack.length growth

end Growth

/-- Read markup into a tree.  Every text has one. -/
def Tree.parse (source : Text) : Tree :=
  let growth := Growth.ofEvents (Event.events source)
  ⟨growth.nodes, growth.diagnostics, source⟩

end PageDesigner
