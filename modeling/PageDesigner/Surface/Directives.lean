import PageDesigner.Control.Tag

/-!
# The directive table

Directives such as `<%@ Page ... %>` are kept apart from the components, each
under a key that stands for it in the markup.  There is at most one `Page` and
one `Control` directive.  Keys count up and are never handed out again.
-/

namespace PageDesigner

/-- A registered directive. -/
structure DirectiveRecord where
  name : Text
  /-- Attributes in the order of the markup. -/
  properties : List (Text × Text)
  key : Nat
  deriving DecidableEq, Repr

namespace DirectiveRecord

/-- The value of the first attribute with the given name. -/
def property? (record : DirectiveRecord) (name : Text) : Option Text :=
  (record.properties.find? (·.1.sameName name)).map (·.2)

/-- One attribute of a directive as written in markup, after a blank. -/
def propertyMarkup (property : Text × Text) : Text :=
  " " ++ Component.attributeMarkup property.1 property.2

/-- The directive as written in markup. -/
def markup (record : DirectiveRecord) : Text :=
  "<%@ " ++ record.name ++ record.properties.flatMap propertyMarkup ++ " %>"

end DirectiveRecord

/-- The registered directives and the next key. -/
structure DirectiveTable where
  records : List DirectiveRecord
  /-- Number of keys handed out so far.  The designer counts in 64 bits, and no run is long enough
  for the count to wrap. -/
  nextKey : Nat
  deriving DecidableEq, Repr

namespace DirectiveTable

/-- No directive was ever registered. -/
def empty : DirectiveTable := ⟨[], 0⟩

/-- Directives that a document has at most once. -/
def uniqueNames : List Text := ["Page", "Control"]

/-- The markup that stands for the directive with the given key. -/
def placeholder (key : Nat) : Text :=
  "<directiveplaceholder id=\"" ++ Text.ofNat key ++ "\" />"

/-- The first directive with the given name. -/
def first? (table : DirectiveTable) (name : Text) : Option DirectiveRecord :=
  table.records.find? (·.name.sameName name)

/-- Every directive with the given name. -/
def named (table : DirectiveTable) (name : Text) : List DirectiveRecord :=
  table.records.filter (·.name.sameName name)

/-- The declared spelling of a unique directive that is there already. -/
def conflict? (table : DirectiveTable) (name : Text) : Option Text :=
  (uniqueNames.find? (·.sameName name)).filter fun unique => (table.first? unique).isSome

/-- Register a directive; gives the markup that stands for it. -/
def add (table : DirectiveTable) (name : Text) (properties : List (Text × Text)) :
    Except DesignError (Text × DirectiveTable) :=
  match table.conflict? name with
  | some unique => .error (.duplicateDirective unique)
  | none =>
      .ok (placeholder table.nextKey,
        ⟨table.records ++ [⟨name, properties, table.nextKey⟩], table.nextKey + 1⟩)

/-- The attributes of a directive node as they are registered. -/
def propertiesOf (directive : Directive) : List (Text × Text) :=
  directive.attributes.map fun entry => (entry.name.text, entry.value)

/-- Register a directive of the markup. -/
def addParsed (table : DirectiveTable) (directive : Directive) :
    Except DesignError (Text × DirectiveTable) :=
  table.add directive.name (propertiesOf directive)

/-- Remove the directive with the given key; gives its markup. -/
def remove (table : DirectiveTable) (key : Nat) : Except DesignError (Text × DirectiveTable) :=
  match table.records.find? (·.key == key) with
  | none => .error (.unknownDirective key)
  | some record =>
      .ok (record.markup, { table with records := table.records.eraseP (·.key == key) })

/-- The first directive with the given name; an empty one is registered when there is none. -/
def firstOrAdd (table : DirectiveTable) (name : Text) :
    Except DesignError (DirectiveRecord × DirectiveTable) :=
  match table.first? name with
  | some record => .ok (record, table)
  | none =>
      match table.add name [] with
      | .error failure => .error failure
      | .ok (_, extended) =>
          match extended.first? name with
          | some record => .ok (record, extended)
          | none => .error (.duplicateDirective name)

/-- The table without its directives; keys go on counting. -/
def cleared (table : DirectiveTable) : DirectiveTable := { table with records := [] }

end DirectiveTable

end PageDesigner
