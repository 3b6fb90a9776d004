import PageDesigner.Control.Render
import PageDesigner.Proofs.Document.Drawing
import PageDesigner.Proofs.Markup.Literal

/-!
# Controls read back from their HTML

Buttons, text boxes and links are drawn as one tag that states their properties, and some have their
text between it and a closing tag.  A property lands in an attribute or between the tags, through
different ways to write it, and each of them reads back as what was given, so no text of a property
can end the attribute or the element it stands in.

The attributes of such a tag are listed as `Slot`s, some of which are left empty.  A component is
then one `SlottedElement`, and what holds of all of these holds of each control.
-/

namespace PageDesigner

/-- The text, unless it is empty. -/
def Text.nonEmpty? (text : Text) : Option Text := if text.isEmpty then none else some text

/-- The value of the attribute with the given name, if there is one. -/
def Tag.stated? (tag : Tag) (key : Text) : Option Text := (tag.attribute? key).map (·.value)

/-! ## Slots -/

/-- An attribute that a tag may state. -/
abbrev Slot := Text × Option Text

namespace Slot

/-- The attribute, if it is stated. -/
def stated? (slot : Slot) : Option (Text × Text) := slot.2.map (slot.1, ·)

/-- The attribute as it is drawn, if it is stated. -/
def print (slot : Slot) : Text := (slot.2.map (Component.drawnAttribute slot.1)).getD []

theorem print_eq (slot : Slot) :
    slot.print = slot.stated?.toList.flatMap fun stated =>
      ' ' :: Component.attributeMarkup stated.1 stated.2 := by
  obtain ⟨name, value?⟩ := slot
  cases value? with
  | none => rfl
  | some value =>
      unfold print stated? Component.drawnAttribute Component.attributeMarkup
      simp

/-- An optional attribute is a slot that is empty when the value is. -/
theorem print_optional (name value : Text) :
    Component.optionalAttribute name value = print (name, value.nonEmpty?) := by
  unfold Component.optionalAttribute Text.nonEmpty?
  split <;> rfl

/-- The attributes that are stated, as they are drawn. -/
theorem flatMap_print (slots : List Slot) :
    (slots.filterMap stated?).flatMap (fun stated =>
      ' ' :: Component.attributeMarkup stated.1 stated.2) = slots.flatMap print := by
  induction slots with
  | nil => rfl
  | cons slot slots ih =>
      rw [List.flatMap_cons, print_eq, ← ih, List.filterMap_cons]
      cases slot.stated? <;> simp

/-- Among slots of distinct names, a name finds the value of its own one. -/
theorem find?_stated {slots : List Slot} (distinct : (slots.map (·.1.lower)).Nodup) {slot : Slot}
    (member : slot ∈ slots) :
    ((slots.filterMap stated?).find? (·.1.sameName slot.1)).map (·.2) = slot.2 := by
  induction slots with
  | nil => cases member
  | cons other slots ih =>
      obtain ⟨apart, distinct'⟩ := List.nodup_cons.mp distinct
      rcases List.mem_cons.mp member with rfl | later
      · obtain ⟨name, value?⟩ := slot
        cases value? with
        | some value =>
            have stated : stated? (name, some value) = some (name, value) := rfl
            rw [List.filterMap_cons_some stated]
            simp only [List.find?_cons, Text.sameName_refl, Option.map_some]
        | none =>
            -- The name of an empty slot is found nowhere behind it.
            refine Option.map_eq_none_iff.mpr (List.find?_eq_none.mpr fun stated found same => ?_)
            rw [List.filterMap_cons_none rfl] at found
            obtain ⟨⟨name', value?⟩, listed, here⟩ := List.mem_filterMap.mp found
            obtain ⟨value, -, rfl⟩ := Option.map_eq_some_iff.mp here
            exact apart (List.mem_map.mpr ⟨_, listed, Text.sameName_iff.mp same⟩)
      · have differs : other.1.sameName slot.1 = false := Bool.eq_false_iff.mpr fun same =>
          apart (List.mem_map.mpr ⟨slot, later, (Text.sameName_iff.mp same).symm⟩)
        obtain ⟨name, value?⟩ := other
        cases value? with
        | none =>
            rw [List.filterMap_cons_none rfl]
            exact ih distinct' later
        | some value =>
            have stated : stated? (name, some value) = some (name, value) := rfl
            rw [List.filterMap_cons_some stated]
            simp only [List.find?_cons, differs]
            exact ih distinct' later

end Slot

/-! ## Elements with slots -/

/-- Names of attributes that are read as they are written. -/
def isPlainName (name : Text) : Bool :=
  name.head?.any startsName && name.all continuesName

/-- An element that states slots, with text between its tags if it has two. -/
structure SlottedElement where
  written : Text
  slots : List Slot
  text? : Option Text
  named : written.head?.any startsTagName = true
  word : written.all continuesName = true
  plain : (slots.map (·.1)).all isPlainName = true
  distinct : (slots.map (·.1.lower)).Nodup
  opens : Event.holdsMarkup (Name.ofText written) = true ∨ text? = none

namespace SlottedElement

variable (element : SlottedElement)

/-- The element as it is drawn. -/
def print : Text :=
  '<' :: (element.written ++ element.slots.flatMap Slot.print) ++
    match element.text? with
    | none => " />"
    | some text => ">" ++ Reference.escapeText text ++ "</" ++ element.written ++ ">"

/-- The tag that states the slots. -/
def tag : StatedTag where
  written := element.written
  attributes := element.slots.filterMap Slot.stated?
  named := element.named
  word := element.word
  writable := by
    intro stated member
    obtain ⟨⟨name, value?⟩, listed, here⟩ := List.mem_filterMap.mp member
    obtain ⟨value, -, rfl⟩ := Option.map_eq_some_iff.mp here
    have own := List.all_eq_true.mp element.plain name (List.mem_map_of_mem listed)
    obtain ⟨starts, continues⟩ := Bool.and_eq_true_iff.mp own
    exact Piece.writable_of_word starts continues value

theorem markup_tag :
    element.tag.markup = '<' :: (element.written ++ element.slots.flatMap Slot.print) := by
  rw [← Slot.flatMap_print]
  rfl

end SlottedElement

/-- A tag states what was written. -/
theorem StatedTag.stated?_tagAt (tag : StatedTag) (single : Bool) (first : Location) (key : Text) :
    (tag.tagAt single first).stated? key =
      (tag.attributes.find? (·.1.sameName key)).map (·.2) := by
  have found : ∀ (location : Location) (attributes : List (Text × Text)),
      ((TagBody.stated location attributes).find? (·.name.isWritten key)).map (·.value) =
        (attributes.find? (·.1.sameName key)).map (·.2) := by
    intro location attributes
    induction attributes generalizing location with
    | nil => rfl
    | cons entry attributes ih =>
        obtain ⟨name, value⟩ := entry
        have named : (Name.ofText name).isWritten key = name.sameName key := by
          unfold Name.isWritten
          rw [Name.text_ofText]
        unfold TagBody.stated
        simp only [List.find?_cons, named]
        cases name.sameName key with
        | true => rfl
        | false => exact ih _
  exact found _ _

namespace SlottedElement

variable (element : SlottedElement)

/-- The tag states each slot with its value. -/
theorem stated?_tag {slot : Slot} (member : slot ∈ element.slots) (single : Bool)
    (first : Location) : (element.tag.tagAt single first).stated? slot.1 = slot.2 := by
  rw [StatedTag.stated?_tagAt]
  exact Slot.find?_stated element.distinct member

/-- An element that is drawn is read back alone, with the slots that it states and the text between
its tags, and nothing is reported. -/
theorem parse_print :
    ∃ parsed : Element,
      Tree.parse element.print =
        ⟨[.element parsed.toTag parsed.ending []], [], element.print⟩ ∧
      (∀ slot ∈ element.slots, parsed.stated? slot.1 = slot.2) ∧
      ∀ text, element.text? = some text →
        Reference.decode ((Tree.parse element.print).content parsed) = text := by
  cases filled : element.text? with
  | none =>
      have brings := Event.brings_single .start element.tag
      have text : element.print = element.tag.markup ++ StatedTag.mark true := by
        unfold print
        rw [filled, markup_tag]
        rfl
      rw [← text] at brings
      refine ⟨⟨element.tag.tagAt true .start, .selfClosing, []⟩, brings.parse_eq,
        fun slot member => element.stated?_tag member true .start, fun _ none' => nomatch none'⟩
  | some text =>
      have opens : element.tag.opens = true := by
        refine element.opens.resolve_right fun none' => ?_
        rw [filled] at none'
        cases none'
      have inner := Event.brings_plain
        (Location.start.advance (element.tag.markup ++ StatedTag.mark false))
        ⟨Reference.escapeText text, Reference.less_not_mem_escapeText text⟩
      have brings := inner.paired opens
      dsimp only at brings
      have whole : element.print = element.tag.markup ++ StatedTag.mark false ++
          (Reference.escapeText text ++ '<' :: '/' :: (element.tag.written ++ ['>'])) := by
        unfold print
        rw [filled, markup_tag]
        simp [tag, StatedTag.mark]
      rw [← whole] at brings
      refine ⟨⟨element.tag.tagAt false .start, .closed ⟨_, _⟩, []⟩, brings.parse_eq,
        fun slot member => element.stated?_tag member false .start, ?_⟩
      intro other same
      obtain rfl := Option.some.inj same
      rw [brings.parse_eq]
      unfold Tree.content
      dsimp only
      rw [← Location.advance_append, StatedTag.tagAt]
      dsimp only
      rw [Tree.slice_part whole]
      exact Reference.decode_escapeText text

end SlottedElement

namespace Component

variable (component : Component) (site : Text)

/-! ## The slots of the controls -/

/-- The slots for the appearance that web controls have in common. -/
def appearanceSlots : List Slot :=
  [("class", (component.text "CssClass").nonEmpty?),
    ("title", (component.text "ToolTip").nonEmpty?),
    ("disabled", if component.flag "Enabled" then none else some "disabled")]

theorem appearance_eq : component.appearance = component.appearanceSlots.flatMap Slot.print := by
  unfold appearance appearanceSlots
  rw [Slot.print_optional, Slot.print_optional]
  cases component.flag "Enabled" with
  | true => simp [Slot.print, Text.onlyIf]
  | false => simp [Slot.print, Text.onlyIf, drawnAttribute]; rfl

/-- A number that is drawn only when it is positive. -/
def positive? (number : Int64) : Option Text :=
  Text.nonEmpty? (if 0 < number then Text.ofInt number.toInt else [])

theorem positiveAttribute_eq (name : Text) (number : Int64) :
    positiveAttribute name number = Slot.print (name, positive? number) :=
  Slot.print_optional _ _

/-- The slots of a button. -/
def buttonSlots : List Slot :=
  ("type", some "submit") :: ("name", some site) :: ("value", some (component.text "Text")) ::
    ("id", some site) :: component.appearanceSlots

/-- The slots of a text box that follow those of its layout. -/
def boxSlots : List Slot :=
  ("readonly", if component.flag "ReadOnly" then some "readonly" else none) ::
    component.appearanceSlots

/-- The slots of a text box over several lines. -/
def areaSlots : List Slot :=
  ("name", some site) :: ("id", some site) :: ("rows", positive? (component.number "Rows")) ::
    ("cols", positive? (component.number "Columns")) :: component.boxSlots

/-- The slots of a text box on one line. -/
def inputSlots (isPassword : Bool) : List Slot :=
  ("name", some site) :: ("type", some (if isPassword then "password" else "text")) ::
    ("value", if isPassword then none else (component.text "Text").nonEmpty?) ::
    ("id", some site) :: ("maxlength", positive? (component.number "MaxLength")) ::
    ("size", positive? (component.number "Columns")) :: component.boxSlots

/-- The slots of a link. -/
def linkSlots : List Slot :=
  ("id", some site) :: ("href", component.resolvedUrl.nonEmpty?) ::
    ("target", (component.text "Target").nonEmpty?) :: component.appearanceSlots

theorem boxAttributes_eq : component.boxAttributes = component.boxSlots.flatMap Slot.print := by
  unfold boxAttributes boxSlots
  rw [List.flatMap_cons, appearance_eq]
  cases component.flag "ReadOnly" with
  | true => rfl
  | false => rfl

/-! ## The controls as elements -/

/-- A button as an element. -/
def buttonElement : SlottedElement where
  written := "input"
  slots := component.buttonSlots site
  text? := none
  named := rfl
  word := rfl
  plain := rfl
  distinct := by
    show List.Nodup
      (["type", "name", "value", "id", "class", "title", "disabled"] : List Text)
    decide
  opens := .inr rfl

/-- A text box over several lines as an element. -/
def areaElement : SlottedElement where
  written := "textarea"
  slots := component.areaSlots site
  text? := some (component.text "Text")
  named := rfl
  word := rfl
  plain := rfl
  distinct := by
    show List.Nodup
      (["name", "id", "rows", "cols", "readonly", "class", "title", "disabled"] : List Text)
    decide
  opens := .inl (by decide)

/-- A text box on one line as an element. -/
def inputElement (isPassword : Bool) : SlottedElement where
  written := "input"
  slots := component.inputSlots site isPassword
  text? := none
  named := rfl
  word := rfl
  plain := rfl
  distinct := by
    show List.Nodup
      (["name", "type", "value", "id", "maxlength", "size", "readonly", "class", "title",
        "disabled"] : List Text)
    decide
  opens := .inr rfl

/-- A link as an element. -/
def linkElement : SlottedElement where
  written := "a"
  slots := component.linkSlots site
  text? := some (component.text "Text")
  named := rfl
  word := rfl
  plain := rfl
  distinct := by
    show List.Nodup (["id", "href", "target", "class", "title", "disabled"] : List Text)
    decide
  opens := .inl (by decide)

theorem drawButton_eq : component.drawButton site = (component.buttonElement site).print := by
  have kind : Slot.print ("type", some "submit") = " type=\"submit\"" := rfl
  unfold drawButton SlottedElement.print buttonElement buttonSlots
  simp only [List.flatMap_cons]
  rw [← appearance_eq, kind]
  simp [Slot.print]

theorem drawTextArea_eq : component.drawTextArea site = (component.areaElement site).print := by
  unfold drawTextArea SlottedElement.print areaElement areaSlots
  simp only [List.flatMap_cons]
  rw [← boxAttributes_eq, positiveAttribute_eq, positiveAttribute_eq]
  simp [Slot.print]

theorem drawInput_eq (isPassword : Bool) :
    component.drawInput site isPassword = (component.inputElement site isPassword).print := by
  have shown : Text.onlyIf (!isPassword) (optionalAttribute "value" (component.text "Text")) =
      Slot.print ("value", if isPassword then none else (component.text "Text").nonEmpty?) := by
    rw [Slot.print_optional]
    cases isPassword with
    | true => rfl
    | false => rfl
  unfold drawInput SlottedElement.print inputElement inputSlots
  simp only [List.flatMap_cons]
  rw [← boxAttributes_eq, positiveAttribute_eq, positiveAttribute_eq, shown]
  have start : ("<input" : Text) = '<' :: "input" := rfl
  rw [start]
  simp only [Slot.print, Option.map_some, Option.getD_some, List.append_assoc, List.cons_append]

theorem drawHyperLink_eq : component.drawHyperLink site = (component.linkElement site).print := by
  unfold drawHyperLink SlottedElement.print linkElement linkSlots
  simp only [List.flatMap_cons]
  rw [← appearance_eq, Slot.print_optional, Slot.print_optional]
  simp [Slot.print]

/-! ## Controls read back -/

/-- Whether the component is a button, a text box or a link. -/
def hasSlots : Bool :=
  match component.controlType.look with
  | .button => true
  | .textBox => true
  | .hyperLink => true
  | _ => false

/-- A button, a text box or a link as an element. -/
def slotted : SlottedElement :=
  match component.controlType.look with
  | .button => component.buttonElement site
  | .hyperLink => component.linkElement site
  | _ =>
      if component.text "TextMode" = "MultiLine" then component.areaElement site
      else component.inputElement site (component.text "TextMode" = "Password")

section

variable {component : Component}

theorem slotted_button (look : component.controlType.look = .button) :
    component.slotted site = component.buttonElement site := by
  unfold slotted
  rw [look]

theorem slotted_hyperLink (look : component.controlType.look = .hyperLink) :
    component.slotted site = component.linkElement site := by
  unfold slotted
  rw [look]

theorem slotted_area (look : component.controlType.look = .textBox)
    (mode : component.text "TextMode" = "MultiLine") :
    component.slotted site = component.areaElement site := by
  unfold slotted
  rw [look]
  exact if_pos mode

theorem slotted_input (look : component.controlType.look = .textBox)
    (mode : component.text "TextMode" ≠ "MultiLine") :
    component.slotted site =
      component.inputElement site (component.text "TextMode" = "Password") := by
  unfold slotted
  rw [look]
  exact if_neg mode

end

/-- A component that is visible is drawn as the element it is. -/
theorem render_eq_print (shown : component.hasSlots = true)
    (visible : component.flag "Visible" = true) :
    component.render site = (component.slotted site).print := by
  have seen (drawing : Text) : component.whenVisible drawing = drawing := if_pos visible
  unfold hasSlots at shown
  split at shown
  · next look =>
      rw [slotted_button site look, ← drawButton_eq]
      unfold render
      rw [look]
      exact seen _
  · next look =>
      unfold render slotted
      rw [look]
      dsimp only
      rw [seen, drawTextBox, drawTextArea_eq, drawInput_eq, apply_ite SlottedElement.print]
  · next look =>
      rw [slotted_hyperLink site look, ← drawHyperLink_eq]
      unfold render
      rw [look]
      exact seen _
  · cases shown

/-- The element of a component states its site name. -/
theorem id_mem_slotted : (("id", some site) : Slot) ∈ (component.slotted site).slots := by
  unfold slotted
  split
  · exact .tail _ (.tail _ (.tail _ (.head _)))
  · exact .head _
  · split
    · exact .tail _ (.head _)
    · exact .tail _ (.tail _ (.tail _ (.head _)))

/-- The element of a component states its appearance. -/
theorem appearance_subset_slotted :
    component.appearanceSlots ⊆ (component.slotted site).slots := by
  intro slot member
  have boxed : slot ∈ component.boxSlots := .tail _ member
  unfold slotted
  split
  · exact .tail _ (.tail _ (.tail _ (.tail _ member)))
  · exact .tail _ (.tail _ (.tail _ member))
  · split
    · exact .tail _ (.tail _ (.tail _ (.tail _ boxed)))
    · exact .tail _ (.tail _ (.tail _ (.tail _ (.tail _ (.tail _ boxed)))))

/-- What an element in a tree says of the component that was drawn. -/
structure ReadBack (tree : Tree) (element : Element) : Prop where
  id : element.id? = some site
  style : element.stated? "class" = (component.text "CssClass").nonEmpty?
  tip : element.stated? "title" = (component.text "ToolTip").nonEmpty?
  button : component.controlType.look = .button →
    element.stated? "value" = some (component.text "Text")
  area : component.controlType.look = .textBox → component.text "TextMode" = "MultiLine" →
    Reference.decode (tree.content element) = component.text "Text"
  input : component.controlType.look = .textBox → component.text "TextMode" ≠ "MultiLine" →
    component.text "TextMode" ≠ "Password" →
    element.stated? "value" = (component.text "Text").nonEmpty?
  link : component.controlType.look = .hyperLink →
    element.stated? "href" = component.resolvedUrl.nonEmpty? ∧
      Reference.decode (tree.content element) = component.text "Text"

variable {component site}

/-- What states each slot of a component, with its text in between, is the component read back. -/
theorem readBack_of_slotted {tree : Tree} {element : Element} (named : site ≠ [])
    (states : ∀ slot ∈ (component.slotted site).slots, element.stated? slot.1 = slot.2)
    (holds : ∀ text, (component.slotted site).text? = some text →
      Reference.decode (tree.content element) = text) :
    component.ReadBack site tree element where
  id := by
    have stated := states _ (component.id_mem_slotted site)
    unfold Tag.stated? at stated
    unfold Tag.id? Tag.value
    dsimp only at stated ⊢
    rw [stated, Option.getD_some, if_neg (by simpa using named)]
  style := states _ (component.appearance_subset_slotted site (.head _))
  tip := states _ (component.appearance_subset_slotted site (.tail _ (.head _)))
  button := by
    intro look
    rw [slotted_button site look] at states
    exact states _ (.tail _ (.tail _ (.head _)))
  area := by
    intro look mode
    rw [slotted_area site look mode] at holds
    exact holds _ rfl
  input := by
    intro look area password
    rw [slotted_input site look area, decide_eq_false password] at states
    exact states ("value", (component.text "Text").nonEmpty?) (.tail _ (.tail _ (.head _)))
  link := by
    intro look
    rw [slotted_hyperLink site look] at states holds
    exact ⟨states _ (.tail _ (.head _)), holds _ rfl⟩

/-- Another component of the same type that may only differ in one property. -/
structure DiffersOnlyIn (key : Text) (component other : Component) : Prop where
  controlType : other.controlType = component.controlType
  get? : ∀ name : Text, name.sameName key = false → other.get? name = component.get? name

namespace DiffersOnlyIn

variable {key : Text} {other : Component} (differs : DiffersOnlyIn key component other)

include differs

theorem text (name : Text) (elsewhere : name.sameName key = false) :
    other.text name = component.text name := by
  unfold Component.text
  rw [differs.get? name elsewhere]

theorem flag (name : Text) (elsewhere : name.sameName key = false) :
    other.flag name = component.flag name := by
  unfold Component.flag
  rw [differs.get? name elsewhere]

theorem number (name : Text) (elsewhere : name.sameName key = false) :
    other.number name = component.number name := by
  unfold Component.number
  rw [differs.get? name elsewhere]

end DiffersOnlyIn

/-- A text box for a password draws nothing of its text. -/
theorem render_password {other : Component} (look : component.controlType.look = .textBox)
    (password : component.text "TextMode" = "Password")
    (differs : DiffersOnlyIn "Text" component other) :
    other.render site = component.render site := by
  have drawn : ∀ box : Component, box.controlType.look = .textBox →
      box.text "TextMode" = "Password" →
      box.render site = box.whenVisible (box.drawInput site true) := by
    intro box look password
    unfold render drawTextBox
    rw [look, password]
    rfl
  have password' : other.text "TextMode" = "Password" := by
    rw [differs.text _ (by decide), password]
  rw [drawn component look password, drawn other (by rw [differs.controlType, look]) password']
  unfold whenVisible drawInput boxAttributes appearance
  rw [differs.flag "Visible" (by decide), differs.number "MaxLength" (by decide),
    differs.number "Columns" (by decide), differs.flag "ReadOnly" (by decide),
    differs.text "CssClass" (by decide), differs.text "ToolTip" (by decide),
    differs.flag "Enabled" (by decide)]
  rfl

/-- A visible button, text box or link is read back from its HTML as a single element with its site
name, its appearance and its text, whatever the texts of its properties are, and nothing is
reported.  A text box for a password is drawn the same for every text. -/
theorem parse_render (component : Component) {site : Text} (valid : Naming.isValid site = true)
    (shown : component.hasSlots = true) (visible : component.flag "Visible" = true) :
    (∃ element : Element,
      Tree.parse (component.render site) =
        ⟨[.element element.toTag element.ending []], [], component.render site⟩ ∧
      component.ReadBack site (Tree.parse (component.render site)) element) ∧
    (component.controlType.look = .textBox → component.text "TextMode" = "Password" →
      ∀ other, DiffersOnlyIn "Text" component other →
        other.render site = component.render site) := by
  have named : site ≠ [] := by
    rintro rfl
    cases valid
  have drawn := component.render_eq_print site shown visible
  obtain ⟨element, parsed, states, holds⟩ := (component.slotted site).parse_print
  rw [← drawn] at parsed holds
  exact ⟨⟨element, parsed, readBack_of_slotted named states holds⟩,
    fun look password _ differs => render_password look password differs⟩

/-- A link whose texts hold quotes, angle brackets and ampersands. -/
def hostileLink : Component :=
  { fresh Builtin.hyperLink with
    values := [("Text", .string "</a>&lt;\n"), ("ToolTip", .string "\"><b>"),
      ("NavigateUrl", .string "~/?a=1&b=\"")] }

/-- A link that was prepared is read back with its resolved address. -/
theorem parse_render_hostileLink :
    ∃ element : Element,
      Tree.parse (hostileLink.prepared.render "Link1") =
        ⟨[.element element.toTag element.ending []], [], hostileLink.prepared.render "Link1"⟩ ∧
      element.id? = some "Link1" ∧ element.stated? "class" = none ∧
      element.stated? "title" = some "\"><b>" ∧ element.stated? "href" = some "/?a=1&b=\"" ∧
      Reference.decode ((Tree.parse (hostileLink.prepared.render "Link1")).content element) =
        "</a>&lt;\n" := by
  obtain ⟨⟨element, parsed, back⟩, -⟩ :=
    @parse_render hostileLink.prepared "Link1" rfl rfl rfl
  obtain ⟨address, content⟩ := back.link rfl
  exact ⟨element, parsed, back.id, back.style, back.tip, address, content⟩

end Component

end PageDesigner
