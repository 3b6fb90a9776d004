import PageDesigner.Proofs.Control.LastRead
import PageDesigner.Proofs.Document.Addressing
import PageDesigner.Proofs.Document.Dropping

/-!
# What is written for a property

A value of a property is written into the tag that the name of its component leads to:
the declared value drops the first attribute of the property, any other value replaces the
first one or is added (`updateTag_eq`).  The name leads to that tag afterwards as well, and
all attributes of the property behind the first one stay what they are.  So the tag gives
the value back just in case those confirm it, and says nothing about the property just in
case there are none (`updateTag_agrees_iff`).
-/

namespace PageDesigner

namespace Entry

/-- The values that entries state under a name behind the first one. -/
def further (key : Text) (entries : List Entry) : List Text := (under key entries).tail

/-- Without the first entry of a name, the others are left under it. -/
theorem under_eraseP (key : Text) (entries : List Entry) :
    under key (entries.eraseP (·.1.isWritten key)) = further key entries := by
  unfold further under
  induction entries with
  | nil => rfl
  | cons entry entries ih =>
      cases named : entry.1.isWritten key with
      | true => simp [named]
      | false => simpa [List.eraseP_cons, List.filter_cons, named] using ih

/-- The first value under a name is the one that is found. -/
theorem head?_under (key : Text) (entries : List Entry) :
    (under key entries).head? = (entries.find? (·.1.isWritten key)).map Prod.snd := by
  unfold under
  rw [List.head?_map, List.head?_filter]

theorem under_eq_cons {key value : Text} {entries : List Entry}
    (found : (entries.find? (·.1.isWritten key)).map Prod.snd = some value) :
    under key entries = value :: further key entries := by
  rw [← head?_under] at found
  exact (List.cons_head?_tail found).symm

section

variable {key : Text} (plain : (key.sameName "id" || key.sameName "runat") = false)
  {entries entries' : List Entry}
  (same : entries'.eraseP (·.1.isWritten key) = entries.eraseP (·.1.isWritten key))

include plain in
/-- A plain name is none of the two that make a control. -/
theorem apart_of_plain {name : Name} (named : name.isWritten key = true) :
    name.isWritten "id" = false ∧ name.isWritten "runat" = false := by
  have lower := Text.sameName_iff.mp named
  rw [Bool.or_eq_false_iff] at plain
  unfold Text.sameName at plain
  unfold Name.isWritten Text.sameName
  rw [lower]
  exact plain

include plain in
/-- An entry of a plain name does not say whether the tag runs at the server, and is no `id`. -/
theorem control_eraseP (entries : List Entry) :
    runsAtServer (entries.eraseP (·.1.isWritten key)) = runsAtServer entries ∧
      id? (entries.eraseP (·.1.isWritten key)) = id? entries := by
  unfold runsAtServer id?
  induction entries with
  | nil => exact ⟨rfl, rfl⟩
  | cons entry entries ih =>
      cases named : entry.1.isWritten key with
      | true =>
          obtain ⟨noId, noRunat⟩ := apart_of_plain plain named
          rw [List.eraseP_cons, named, cond_true, List.any_cons, noRunat, List.find?_cons, noId]
          exact ⟨rfl, rfl⟩
      | false =>
          rw [List.eraseP_cons, named, cond_false, List.any_cons, List.any_cons, List.find?_cons,
            List.find?_cons, ih.1]
          refine ⟨rfl, ?_⟩
          cases entry.1.isWritten "id" with
          | true => rfl
          | false => exact ih.2

include plain same in
/-- Entries that differ in the first one of a plain name make the same control. -/
theorem control_congr :
    runsAtServer entries' = runsAtServer entries ∧ id? entries' = id? entries := by
  have here := control_eraseP plain entries
  have there := control_eraseP plain entries'
  rw [same] at there
  exact ⟨there.1.symm.trans here.1, there.2.symm.trans here.2⟩

end

end Entry

/-- Whether a tag is a control with an id depends on its name, on where it runs and on its `id`. -/
theorem Tag.isControlNamed_congr {tag tag' : Tag} (name : tag'.name = tag.name)
    (server : Entry.runsAtServer tag'.entries = Entry.runsAtServer tag.entries)
    (own : Entry.id? tag'.entries = Entry.id? tag.entries) (id : Text) :
    tag'.isControlNamed id = tag.isControlNamed id := by
  rw [Tag.runsAtServer_entries, Tag.runsAtServer_entries] at server
  rw [Tag.id?_entries, Tag.id?_entries] at own
  unfold isControlNamed isServerControl
  rw [name, server, own]

theorem Tag.isControlNamed_of_said {tag tag' : Tag} (same : tag'.said = tag.said) (id : Text) :
    tag'.isControlNamed id = tag.isControlNamed id := by
  obtain ⟨name, entries⟩ := Prod.mk.inj same
  exact isControlNamed_congr name (congrArg _ entries) (congrArg _ entries) id

/-- A name leads to the element in the place of the one that it led to, when that is the same control
as before. -/
theorem Tree.control?_of_said {tree : Tree} {former former' latter' : List Element}
    {element edited : Element} {id : Text}
    (elements : tree.elements = former' ++ edited :: latter')
    (unchanged : former'.map (·.toTag.said) = former.map (·.toTag.said))
    (name : edited.name = element.name)
    (control : Entry.runsAtServer edited.entries = Entry.runsAtServer element.entries ∧
      Entry.id? edited.entries = Entry.id? element.entries)
    (named : element.isControlNamed id = true)
    (unnamed : ∀ other ∈ former, other.isControlNamed id = false) :
    tree.control? id = some edited := by
  have named' : edited.isControlNamed id = true := by
    rw [← named]
    exact Tag.isControlNamed_congr name control.1 control.2 id
  unfold control?
  rw [elements, List.find?_eq_some_iff_append]
  refine ⟨named', former', latter', rfl, fun other member => ?_⟩
  have said := List.mem_map_of_mem (f := fun other : Element => other.toTag.said) member
  rw [unchanged] at said
  obtain ⟨before, listed, same⟩ := List.mem_map.mp said
  rw [Tag.isControlNamed_of_said same.symm, unnamed before listed]
  rfl

namespace Document

variable {document document' : Document} {controlType : ControlType} {property : Property}
  {name id : Text} {value : Value} {element : Element}

/-- What is done to write a value into the tag that a name leads to. -/
theorem updateTag_eq (sound : document.Sound)
    (declared : controlType.property? name = some property)
    (leads : (Tree.parse document.text).control? id = some element) (value : Value) :
    updateTag controlType id name value document =
      if property.isInitial value then
        .ok (document.parse.2.removeAttribute element.toTag property.name).1
          (document.parse.2.removeAttribute element.toTag property.name).2
      else if states element.toTag property value then .ok false document.parse.2
      else
        match property.write value with
        | .error cause => .error (.conversion cause) document.parse.2
        | .ok written =>
            .ok (document.parse.2.setAttribute element.toTag property.name written).1
              (document.parse.2.setAttribute element.toTag property.name written).2 := by
  have found := tagOf_eq sound id
  rw [leads] at found
  unfold updateTag
  rw [declared]
  dsimp only
  simp only [bind, EStateM.bind, found]
  split
  · rfl
  · split
    · rfl
    · cases property.write value with
      | error cause => rfl
      | ok written => rfl

/-- Whether a tag takes the edit that writes a value: an attribute is dropped without harm to what is
around it, or replaced, or the tag takes a new one. -/
def takesEdit (document : Document) (tag : Tag) (property : Property) (value : Value) : Bool :=
  match tag.attribute? property.name with
  | none => property.isInitial value || takesAttribute (document.regionText tag.region)
  | some target =>
      !property.isInitial value ||
        (staysApart (document.keptText tag target) (document.textBehind target) &&
          !takesValue (document.keptText tag target) (document.textBehind target))

theorem takesEdit_congr (same : document'.text = document.text) :
    document'.takesEdit = document.takesEdit := by
  have text : document'.buffer.history.text = document.buffer.history.text := same
  have index : document'.buffer.history.index = document.buffer.history.index := by
    funext location
    unfold History.index
    rw [text]
  funext tag property value
  unfold takesEdit keptText textBehind regionWithBlank
  rw [between_congr same, regionText_congr same, index, same]

/-- The element that a name leads to, with those in front of it. -/
theorem exists_split (leads : (Tree.parse document.text).control? id = some element) :
    ∃ former latter, (Tree.parse document.text).elements = former ++ element :: latter ∧
      element.isControlNamed id = true ∧ ∀ other ∈ former, other.isControlNamed id = false := by
  obtain ⟨named, former, latter, split, unnamed⟩ := List.find?_eq_some_iff_append.mp leads
  exact ⟨former, latter, split, named, fun other member =>
    (Bool.not_eq_true' _).mp (unnamed other member)⟩

/-- Behind a declared value the tag of the name states what it stated behind the first value of the
property. -/
theorem exists_dropped (sound : document.Sound)
    (declared : controlType.property? name = some property)
    (plain : (property.name.sameName "id" || property.name.sameName "runat") = false)
    (leads : (Tree.parse document.text).control? id = some element)
    (initial : property.isInitial value = true)
    (takes : document.takesEdit element.toTag property value = true) {changed : Bool}
    (done : updateTag controlType id name value document = .ok changed document') :
    ∃ found, (Tree.parse document'.text).control? id = some found ∧
      Entry.under property.name found.entries = Entry.further property.name element.entries := by
  obtain ⟨parsed, parses, _, agrees, _⟩ := parse_eq sound
  rw [updateTag_eq sound declared leads, if_pos initial, parses] at done
  injection done with _ after
  rw [← takesEdit_congr agrees.text_eq] at takes
  rw [← agrees.text_eq] at leads
  unfold takesEdit at takes
  cases stated : element.attribute? property.name with
  | none =>
      have same : document' = parsed := by
        rw [← after]
        unfold removeAttribute
        rw [stated]
      have none' : Entry.under property.name element.entries = [] := by
        have missing := Tag.value_entries element.toTag property.name
        rw [stated, ← Entry.head?_under, Option.map_none, eq_comm, List.head?_eq_none_iff] at missing
        exact missing
      rw [same]
      exact ⟨element, leads, by rw [Entry.further, none']; rfl⟩
  | some target =>
      rw [stated, initial] at takes
      simp only [Bool.not_true, Bool.false_or, Bool.and_eq_true, Bool.not_eq_true'] at takes
      obtain ⟨former, latter, split, named, unnamed⟩ := exists_split leads
      obtain ⟨former', found, latter', elements, restated, unchanged, _⟩ :=
        ((restates_removeAttribute split stated).2.1 takes.1).mpr takes.2
      rw [← after]
      have control := Entry.control_eraseP plain element.entries
      rw [← restated.entries_eq] at control
      refine ⟨found, Tree.control?_of_said elements unchanged restated.name_eq control named unnamed,
        ?_⟩
      rw [restated.entries_eq, Entry.under_eraseP]

/-- Behind another value the tag of the name states a text that reads as the value in place of the
first one of the property. -/
theorem exists_written (sound : document.Sound)
    (declared : controlType.property? name = some property) (legible : property.Legible)
    (leads : (Tree.parse document.text).control? id = some element)
    (closed : (document.regionText element.region).getLast? = some '>')
    (other : property.isInitial value = false)
    (takes : document.takesEdit element.toTag property value = true) {changed : Bool}
    (done : updateTag controlType id name value document = .ok changed document') :
    ∃ found first, (Tree.parse document'.text).control? id = some found ∧
      Entry.under property.name found.entries =
        first :: Entry.further property.name element.entries ∧
      property.read first = .ok value := by
  obtain ⟨parsed, parses, _, agrees, _⟩ := parse_eq sound
  rw [updateTag_eq sound declared leads, other, if_neg Bool.false_ne_true, parses] at done
  rw [← takesEdit_congr agrees.text_eq] at takes
  rw [← regionText_congr agrees.text_eq] at closed
  rw [← agrees.text_eq] at leads
  cases holds : states element.toTag property value with
  | true =>
      rw [holds, if_pos rfl] at done
      injection done with _ after
      rw [← after]
      unfold states at holds
      cases stated : element.attribute? property.name with
      | none => rw [stated] at holds; cases holds
      | some existing =>
          rw [stated] at holds
          dsimp only at holds
          have value_eq := Tag.value_entries element.toTag property.name
          rw [stated, eq_comm, Option.map_some] at value_eq
          refine ⟨element, existing.value, leads, Entry.under_eq_cons value_eq, ?_⟩
          cases reads : property.read existing.value with
          | error cause => rw [reads] at holds; cases holds
          | ok read =>
              rw [reads, decide_eq_true_eq] at holds
              rw [holds]
  | false =>
      rw [holds, if_neg Bool.false_ne_true] at done
      cases writes : property.write value with
      | error cause => rw [writes] at done; cases done
      | ok written =>
          rw [writes] at done
          injection done with _ after
          rw [← after]
          obtain ⟨former, latter, split, named, unnamed⟩ := exists_split leads
          have accepts : (element.attribute? property.name).isSome = true ∨
              takesAttribute (parsed.regionText element.region) = true := by
            unfold takesEdit at takes
            cases stated : element.attribute? property.name with
            | some existing => exact .inl rfl
            | none =>
                rw [stated, other] at takes
                exact .inr takes
          obtain ⟨former', found, latter', elements, setTo, unchanged, _⟩ :=
            (readsBack_setAttribute_iff split closed legible.single written).mpr accepts
          have control := Entry.control_congr legible.plain setTo.others_eq
          have first := setTo.value_eq
          rw [Tag.value_entries] at first
          refine ⟨found, written,
            Tree.control?_of_said elements unchanged setTo.name_eq control named unnamed, ?_,
            legible.read_of_write writes⟩
          rw [Entry.under_eq_cons first, ← Entry.under_eraseP, setTo.others_eq,
            Entry.under_eraseP]

/-- When a value of a property has been written into the tag that a name leads to, the name leads to
that tag still.  The tag says nothing of the property behind the declared value just in case it had
the property once at most; behind any other value, it gives the value back without an issue just in
case all the attributes of the property behind the first one convert and the last one gives the value
as well. -/
theorem updateTag_agrees_iff (sound : document.Sound)
    (declared : controlType.property? name = some property)
    (legible : ∀ other ∈ controlType.properties, other.Legible)
    (leads : (Tree.parse document.text).control? id = some element)
    (closed : (document.regionText element.region).getLast? = some '>')
    (takes : document.takesEdit element.toTag property value = true) {changed : Bool}
    (done : updateTag controlType id name value document = .ok changed document') :
    ∃ found, (Tree.parse document'.text).control? id = some found ∧
      (property.isInitial value = true →
        (found.attribute? property.name = none ↔
          Entry.further property.name element.entries = [])) ∧
      (property.isInitial value = false →
        (Component.Gives controlType found property value ↔
          property.Confirms value (Entry.further property.name element.entries))) := by
  have own := legible property (ControlType.mem_of_property? declared)
  have declared' := ControlType.property?_self declared
  cases initial : property.isInitial value with
  | true =>
      obtain ⟨found, leads', under⟩ :=
        exists_dropped sound declared own.plain leads initial takes done
      refine ⟨found, leads', fun _ => ?_, fun other => by cases other⟩
      have stated := Tag.value_entries found.toTag property.name
      rw [← Entry.head?_under, under] at stated
      rw [← List.head?_eq_none_iff, ← stated, Option.map_eq_none_iff]
  | false =>
      obtain ⟨found, first, leads', under, reads⟩ :=
        exists_written sound declared own leads closed initial takes done
      refine ⟨found, leads', (fun other => by cases other), fun _ => ?_⟩
      exact Component.gives_iff declared' own.plain
        (fun other member => (legible other member).solid) under reads

/-- A page with a label that states its text twice. -/
def repeatedDocument : Document :=
  .ofText .standard .standard .standard "<asp:Label id=\"L\" Text=\"a\" text=\"b\" />"

/-- A text is written in place of the first one, and the label reads the other one. -/
theorem updateTag_agrees_iff_of_repeated :
    ∃ changed document' found,
      updateTag Builtin.label "L" "Text" (.string "c") repeatedDocument =
        .ok changed document' ∧
      (Tree.parse document'.text).control? "L" = some found ∧
      ¬ Component.Gives Builtin.label found (.string "Text" []) (.string "c") := by
  have single : ((Tree.parse repeatedDocument.text).control? "L").any (fun element =>
      (repeatedDocument.regionText element.region).getLast? == some '>' &&
        repeatedDocument.takesEdit element.toTag (.string "Text" []) (.string "c") &&
          (Entry.further (Property.string "Text" []).name element.entries ==
            [("b" : Text)])) = true := by
    decide +kernel
  have written : succeedsWith (fun _ _ => true)
      (updateTag Builtin.label "L" "Text" (.string "c")) repeatedDocument = true := by
    decide +kernel
  obtain ⟨element, leads, facts⟩ := (Option.any_eq_true _ _).mp single
  simp only [Bool.and_eq_true, beq_iff_eq] at facts
  obtain ⟨⟨closed, takes⟩, further⟩ := facts
  obtain ⟨changed, document', done, _⟩ := exists_of_succeedsWith written
  obtain ⟨found, leads', _, gives⟩ := updateTag_agrees_iff (.ofText _ _ _ _) (by rfl)
    (legible_standard Builtin.label (by decide)) leads closed takes done
  refine ⟨changed, document', found, done, leads', fun agrees => ?_⟩
  have confirms := (gives (by decide)).mp agrees
  rw [further] at confirms
  have last := confirms.2 "b" rfl
  cases last

end Document

end PageDesigner
