import PageDesigner.Proofs.Document.Unrepeated
import PageDesigner.Proofs.Document.Writing
import PageDesigner.Proofs.Host.Settling
import PageDesigner.Proofs.Host.Succeeding

/-!
# Setting a property to the value that it has

A text may spell a value in many ways.  A host that has loaded it holds the value, and
setting the property to this value leaves the text as it is spelled, as long as all
server controls are of known types and no tag repeats an attribute
(`leavesText_of_current`).
-/

namespace PageDesigner.Host

/-- Work on a property ends without an edit where the tag of the component states the value. -/
theorem changeProperty_of_states {host : Host} {document : Document} (sound : document.Sound)
    (kept : host.document? = some document) {name property : Text} {site : Site}
    (found : host.site? name = some site) {declared : Property}
    (declares : site.component.controlType.property? property = some declared)
    {element : Element} (leads : (Tree.parse document.text).control? site.name = some element)
    {value : Value} (other : declared.isInitial value = false)
    (states : Document.states element.toTag declared value = true) :
    ∃ after document', changeProperty name property value host = .ok () after ∧
      host.Beside after ∧ after.document? = some document' ∧ document.SameText document' := by
  have own := ControlType.property?_self declares
  -- The value is of the kind that the property takes, because it was read from the tag.
  have kind : declared.checkKind value = .ok () := by
    unfold Document.states at states
    cases stated : element.attribute? declared.name with
    | none => rw [stated] at states; cases states
    | some existing =>
        rw [stated] at states
        dsimp only at states
        cases reads : declared.read existing.value with
        | error cause => rw [reads] at states; cases states
        | ok read =>
            rw [reads, decide_eq_true_eq] at states
            rw [← states]
            exact Component.checkKind_of_read reads
  have sets : site.component.set declared.name value =
      .ok (site.component.get? declared.name, { site.component with
        values := Table.put declared.name value site.component.values }) := by
    unfold Component.set Component.property
    rw [own]
    dsimp only
    rw [kind]
  generalize { site.component with
    values := Table.put declared.name value site.component.values } = component at sets
  have sites := siteNamed_eq name host
  rw [found] at sites
  have put := putComponent_eq kept site.name component
  have sound' := @Document.Sound.withSurface document sound
    (withComponent document.surface site.name component) (sound.distinct.update site.name _)
  have writes := Document.updateTag_eq sound' own leads value
  rw [other, if_neg Bool.false_ne_true, states, if_pos rfl] at writes
  have unedited := Document.unedited_parse
    { document with surface := withComponent document.surface site.name component }
  refine ⟨{ host with
      document? := some _
      events := host.events ++
        [.changed site.name declared.name (site.component.get? declared.name) value] },
    _, ?_, ⟨_, _, rfl⟩, rfl, unedited.history_eq, unedited.tracker_eq, unedited.generation_eq,
    unedited.directives_eq⟩
  unfold changeProperty
  rw [bind_of_ok sites, declares]
  dsimp only
  rw [sets]
  dsimp only
  rw [bind_of_ok put, bind_of_ok (attempt_of_ok (onDocument_of_ok rfl writes))]
  rfl

/-- Work on a property that succeeds in a host where no refresh waits is done in a transaction. -/
theorem setProperty_of_work {host middle : Host} {document : Document}
    (kept : host.document? = some document) (idle : host.waiting = []) {name property : Text}
    {value : Value}
    (beside : (host.opened ("Change " ++ name ++ "." ++ property)).Beside middle)
    (ran : changeProperty name property value
      (host.opened ("Change " ++ name ++ "." ++ property)) = .ok () middle) :
    ∃ after, setProperty name property value host = .ok () after ∧
      after.document? = middle.document? := by
  obtain ⟨after, done, left⟩ := withTransaction_of_ok rfl beside ran
  have loaded := loaded_eq host
  rw [kept] at loaded
  refine ⟨after, ?_, left⟩
  unfold setProperty
  rw [bind_of_ok (settle_of_waiting idle), bind_of_ok (discard_of_ok loaded)]
  exact done

/-- A name other than that of the root stands for a control. -/
theorem mem_controlSites_of_site? {host : Host} {document : Document}
    (kept : host.document? = some document) {name : Text} {site : Site}
    (found : host.site? name = some site) (notRoot : document.surface.isRoot name = false) :
    site ∈ document.surface.controlSites := by
  unfold site? at found
  rw [kept] at found
  have found' : document.surface.container.site? name = some site := found
  refine Surface.mem_controlSites.mpr ⟨Container.mem_of_site? found', ?_⟩
  rw [Surface.isRoot_congr (Container.sameName_of_site? found')]
  exact notRoot

/--
A property of a component is set to the value that it has, which is not the declared one, in
a host that has loaded a text.  Every server control of the text is of a known type and
repeats no attribute.  Then the operation succeeds and edits nothing, whichever spelling the
text has for the value.  The types have identifiers for names, as the standard ones do; the
ids that a load writes are these names with a number.
-/
theorem leavesText_of_current {registry : Registry} {designers : DesignerRegistry}
    {options : Options} {text : Text} {report : ScanReport} {host : Host}
    (valid : ∀ controlType ∈ registry.all, Naming.isValid controlType.name = true)
    (loads : load text (new registry designers options) = .ok report host)
    (known : ∀ element ∈ (Tree.parse text).controls,
      (registry.resolve? element.name).isSome = true)
    (distinct : ∀ element ∈ (Tree.parse text).controls, Entry.Distinct element.entries) :
    ∃ document, host.document? = some document ∧
      ∀ name site property value, host.site? name = some site →
        document.surface.isRoot name = false → site.component.get? property = some value →
        site.component.isInitial property = false →
        ∃ after document', setProperty name property value host = .ok () after ∧
          after.document? = some document' ∧ document'.text = document.text ∧
          document'.buffer.generation = document.buffer.generation := by
  obtain ⟨document, created, kept⟩ := created_of_load loads
  have sound := sound_startDocument registry designers options text
  have bare := bare_rootSurface registry
  obtain ⟨scanned, _, _⟩ := Document.scanned_of_createControls sound bare created
  have apart := Document.distinct_of_createControls sound bare valid known distinct created
  refine ⟨document, kept, fun name site property value found notRoot held other => ?_⟩
  obtain ⟨declared, declares, held', differs⟩ := Component.exists_declared held other
  obtain ⟨element, leads, states⟩ := scanned.exists_states apart
    (mem_controlSites_of_site? kept found notRoot) (ControlType.property?_self declares) held'
    differs
  -- The tag that the name leads to states the value already, so there is nothing to write.
  obtain ⟨middle, document', ran, beside, left, same⟩ :=
    @changeProperty_of_states (host.opened ("Change " ++ name ++ "." ++ property)) document
      scanned.sound kept name property site found declared declares element leads value differs
      states
  obtain ⟨after, done, left'⟩ := setProperty_of_work kept (waiting_of_load loads) beside ran
  exact ⟨after, document', done, left'.trans left, congrArg History.text same.history_eq,
    same.generation_eq⟩

/-- A text box without an id, with a length that is spelled in an unusual way. -/
def spelledText : Text := "<asp:TextBox MAXLENGTH=' &#49;0' runat=server />"

/-- The text box gets an id when it is loaded, and keeps the spelling of its length when the length
is set to 10. -/
theorem leavesText_of_current_spelled :
    ∃ report host document after document',
      load spelledText (new .standard .standard .standard) = .ok report host ∧
      report.ids = ["TextBox1"] ∧ host.document? = some document ∧
      setProperty "textbox1" "MaxLength" (.integer 10) host = .ok () after ∧
      after.document? = some document' ∧ document'.text = document.text ∧
      document'.buffer.generation = document.buffer.generation := by
  have runs : succeedsWith (fun report host => report.ids == (["TextBox1"] : List Text) &&
      (host.document?.any (!·.surface.isRoot "textbox1") &&
        (host.site? "textbox1").any fun site =>
          site.component.get? "MaxLength" == some (.integer 10) &&
            !site.component.isInitial "MaxLength"))
      (load spelledText) (new .standard .standard .standard) = true := by decide +kernel
  obtain ⟨report, host, loads, facts⟩ := exists_of_succeedsWith runs
  simp only [Bool.and_eq_true, beq_iff_eq, Option.any_eq_true, Bool.not_eq_true'] at facts
  obtain ⟨ids, ⟨document, kept, notRoot⟩, site, found, held, other⟩ := facts
  obtain ⟨document', kept', leaves⟩ :=
    leavesText_of_current isValid_standard loads (by decide +kernel) (by decide +kernel)
  rw [kept] at kept'
  obtain rfl := Option.some.inj kept'
  obtain ⟨after, left, done⟩ :=
    leaves "textbox1" site "MaxLength" (.integer 10) found notRoot held other
  exact ⟨report, host, document, after, left, loads, ids, kept, done⟩

end PageDesigner.Host
