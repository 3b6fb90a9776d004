import PageDesigner.Proofs.Buffer.Cutting
import PageDesigner.Proofs.Document.Choices
import PageDesigner.Proofs.Host.Settling

/-!
# The ids that a load chooses

A load writes ids into the tags that lack a usable one.  Each id is free when it is chosen and is
in the end that of one element, and the tags that need no id stay character for character what
they were (`ids_of_load`).
-/

namespace PageDesigner.Host

variable {registry : Registry} {designers : DesignerRegistry} {options : Options} {text : Text}

/--
The ids that a load reports are those that its passes choose.  Each is the first free name of its
type at that moment, and in the text that the load leaves one element has it.  An element whose
tag does not lack a usable id is where it was, with the same characters in its opening tag.  The
types have identifiers for names, as the standard ones do; a quote in a name could close one
that a tag leaves open.
-/
theorem ids_of_load {report : ScanReport} {host : Host}
    (valid : ∀ controlType ∈ registry.all, Naming.isValid controlType.name = true)
    (loaded : load text (new registry designers options) = .ok report host) :
    ∃ document, host.document? = some document ∧
      report.ids = (startDocument registry designers options text).firstChoices.map (·.id) ∧
      (∀ choice ∈ (startDocument registry designers options text).firstChoices,
        choice.Free registry) ∧
      (∀ id ∈ report.ids, document.HasOnce id) ∧
      ∀ former element latter, (Tree.parse text).elements = former ++ element :: latter →
        element.toTag ∉ lackingTags registry text →
        ∃ former' element' latter',
          (Tree.parse document.text).elements = former' ++ element' :: latter' ∧
          former'.length = former.length ∧
          element'.name = element.name ∧ element'.toTag.entries = element.toTag.entries ∧
          Source.slice document.text element'.region.first element'.region.last =
            Source.slice text element.region.first element.region.last := by
  obtain ⟨document, created, kept⟩ := created_of_load loaded
  obtain ⟨ids, free, turns⟩ := Document.turns_of_createControls
    (sound_startDocument registry designers options text) (bare_rootSurface registry)
    (rooted_rootSurface registry) valid created
  refine ⟨document, kept, ids, free, fun id member => ?_,
    fun former element latter split usable => ?_⟩
  · rw [ids] at member
    exact Document.hasOnce_of_sole (turns.sole member)
  · obtain ⟨former', element', latter', elements, length, same⟩ :=
      Document.exists_kept turns split usable
    have sliced : ∀ (document : Document) (region : Region), document.regionText region =
        Source.slice document.text region.first region.last := fun document _ =>
      History.between_eq_slice document.buffer.history _ _
    have opening := congrArg Profile.opening same
    unfold Document.profile at opening
    rw [sliced, sliced] at opening
    exact ⟨former', element', latter', elements, length, congrArg Profile.name same,
      congrArg Profile.entries same, opening⟩

/-- Two labels of one id up to letter case, with a paragraph and a tag of no known type between them
that have the first two generated ids. -/
def clashing : Text :=
  "<asp:Label runat='server' id='a'/><p id='label1'><x:y id='Label2'/></p><asp:Label ID='A'>"

/-- The second label gets the third id, and the first one stays. -/
theorem ids_of_load_of_clashing :
    ∃ (report : ScanReport) (host : Host) (document : Document),
      load clashing (new .standard .standard .standard) = .ok report host ∧
      host.document? = some document ∧ report.ids = [("Label3" : Text)] ∧
      (∃ choice, (startDocument .standard .standard .standard clashing).firstChoices = [choice] ∧
        choice.id = "Label3" ∧ choice.Free .standard) ∧
      document.HasOnce "Label3" ∧
      ∃ first rest first' rest', (Tree.parse clashing).elements = first :: rest ∧
        (Tree.parse document.text).elements = first' :: rest' ∧ first'.name = first.name ∧
        first'.toTag.entries = first.toTag.entries ∧
        Source.slice document.text first'.region.first first'.region.last =
          Source.slice clashing first.region.first first.region.last := by
  have loads : succeedsWith (fun report _ => report.ids == [("Label3" : Text)]) (load clashing)
      (new .standard .standard .standard) = true := by decide +kernel
  obtain ⟨report, host, loaded, three⟩ := exists_of_succeedsWith loads
  have ids : report.ids = [("Label3" : Text)] := eq_of_beq three
  obtain ⟨document, kept, chosen, free, once, stays⟩ := ids_of_load isValid_standard loaded
  have usable : (Tree.parse clashing).elements.head?.any (fun first =>
      decide (first.toTag ∉ lackingTags .standard clashing)) = true := by decide +kernel
  obtain ⟨first, here, usable⟩ := (Option.any_eq_true _ _).mp usable
  obtain ⟨rest, elements⟩ := List.head?_eq_some_iff.mp here
  obtain ⟨former', first', rest', elements', length, name, entries, same⟩ :=
    stays [] first rest elements (of_decide_eq_true usable)
  obtain rfl := List.eq_nil_of_length_eq_zero length
  rw [ids] at chosen once
  obtain ⟨choice, choices, id⟩ := List.map_eq_singleton_iff.mp chosen.symm
  refine ⟨report, host, document, loaded, kept, ids, ⟨choice, choices, id, ?_⟩,
    once _ List.mem_cons_self, first, rest, first', rest', elements, elements', name, entries, same⟩
  exact free choice (by rw [choices]; exact List.mem_cons_self)

end PageDesigner.Host
