import PageDesigner.Proofs.Document.Stripping
import PageDesigner.Proofs.Host.Loading

/-!
# What is shown behind a load

A page without controls is shown without its scripts and its wiring (`harmless_load`).
-/

namespace PageDesigner.Host

theorem isValid_pageType (registry : Registry) :
    Naming.isValid (pageType registry).name = true := by
  unfold pageType
  cases named : registry.named? "Page" with
  | none => decide
  | some page =>
      unfold Registry.named? at named
      have same : page.name.sameName "Page" = true := by simpa using List.find?_some named
      show Naming.isValid page.name = true
      rw [Naming.isValid_congr (Text.sameName_iff.mp same)]
      decide

variable {registry : Registry} {designers : DesignerRegistry} {options : Options} {text : Text}

/-- A text without controls loads as it is, and what it shows is harmless: parsed again, it has no
element that is a script, and no attribute that is `runat` or that of an event.  This takes two
things of the nodes that are left out.  A script without an end holds nothing, and none of them
stands right behind a `<` or a `</`. -/
theorem harmless_load (bare : options.context = []) (allowed : 0 < options.maxScanPasses)
    (literal : (Tree.parse text).controls = [])
    (removable : ∀ node ∈ (Tree.parse text).omitted, node.Removable text) :
    ∃ (report : ScanReport) (host : Host) (document : Document),
      load text (new registry designers options) = .ok report host ∧
        host.document? = some document ∧ document.text = text ∧
        (Tree.parse document.designHtml.1.html).Harmless := by
  have claimable : ScanPass.Claimable registry (rootSurface registry) []
      (Tree.parse text).controls := by
    rw [literal]
    exact .nil []
  obtain ⟨report, document, created, scanned, agrees, -, -⟩ :=
    Document.createControls_settles (sound_startDocument registry designers options text)
      (bare_rootSurface registry) allowed claimable
  obtain ⟨host, loaded, kept⟩ := load_of_ok created
  have text_eq : document.text = text := agrees.text_eq
  have context : document.options.context = [] := by rw [agrees.options_eq]; exact bare
  have surface : document.surface = rootSurface registry := by
    have surface := scanned.surface_eq
    rw [text_eq, literal] at surface
    exact surface
  refine ⟨report, host, document, loaded, kept, text_eq,
    Document.harmless_designHtml scanned.sound context ?_ ?_ ?_⟩
  · rw [text_eq]
    exact literal
  · rw [text_eq]
    exact removable
  · intro name member
    rw [surface] at member
    rw [List.mem_singleton.mp member]
    exact Naming.isValid_unused (isValid_pageType registry) []

/-- A page with scripts, wiring, a comment, marks that start nothing, and a closing tag that closes
nothing. -/
def wiredPage : Text :=
  "<body onload=\"go()\">a < b</i><!-- c --><p runat=x>1<2<br><script>x</script>"

theorem harmless_load_of_wiredPage :
    (Tree.parse wiredPage).controls = [] ∧
      (∀ node ∈ (Tree.parse wiredPage).omitted, node.Removable wiredPage) ∧
      ∃ (report : ScanReport) (host : Host) (document : Document),
        load wiredPage (new .standard .standard .standard) = .ok report host ∧
          host.document? = some document ∧ document.text = wiredPage ∧
          (Tree.parse document.designHtml.1.html).Harmless := by
  have literal : (Tree.parse wiredPage).controls = [] := List.isEmpty_iff.mp (by decide +kernel)
  have removable : ∀ node ∈ (Tree.parse wiredPage).omitted, node.Removable wiredPage := by
    decide +kernel
  exact ⟨literal, removable, harmless_load rfl (by decide) literal removable⟩

/-- The HTML that is shown behind a load with the standard types and designers. -/
def shownBehindLoad (text : Text) : Option Text :=
  match load text (new .standard .standard .standard) with
  | .ok _ host => host.document?.map fun document => document.designHtml.1.html
  | .error _ _ => none

/-- Both conditions count.  What a script without an end holds comes to the surface with its wiring,
and a comment behind a `<` makes a script of the word behind it. -/
theorem not_harmless_of_leftovers :
    shownBehindLoad "<div><x:script><b onclick=\"go()\">hi</b></div>" =
        some "<div><b onclick=\"go()\">hi</b></div>" ∧
      ¬ (Tree.parse "<div><b onclick=\"go()\">hi</b></div>").Harmless ∧
      shownBehindLoad "<div><<!-- -->script>x</div>" = some "<div><script>x</div>" ∧
      ¬ (Tree.parse "<div><script>x</div>").Harmless := by
  decide +kernel

end PageDesigner.Host
