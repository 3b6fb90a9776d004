import PageDesigner.Proofs.Document.Convergence
import PageDesigner.Proofs.Host.Loading

/-!
# How many passes a load takes

A load is meant to settle with one pass more than tags lack a usable id, so a limit
above the number of server controls should always do.  It does for every text whose
tags take the ids written into them, and for no other one (`load_settles_iff`): one tag
with a dangling `=` or an open quote is enough to make a load fail.
-/

namespace PageDesigner.Host

open Document (createControls)

variable {registry : Registry} {designers : DesignerRegistry} {options : Options} {text : Text}

/-- The names of the standard types are identifiers. -/
theorem isValid_standard :
    ∀ controlType ∈ Registry.standard.all, Naming.isValid controlType.name = true := by
  decide +kernel

theorem rooted_rootSurface (registry : Registry) : Document.Rooted (rootSurface registry) := by
  intro root same
  exact List.mem_singleton.mpr (Option.some.inj same).symm

/-- The tags of a text that stand for control types and lack a usable id. -/
def lackingTags (registry : Registry) (text : Text) : List Tag :=
  ScanPass.lackingFrom registry (rootSurface registry) []
    ((Tree.parse text).controls.map (·.toTag))

theorem length_lackingTags_le (registry : Registry) (text : Text) :
    (lackingTags registry text).length ≤ (Tree.parse text).controls.length := by
  have fits := ScanPass.length_lackingFrom_le registry (rootSurface registry) []
    ((Tree.parse text).controls.map (·.toTag))
  rw [List.length_map] at fits
  exact fits

/--
A load settles with one pass more than tags lack a usable id just when each of these
tags takes an id that is written into it.  There are no more of them than server
controls.  The types have identifiers for names, as the standard ones do; the ids
that a load writes are these names with a number.
-/
theorem load_settles_iff
    (valid : ∀ controlType ∈ registry.all, Naming.isValid controlType.name = true)
    (allowed : (lackingTags registry text).length < options.maxScanPasses) :
    (lackingTags registry text).length ≤ (Tree.parse text).controls.length ∧
    ((∃ (report : ScanReport) (host : Host),
        load text (new registry designers options) = .ok report host ∧
          report.passes ≤ (lackingTags registry text).length + 1) ↔
      ∀ tag ∈ lackingTags registry text,
        (startDocument registry designers options text).takesId tag = true) := by
  refine ⟨length_lackingTags_le registry text, ?_⟩
  have settles := Document.createControls_settles_iff
    (sound_startDocument registry designers options text) (bare_rootSurface registry)
    (rooted_rootSurface registry) valid allowed
  constructor
  · rintro ⟨report, host, loaded, few⟩
    obtain ⟨document, created, _⟩ := created_of_load loaded
    exact settles.mp ⟨report, document, created, few⟩
  · intro takes
    obtain ⟨report, document, created, few⟩ := settles.mpr takes
    obtain ⟨host, loaded, _⟩ := load_of_ok created
    exact ⟨report, host, loaded, few⟩

/-- A label whose text has no value keeps the name of the written id for its text, and two passes
are not enough for it. -/
theorem load_settles_iff_of_dangling :
    (lackingTags .standard "<asp:Label Text= />").length = 1 ∧
    (Tree.parse "<asp:Label Text= />").controls.length = 1 ∧
    ¬ ∃ (report : ScanReport) (host : Host),
      load "<asp:Label Text= />" (new .standard .standard (Options.standard.withScanPasses 2)) =
        .ok report host ∧ report.passes ≤ 2 := by
  have one : (lackingTags .standard "<asp:Label Text= />").length = 1 := by decide +kernel
  have settles := @load_settles_iff .standard .standard (Options.standard.withScanPasses 2)
    "<asp:Label Text= />" isValid_standard (by rw [one]; decide)
  have refuses : ¬ ∀ tag ∈ lackingTags .standard "<asp:Label Text= />",
      (startDocument .standard .standard (Options.standard.withScanPasses 2)
        "<asp:Label Text= />").takesId tag = true := by decide +kernel
  refine ⟨one, by decide +kernel, ?_⟩
  rw [← settles.2, one] at refuses
  exact refuses

end PageDesigner.Host
