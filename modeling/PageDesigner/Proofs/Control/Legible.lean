import PageDesigner.Control.Registry
import PageDesigner.Markup.Attribute
import PageDesigner.Proofs.Text.Numeral

/-!
# What a property writes it reads back

A value that a converter writes is the value that it reads from the text
(`Converter.read_of_write`); an enumeration has to tell its variants apart without
regard to letter case and blanks.  A property is legible when the value can be
written as an attribute as well: its name is a single name that is neither `id` nor
`runat`.  The properties of the built-in types are legible (`legible_standard`).
-/

namespace PageDesigner

/-- Whether the variants of an enumeration are told apart when they are read. -/
def Converter.Distinguishes : Converter → Prop
  | .enumeration variants =>
      ∀ variant ∈ variants, variants.find? (Text.sameName · variant.trim) = some variant
  | _ => True

instance (converter : Converter) : Decidable converter.Distinguishes :=
  match converter with
  | .enumeration variants =>
      inferInstanceAs (Decidable (∀ variant ∈ variants,
        variants.find? (Text.sameName · variant.trim) = some variant))
  | .string => inferInstanceAs (Decidable True)
  | .integer => inferInstanceAs (Decidable True)
  | .boolean => inferInstanceAs (Decidable True)

namespace Converter

/-- A written value is read back. -/
theorem read_of_write {converter : Converter} (distinguishes : converter.Distinguishes)
    {value : Value} {written : Text} (writes : converter.write value = .ok written) :
    converter.read written = .ok value := by
  cases converter with
  | string =>
      cases value with
      | string content => cases writes; rfl
      | _ => cases writes
  | integer =>
      cases value with
      | integer number =>
          obtain rfl := Except.ok.inj writes
          have trimmed : (Value.integer number).text.trim = Text.ofInt number.toInt :=
            Text.trim_of_visible fun _ => Text.isBlank_ofInt
          unfold read
          dsimp only
          rw [trimmed, Text.integer?_ofInt]
      | _ => cases writes
  | boolean =>
      cases value with
      | boolean flag =>
          obtain rfl := Except.ok.inj writes
          cases flag
          · rfl
          · rfl
      | _ => cases writes
  | enumeration variants =>
      cases value with
      | enumeration variant =>
          simp only [write] at writes
          split at writes
          · next listed =>
              obtain rfl := Except.ok.inj writes
              have found := distinguishes variant (List.contains_iff_mem.mp listed)
              unfold read
              dsimp only
              rw [found]
          · cases writes
      | _ => cases writes

end Converter

namespace Property

/-- A property whose value can be written as an attribute that is read back. -/
structure Legible (property : Property) : Prop where
  single : Piece.pieces property.name = [.token (.name property.name) property.name]
  plain : (property.name.sameName "id" || property.name.sameName "runat") = false
  distinguishes : ∀ converter ∈ property.converter?, converter.Distinguishes

instance (property : Property) : Decidable property.Legible :=
  decidable_of_iff (Piece.pieces property.name = [.token (.name property.name) property.name] ∧
      (property.name.sameName "id" || property.name.sameName "runat") = false ∧
      ∀ converter ∈ property.converter?, converter.Distinguishes)
    ⟨fun all => ⟨all.1, all.2.1, all.2.2⟩,
      fun legible => ⟨legible.single, legible.plain, legible.distinguishes⟩⟩

/-- A legible name holds no blanks. -/
theorem Legible.solid {property : Property} (legible : property.Legible) :
    ' ' ∉ property.name := by
  intro member
  cases List.all_eq_true.mp (Piece.word_of_pieces legible.single).2 _ member

theorem Legible.read_of_write {property : Property} (legible : property.Legible) {value : Value}
    {written : Text} (writes : property.write value = .ok written) :
    property.read written = .ok value := by
  unfold write at writes
  unfold read
  cases converts : property.converter? with
  | none => rw [converts] at writes; cases writes
  | some converter =>
      rw [converts] at writes
      exact Converter.read_of_write (legible.distinguishes converter converts) writes

end Property

theorem legible_standard : ∀ controlType ∈ Registry.standard.all,
    ∀ property ∈ controlType.properties, property.Legible := by
  decide +kernel

end PageDesigner
