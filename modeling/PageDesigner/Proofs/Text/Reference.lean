import Mathlib.Data.List.Infix
import PageDesigner.Text.Reference

/-!
# Escaped values are read back

What is written into an attribute value reads back as the text that was given
(`decode_escapeAttribute`), and holds no quote that could end the value early
(`quote_not_mem_escapeAttribute`).  The same goes for what is written between tags, which
holds nothing that could start another one (`decode_escapeText`,
`less_not_mem_escapeText`).

Escaping leaves equals signs as they are and writes no numeric references, so no
part of an escaped text reads as a text with more equals signs than the part has
(`count_decode_le`).
-/

namespace PageDesigner.Reference

/-! ## Writing and reading -/

theorem decodeFrom_drop (skip : Nat) (text : Text) :
    decodeFrom skip text = decode (text.drop skip) := by
  induction text generalizing skip with
  | nil => cases skip <;> rfl
  | cons char rest ih =>
      cases skip with
      | zero => rfl
      | succ skip => exact ih skip

/-- An escaped character in front of a text reads back as the character. -/
theorem decode_escapeAttributeChar (char : Char) (rest : Text) :
    decode (escapeAttributeChar char ++ rest) = char :: decode rest := by
  have reference : ∀ (name : Text) (decoded : Char),
      read? (name ++ rest) = some (decoded, name.length) →
      decode ('&' :: (name ++ rest)) = decoded :: decode rest := by
    intro name decoded found
    unfold decode
    rw [decodeFrom, if_pos rfl, found]
    dsimp only
    rw [decodeFrom_drop, List.drop_left]
    rfl
  unfold escapeAttributeChar
  split
  · exact reference "amp;" '&' (by simp [read?, maxLength, resolve?, named])
  · exact reference "quot;" '"' (by simp [read?, maxLength, resolve?, named, List.lookup_cons])
  · exact reference "lt;" '<' (by simp [read?, maxLength, resolve?, named, List.lookup_cons])
  · exact reference "gt;" '>' (by simp [read?, maxLength, resolve?, named, List.lookup_cons])
  · next plain _ _ _ =>
      unfold decode
      rw [List.singleton_append, decodeFrom, if_neg plain]

/-- An escaped value reads back as itself in front of every text. -/
theorem decode_escapeAttribute_append (text rest : Text) :
    decode (escapeAttribute text ++ rest) = text ++ decode rest := by
  unfold escapeAttribute
  induction text with
  | nil => rfl
  | cons char text ih =>
      rw [List.flatMap_cons, List.append_assoc, decode_escapeAttributeChar, ih, List.cons_append]

/-- An escaped value reads back as the text that was given. -/
theorem decode_escapeAttribute (text : Text) : decode (escapeAttribute text) = text := by
  simpa [decode, decodeFrom] using decode_escapeAttribute_append text []

/-- The characters that an escaped character is written with. -/
theorem mem_escapeAttributeChar {char written : Char}
    (member : written ∈ escapeAttributeChar char) :
    written ≠ '"' ∧ written ≠ '<' ∧ written ≠ '>' := by
  unfold escapeAttributeChar at member
  split at member
  all_goals simp at member
  · rcases member with rfl | rfl | rfl | rfl | rfl <;> decide
  · rcases member with rfl | rfl | rfl | rfl | rfl | rfl <;> decide
  · rcases member with rfl | rfl | rfl | rfl <;> decide
  · rcases member with rfl | rfl | rfl | rfl <;> decide
  · next double less more => exact member ▸ ⟨double, less, more⟩

/-- An escaped value holds nothing that would end it, or the tag around it. -/
theorem mem_escapeAttribute {written : Char} {text : Text}
    (member : written ∈ escapeAttribute text) :
    written ≠ '"' ∧ written ≠ '<' ∧ written ≠ '>' := by
  obtain ⟨char, _, inside⟩ := List.mem_flatMap.mp member
  exact mem_escapeAttributeChar inside

theorem quote_not_mem_escapeAttribute (text : Text) : '"' ∉ escapeAttribute text :=
  fun member => (mem_escapeAttribute member).1 rfl

/-! ## Between tags -/

/-- Between tags a quote stands for itself, and any other character is written as in a value. -/
theorem escapeTextChar_eq (char : Char) :
    escapeTextChar char = if char = '"' then ['"'] else escapeAttributeChar char := by
  unfold escapeTextChar escapeAttributeChar
  split
  · rfl
  · rfl
  · rfl
  · next ampersand less more =>
      split
      · next quote => rw [quote]
      · next double => split <;> simp_all

/-- Escaped text reads back as itself in front of every text. -/
theorem decode_escapeText_append (text rest : Text) :
    decode (escapeText text ++ rest) = text ++ decode rest := by
  unfold escapeText
  induction text with
  | nil => rfl
  | cons char text ih =>
      rw [List.flatMap_cons, List.append_assoc, escapeTextChar_eq, List.cons_append, ← ih]
      split
      · next quote =>
          unfold decode
          rw [List.singleton_append, decodeFrom, if_neg (by decide), quote]
      · exact decode_escapeAttributeChar char _

/-- Escaped text reads back as the text that was given. -/
theorem decode_escapeText (text : Text) : decode (escapeText text) = text := by
  simpa [decode, decodeFrom] using decode_escapeText_append text []

/-- Escaped text holds nothing that could start a tag. -/
theorem less_not_mem_escapeText (text : Text) : '<' ∉ escapeText text := by
  intro member
  obtain ⟨char, _, written⟩ := List.mem_flatMap.mp member
  rw [escapeTextChar_eq] at written
  split at written
  · exact absurd written (by decide)
  · exact (mem_escapeAttributeChar written).2.1 rfl

/-! ## Equals signs -/

/-- No numeric reference begins in the text. -/
def Wordy (text : Text) : Prop := ¬ ['&', '#'] <:+: text

theorem Wordy.of_infix {part text : Text} (wordy : Wordy text) (within : part <:+: text) :
    Wordy part :=
  fun found => wordy (found.trans within)

theorem wordy_of_absent {text : Text} (absent : '#' ∉ text) : Wordy text :=
  fun found => absent (found.subset (by simp))

theorem Wordy.cons {char : Char} (plain : char ≠ '&') {text : Text} (wordy : Wordy text) :
    Wordy (char :: text) := by
  unfold Wordy at wordy ⊢
  simpa [List.infix_cons_iff, List.cons_prefix_cons, Ne.symm plain] using wordy

/-- A text without number signs does not complete a reference in front of it. -/
theorem Wordy.append {first second : Text} (wordy : Wordy first) (absent : '#' ∉ second) :
    Wordy (first ++ second) := by
  induction first with
  | nil => exact wordy_of_absent absent
  | cons char rest ih =>
      have later := ih (wordy.of_infix (List.suffix_cons char rest).isInfix)
      rintro found
      rw [List.cons_append, List.infix_cons_iff, List.cons_prefix_cons] at found
      rcases found with ⟨rfl, follows⟩ | inside
      · cases rest with
        | nil => exact absent (follows.subset (by simp))
        | cons head rest =>
            obtain ⟨rfl, -⟩ := List.cons_prefix_cons.mp follows
            exact wordy ⟨[], rest, rfl⟩
      · exact later inside

/-- Only a numeric reference is read as an equals sign. -/
theorem ne_equals_of_read? {rest : Text} (wordy : Wordy ('&' :: rest)) {char : Char} {length : Nat}
    (found : read? rest = some (char, length)) : char ≠ '=' := by
  unfold read? at found
  dsimp only at found
  split at found
  · obtain ⟨decoded, resolved, pair⟩ := Option.map_eq_some_iff.mp found
    obtain ⟨rfl, -⟩ := Prod.mk.inj pair
    unfold resolve? at resolved
    split at resolved
    · next listed =>
        obtain rfl := Option.some.inj resolved
        obtain ⟨before, after, table, _⟩ := List.lookup_eq_some_iff.mp listed
        have others : ∀ entry ∈ named, entry.2 ≠ '=' := by decide
        rw [table] at others
        exact others _ (List.mem_append_right _ List.mem_cons_self)
    · split at resolved
      · next number shape =>
          obtain ⟨tail, behind⟩ := List.takeWhile_prefix (p := (· != ';')) (l := rest)
          rw [shape] at behind
          exact absurd ⟨[], number ++ tail, by rw [← behind]; rfl⟩ wordy
      · cases resolved
  · cases found

/-- Reading a text without numeric references brings no equals signs. -/
theorem count_decode_le {text : Text} (wordy : Wordy text) :
    (decode text).count '=' ≤ text.count '=' := by
  have reading : ∀ skip, (decodeFrom skip text).count '=' ≤ text.count '=' := by
    induction text with
    | nil => intro skip; cases skip <;> exact Nat.le_refl _
    | cons char rest ih =>
        have later := ih (wordy.of_infix (List.suffix_cons char rest).isInfix)
        intro skip
        cases skip with
        | succ skip => exact (later skip).trans List.count_le_count_cons
        | zero =>
            rw [decodeFrom]
            split
            · next ampersand =>
                subst ampersand
                have none' : ('&' :: rest).count '=' = rest.count '=' :=
                  List.count_cons_of_ne (by decide)
                rw [none']
                split
                · next decoded length found =>
                    rw [List.count_cons_of_ne (ne_equals_of_read? wordy found)]
                    exact later length
                · rw [List.count_cons_of_ne (by decide)]
                  exact later 0
            · rw [List.count_cons, List.count_cons]
              exact Nat.add_le_add_right (later 0) _
  exact reading 0

/-- An equals sign is written as itself, and no other character with one. -/
theorem count_escapeAttribute (text : Text) :
    (escapeAttribute text).count '=' = text.count '=' := by
  unfold escapeAttribute
  induction text with
  | nil => rfl
  | cons char rest ih =>
      have here : (escapeAttributeChar char).count '=' = [char].count '=' := by
        unfold escapeAttributeChar
        split
        · decide
        · decide
        · decide
        · decide
        · rfl
      rw [List.flatMap_cons, List.count_append, here, ih, ← List.count_append]
      rfl

/-- The references of an escaped text have names. -/
theorem wordy_escapeAttribute (text : Text) : Wordy (escapeAttribute text) := by
  unfold escapeAttribute
  induction text with
  | nil => simp [Wordy]
  | cons char rest ih =>
      rw [List.flatMap_cons]
      generalize rest.flatMap escapeAttributeChar = later at ih
      unfold Wordy at ih ⊢
      unfold escapeAttributeChar
      split
      · simpa [List.infix_cons_iff, List.cons_prefix_cons] using ih
      · simpa [List.infix_cons_iff, List.cons_prefix_cons] using ih
      · simpa [List.infix_cons_iff, List.cons_prefix_cons] using ih
      · simpa [List.infix_cons_iff, List.cons_prefix_cons] using ih
      · next plain _ _ _ =>
          simpa [List.infix_cons_iff, List.cons_prefix_cons, Ne.symm plain] using ih

end PageDesigner.Reference
