import PageDesigner.Text.Basic

/-!
# Blank characters

Two classes of blanks occur.  Between the parts of a tag only the four layout
characters of markup count (`isLayout`).  Where a whole text is trimmed, every
character with the Unicode property White_Space counts (`isBlank`), so a
no-break space is trimmed and a byte order mark is not.
-/

namespace PageDesigner.Text

/-- The blanks that separate the parts of a tag: space, tab, line feed, return. -/
def isLayout (char : Char) : Bool :=
  char == ' ' || char == '\t' || char == '\n' || char == '\r'

/-- The Unicode property White_Space. -/
def isBlank (char : Char) : Bool :=
  let code := char.toNat
  (0x09 ≤ code && code ≤ 0x0D) || code == 0x20 || code == 0x85 || code == 0xA0 ||
    code == 0x1680 || (0x2000 ≤ code && code ≤ 0x200A) || code == 0x2028 || code == 0x2029 ||
    code == 0x202F || code == 0x205F || code == 0x3000

/-- The text without the blanks at its start. -/
def trimStart (text : Text) : Text := text.dropWhile isBlank

/-- The text without the blanks at its end. -/
def trimEnd (text : Text) : Text := (text.reverse.dropWhile isBlank).reverse

/-- The text without the blanks at its two ends. -/
def trim (text : Text) : Text := text.trimStart.trimEnd

/-! ## Laws -/

theorem isBlank_of_isLayout {char : Char} (h : isLayout char = true) : isBlank char = true := by
  simp only [isLayout, Bool.or_eq_true, beq_iff_eq] at h
  rcases h with ((rfl | rfl) | rfl) | rfl <;> decide

end PageDesigner.Text
