import PageDesigner.Proofs.Markup.Cut
import PageDesigner.Proofs.Text.Reference

/-!
# Escaped values between quotes

An escaped value can be put between quotes anywhere.  It holds nothing that ends the
quotation or a tag, so the quotation is a single token in front of every text, and the
references in it read back as the value (`quotes_one_token`).
-/

namespace PageDesigner

namespace Piece

/-- A piece that can be taken in front of a text is the first of the pieces there. -/
theorem Takes.pieces_eq {char : Char} {more next : Text} {piece : Piece}
    (takes : Takes char more next piece) :
    pieces (char :: (more ++ next)) = piece :: pieces next := by
  have first : first char (more ++ next) = piece := takes.first_eq
  have taken : piece.lexeme.length - 1 = more.length := by
    rw [takes.lexeme_eq, List.length_cons, Nat.add_sub_cancel]
  calc pieces (char :: (more ++ next))
      = piece :: piecesFrom (piece.lexeme.length - 1) (more ++ next) := by rw [← first]; rfl
    _ = piece :: pieces next := by rw [taken, piecesFrom_eq, List.drop_left]

end Piece

namespace Reference

/--
An escaped value holds no double quote and no angle bracket, is a single token between
quotes whatever stands behind them, and reads back as the value; so does escaped text.
-/
theorem quotes_one_token (value rest : Text) :
    ('"' ∉ escapeAttribute value ∧ '<' ∉ escapeAttribute value ∧ '>' ∉ escapeAttribute value) ∧
    Piece.pieces ("\"" ++ escapeAttribute value ++ "\"" ++ rest) =
      .token (.doubleQuoted (escapeAttribute value)) ("\"" ++ escapeAttribute value ++ "\"") ::
        Piece.pieces rest ∧
    decode (escapeAttribute value) = value ∧ decode (escapeText value) = value := by
  refine ⟨⟨fun member => (mem_escapeAttribute member).1 rfl,
    fun member => (mem_escapeAttribute member).2.1 rfl,
    fun member => (mem_escapeAttribute member).2.2 rfl⟩, ?_, decode_escapeAttribute value,
    decode_escapeText value⟩
  have inside : (escapeAttribute value).all (· != '"') = true :=
    Text.all_bne_of_absent (quote_not_mem_escapeAttribute value)
  have single := (Piece.Takes.doubleQuoted rest inside).pieces_eq
  simpa using single

end Reference

end PageDesigner
