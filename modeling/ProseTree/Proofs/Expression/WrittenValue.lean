import ProseTree.Proofs.Expression.Spans

namespace ProseTree

/-! The text of a number as an expression: a minus if the number has one, and a numeral.  It has
that number as its value, to the bit: a finite number has the sign and the rank that its bits spell,
and no other bits spell it. -/

attribute [local instance (high)] instPowNat

namespace Binary64

theorem ofBits_of_isFinite {bits : BitVec 64} (isFinite : (ofBits bits.toNat).isFinite = true) :
    ∃ bounded, ofBits bits.toNat = .finite bits.msb (bits.toNat % 2 ^ (63 : Nat)) bounded := by
  have sign : bits.msb = decide (2 ^ (63 : Nat) ≤ bits.toNat) := BitVec.msb_eq_decide bits
  rw [sign]
  unfold ofBits at isFinite ⊢
  dsimp only at isFinite ⊢
  split at isFinite
  · contradiction
  · rename_i within
    unfold ofRank at isFinite ⊢
    split at isFinite
    · rename_i bounded
      exact ⟨bounded, by rw [if_neg within, dif_pos bounded]⟩
    · contradiction

/-- A finite number has one encoding, the zeros of either sign included. -/
theorem eq_of_ofBits {bits other : BitVec 64} (isFinite : (ofBits bits.toNat).isFinite = true)
    (same : ofBits other.toNat = ofBits bits.toNat) : other = bits := by
  obtain ⟨_, found⟩ := ofBits_of_isFinite isFinite
  obtain ⟨_, otherFound⟩ := ofBits_of_isFinite (same ▸ isFinite)
  rw [found, otherFound] at same
  obtain ⟨sameSign, sameRank⟩ := Binary64.finite.inj same
  rw [BitVec.msb_eq_decide, BitVec.msb_eq_decide, decide_eq_decide] at sameSign
  have bound := bits.isLt
  have otherBound := other.isLt
  refine BitVec.eq_of_toNat_eq ?_
  omega

end Binary64

namespace Expression

open Binary64 Text

variable {value : Binary64} {negative : Bool} {whole fraction : Text}

/-- The minus at the head of a text, if there is one. -/
def signTokens (negative : Bool) : List Token :=
  if negative then [⟨.minus, ['-'], 0⟩] else []

theorem tokens_text (written : value.Written negative whole fraction) :
    tokens value.text = .ok (signTokens negative ++
      [⟨.number, whole ++ '.' :: fraction, byteLength (signText negative)⟩]) := by
  have numeral : ∀ position : Nat, Tokenized position (whole ++ '.' :: fraction)
      [⟨.number, whole ++ '.' :: fraction, position⟩] := by
    intro position
    have alone := @Tokenized.number position _ [] [] (by simp) written.numeral.run rfl .done
    rwa [List.append_nil] at alone
  rw [written.text_eq]
  cases negative with
  | false => exact (numeral 0).tokensFrom_eq
  | true => exact (Tokenized.symbol rfl (numeral _)).tokensFrom_eq

theorem evaluate_text (finite : value.isFinite = true) : evaluate value.text = .ok value :=
  evaluate_eq_ok_iff.mpr ⟨finite, none, value, Reading.passes_text finite rfl, rfl⟩

/-- The number that the bits encode is written as digits, a point and digits behind its sign, and
read as itself. -/
structure RereadsAs (bits : BitVec 64) (whole fraction : Text) : Prop where
  wholeDigits : Digits whole
  fractionDigits : Digits fraction
  text : (ofBits bits.toNat).text = signText bits.msb ++ (whole ++ '.' :: fraction)
  /-- The numeral is one token, with a minus before it exactly when the sign bit is set. -/
  tokens : tokens (ofBits bits.toNat).text = .ok (signTokens bits.msb ++
    [⟨.number, whole ++ '.' :: fraction, byteLength (signText bits.msb)⟩])
  value : evaluate (ofBits bits.toNat).text = .ok (ofBits bits.toNat)
  /-- The value has the bits that were written, and no others. -/
  encoded : ∀ other : BitVec 64, ofBits other.toNat = ofBits bits.toNat ↔ other = bits

theorem text_ofBits_rereads (bits : BitVec 64)
    (isFinite : (ofBits bits.toNat).isFinite = true) :
    ∃ whole fraction, RereadsAs bits whole fraction := by
  obtain ⟨bounded, found⟩ := ofBits_of_isFinite isFinite
  obtain ⟨whole, fraction, written⟩ := exists_written bits.msb bounded
  rw [← found] at written
  refine ⟨whole, fraction, ⟨written.wholeNonempty, written.wholeDigits⟩,
    ⟨written.fractionNonempty, written.fractionDigits⟩, written.text_eq, tokens_text written,
    evaluate_text isFinite, fun other => ⟨eq_of_ofBits isFinite, ?_⟩⟩
  rintro rfl
  rfl

/-- Zero with the sign bit set keeps it. -/
theorem text_ofBits_rereads_negativeZero :
    let bits := 0x8000000000000000#64
    (ofBits bits.toNat).isFinite = true ∧ (ofBits bits.toNat).text = ['-', '0', '.', '0'] ∧
      ∃ whole fraction, RereadsAs bits whole fraction := by
  intro bits
  have isFinite : (ofBits bits.toNat).isFinite = true := by decide
  exact ⟨isFinite, by decide +kernel, text_ofBits_rereads bits isFinite⟩

end Expression

end ProseTree
