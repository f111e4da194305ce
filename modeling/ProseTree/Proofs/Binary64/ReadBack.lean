import ProseTree.Proofs.Expression.Grammar

namespace ProseTree

/-! A finite number reads back from its text: the text is a sign before a numeral that
stands for the magnitude.  A sign passes through products and quotients, since rounding treats both
signs alike. -/

attribute [local instance (high)] instPowNat

namespace Binary64

theorem nearest_not (negative : Bool) (num den : Nat) :
    nearest (!negative) num den = (nearest negative num den).neg := by
  unfold nearest ofRank
  by_cases bounded : nearestRank num den < 2047 * 2 ^ 52
  · rw [dif_pos bounded, dif_pos bounded, neg]
  · rw [dif_neg bounded, dif_neg bounded, neg]

theorem not_bne (left right : Bool) : ((!left) != right) = !(left != right) := by
  cases left <;> cases right <;> rfl

theorem neg_mul (left right : Binary64) : left.neg.mul right = (left.mul right).neg := by
  cases left with
  | nan => rfl
  | infinite negative =>
      cases right with
      | nan => rfl
      | infinite other => simp only [neg, mul, not_bne]
      | finite other rank bounded =>
          simp only [neg, mul, not_bne]
          split <;> rfl
  | finite negative rank bounded =>
      cases right with
      | nan => rfl
      | infinite other =>
          simp only [neg, mul, not_bne]
          split <;> rfl
      | finite other otherRank otherBounded => rw [neg, mul, mul, not_bne, nearest_not]

theorem neg_div (left right : Binary64) : left.neg.div right = (left.div right).neg := by
  cases left with
  | nan => rfl
  | infinite negative =>
      cases right with
      | nan => rfl
      | infinite other => rfl
      | finite other rank bounded => simp only [neg, div, not_bne]
  | finite negative rank bounded =>
      cases right with
      | nan => rfl
      | infinite other => rw [neg, div, div, not_bne, nearest_not]
      | finite other otherRank otherBounded =>
          rw [neg, div, div, not_bne]
          by_cases divisor : otherRank = 0
          · rw [if_pos divisor, if_pos divisor]
            by_cases dividend : rank = 0
            · rw [if_pos dividend, if_pos dividend, neg]
            · rw [if_neg dividend, if_neg dividend, neg]
          · rw [if_neg divisor, if_neg divisor, nearest_not]

def signed (negative : Bool) (value : Binary64) : Binary64 :=
  if negative then value.neg else value

theorem signed_mul (negative : Bool) (left right : Binary64) :
    (signed negative left).mul right = signed negative (left.mul right) := by
  cases negative with
  | false => rfl
  | true => exact neg_mul left right

theorem signed_div (negative : Bool) (left right : Binary64) :
    (signed negative left).div right = signed negative (left.div right) := by
  cases negative with
  | false => rfl
  | true => exact neg_div left right

theorem roundHalfEven_mul (count den : Nat) (positive : 0 < den) :
    roundHalfEven (count * den) den = count := by
  unfold roundHalfEven
  rw [Nat.mul_div_cancel count positive, Nat.mul_mod_left]
  exact if_pos positive

theorem roundHalfEven_scale {factor : Nat} (positive : 0 < factor) (num den : Nat) :
    roundHalfEven (factor * num) (factor * den) = roundHalfEven num den := by
  unfold roundHalfEven
  rw [Nat.mul_div_mul_left num den positive, Nat.mul_mod_mul_left]
  have less : 2 * (factor * (num % den)) < factor * den ↔ 2 * (num % den) < den := by
    rw [Nat.mul_left_comm]
    exact Nat.mul_lt_mul_left positive
  have same : 2 * (factor * (num % den)) = factor * den ↔ 2 * (num % den) = den := by
    rw [Nat.mul_left_comm]
    exact Nat.mul_right_inj (Nat.ne_of_gt positive)
  simp only [less, same]

theorem nearestRank_scale {factor : Nat} (positive : 0 < factor) (num den : Nat) :
    nearestRank (factor * num) (factor * den) = nearestRank num den := by
  unfold nearestRank
  rw [Nat.mul_div_mul_left num den positive]
  simp only [Nat.mul_assoc, roundHalfEven_scale positive]

theorem log2_mantissa {mantissa : Nat} (lower : 2 ^ (52 : Nat) ≤ mantissa)
    (upper : mantissa < 2 ^ (53 : Nat)) (shift : Nat) :
    Nat.log2 (mantissa * 2 ^ shift) = 52 + shift := by
  have positive : 0 < 2 ^ shift := Nat.two_pow_pos shift
  have nonzero : mantissa * 2 ^ shift ≠ 0 := by
    refine Nat.mul_ne_zero ?_ (Nat.ne_of_gt positive)
    omega
  rw [Nat.log2_eq_iff nonzero]
  constructor
  · rw [Nat.pow_add]
    exact Nat.mul_le_mul_right _ lower
  · rw [show 52 + shift + 1 = 53 + shift by omega, Nat.pow_add]
    exact Nat.mul_lt_mul_of_pos_right upper positive

/-- Every magnitude is nearest to itself. -/
theorem nearestRank_unitsOf (rank : Nat) : nearestRank (unitsOf rank) 1 = rank := by
  unfold nearestRank unitsOf
  simp only [Nat.div_one, Nat.one_mul]
  split
  · rename_i small
    have lost : Nat.log2 rank - 52 = 0 := by
      by_cases zero : rank = 0
      · simp [zero]
      · have bounded := (Nat.log2_lt zero).mpr small
        omega
    have exactly := roundHalfEven_mul rank 1 Nat.one_pos
    rw [Nat.mul_one] at exactly
    rw [lost, Nat.pow_zero, exactly]
    omega
  · rename_i large
    have mantissa : rank % 2 ^ 52 < 2 ^ 52 := Nat.mod_lt _ (Nat.two_pow_pos 52)
    rw [log2_mantissa (by omega) (by omega), Nat.add_sub_cancel_left,
      roundHalfEven_mul _ _ (Nat.two_pow_pos _)]
    have blocks := Nat.div_add_mod rank (2 ^ 52)
    omega

end Binary64

namespace Decimal

open Binary64

theorem rank_exact (rank : Nat) : (exact rank).rank = rank := by
  have allPlaces : ∀ places : Nat,
      nearestRank (unitsOf rank * 5 ^ places * 2 ^ places) (10 ^ places) = rank := by
    intro places
    have tens : 5 ^ places * 2 ^ places = 10 ^ places := (Nat.mul_pow 5 2 places).symm
    have scaled := nearestRank_scale (Nat.pow_pos (n := places) (Nat.zero_lt_succ 9))
      (unitsOf rank) 1
    rw [Nat.mul_one, nearestRank_unitsOf] at scaled
    rw [Nat.mul_assoc, tens, Nat.mul_comm]
    exact scaled
  unfold Decimal.rank exact one
  dsimp only
  generalize 1074 = places
  exact allPlaces places

theorem rank_onGrid? {rank scale places : Nat} {decimal : Decimal}
    (found : onGrid? rank scale places = some decimal) : decimal.rank = rank := by
  simp only [onGrid?] at found
  split at found
  · rename_i lowReads
    split at found
    · rename_i highReads
      obtain rfl := Option.some.inj found
      exact highReads.1
    · obtain rfl := Option.some.inj found
      exact lowReads
  · split at found
    · rename_i highReads
      obtain rfl := Option.some.inj found
      exact highReads
    · contradiction

/-- Whatever grid the shortest decimal is found on, it has the rank. -/
theorem rank_shortest (rank : Nat) : (shortest rank).rank = rank := by
  unfold shortest
  simp only
  generalize coarse : List.findSome? (fun power => onGrid? rank (10 ^ power) 0) _ = onCoarse
  generalize fine : List.findSome? (fun places => onGrid? rank 1 places) _ = onFine
  cases onCoarse with
  | some decimal =>
      obtain ⟨power, _, found⟩ := List.exists_of_findSome?_eq_some coarse
      exact rank_onGrid? found
  | none =>
      cases onFine with
      | some decimal =>
          obtain ⟨places, _, found⟩ := List.exists_of_findSome?_eq_some fine
          exact rank_onGrid? found
      | none => exact rank_exact rank

theorem rank_tenths (coefficient : Nat) :
    (Decimal.mk (coefficient * 10) 1).rank = (Decimal.mk coefficient 0).rank := by
  have scaled := nearestRank_scale (Nat.zero_lt_succ 9) (coefficient * one) 1
  rw [← Nat.mul_assoc, Nat.mul_comm (Nat.succ 9)] at scaled
  exact scaled

/-- Digits, a point and digits, which together stand for the rank. -/
structure Writes (text : Text) (rank : Nat) (whole fraction : Text) : Prop where
  split : text = whole ++ '.' :: fraction
  wholeDigits : ∀ c ∈ whole, Text.isDigit c = true
  fractionDigits : ∀ c ∈ fraction, Text.isDigit c = true
  wholeNonempty : whole ≠ []
  fractionNonempty : fraction ≠ []
  rank_eq : (Decimal.mk (Text.ofDigits (whole ++ fraction)) fraction.length).rank = rank

theorem writes_text (decimal : Decimal) :
    ∃ whole fraction, Writes decimal.text decimal.rank whole fraction := by
  obtain ⟨coefficient, places⟩ := decimal
  by_cases noPlaces : places = 0
  · subst noPlaces
    refine ⟨Text.digits coefficient, ['0'], by simp [text], ?_, ?_, ?_, ?_, ?_⟩
    · exact fun c => Text.isDigit_of_mem_digits
    · intro c member
      obtain rfl := List.mem_singleton.mp member
      decide
    · exact Nat.toDigits_ne_nil
    · simp
    · rw [Text.ofDigits_append, Text.ofDigits_digits]
      exact rank_tenths coefficient
  · have positive : 0 < places := Nat.pos_of_ne_zero noPlaces
    have small : coefficient % 10 ^ places < 10 ^ places := Nat.mod_lt _ (Nat.pow_pos (by decide))
    have width := Text.length_paddedDigits positive small
    refine ⟨Text.digits (coefficient / 10 ^ places),
      Text.paddedDigits places (coefficient % 10 ^ places), by simp [text, noPlaces],
      ?_, ?_, ?_, ?_, ?_⟩
    · exact fun c => Text.isDigit_of_mem_digits
    · exact fun c => Text.isDigit_of_mem_paddedDigits
    · exact Nat.toDigits_ne_nil
    · intro empty
      rw [empty] at width
      exact noPlaces width.symm
    · rw [Text.ofDigits_append, Text.ofDigits_digits, Text.ofDigits_paddedDigits, width,
        Nat.div_add_mod']

theorem takeWhile_digits {run : Text} (digits : ∀ c ∈ run, Text.isDigit c = true)
    (rest : Text) : (run ++ '.' :: rest).takeWhile Text.isDigit = run := by
  rw [List.takeWhile_append_of_pos digits, List.takeWhile_cons_of_neg (by decide), List.append_nil]

theorem dropWhile_digits {run : Text} (digits : ∀ c ∈ run, Text.isDigit c = true)
    (rest : Text) : (run ++ '.' :: rest).dropWhile Text.isDigit = '.' :: rest := by
  rw [List.dropWhile_append_of_pos digits, List.dropWhile_cons_of_neg (by decide)]

theorem Writes.read? {text whole fraction : Text} {rank : Nat}
    (writes : Writes text rank whole fraction) :
    Decimal.read? text = some ⟨Text.ofDigits (whole ++ fraction), fraction.length⟩ := by
  have accepted : '.' = '.' ∧ fraction.all Text.isDigit = true ∧
      ¬(whole.isEmpty = true ∧ fraction.isEmpty = true) := by
    refine ⟨rfl, List.all_eq_true.mpr writes.fractionDigits, ?_⟩
    rintro ⟨noWhole, -⟩
    exact writes.wholeNonempty (List.isEmpty_iff.mp noWhole)
  rw [Decimal.read?, writes.split, takeWhile_digits writes.wholeDigits,
    dropWhile_digits writes.wholeDigits]
  exact if_pos accepted

end Decimal

namespace Binary64

/-- The text of a finite number: a sign, digits, a point and digits, which read as the
number. -/
structure Written (value : Binary64) (negative : Bool) (whole fraction : Text) : Prop where
  text_eq : value.text = signText negative ++ (whole ++ '.' :: fraction)
  wholeDigits : ∀ c ∈ whole, Text.isDigit c = true
  fractionDigits : ∀ c ∈ fraction, Text.isDigit c = true
  wholeNonempty : whole ≠ []
  fractionNonempty : fraction ≠ []
  numeral : Expression.IsNumeral (whole ++ '.' :: fraction)
  reads : (if negative then (Expression.numeralValue (whole ++ '.' :: fraction)).neg
    else Expression.numeralValue (whole ++ '.' :: fraction)) = value

theorem exists_written (negative : Bool) {rank : Nat} (bounded : rank < 2047 * 2 ^ 52) :
    ∃ whole fraction, (finite negative rank bounded).Written negative whole fraction := by
  obtain ⟨whole, fraction, writes⟩ := Decimal.writes_text (Decimal.shortest rank)
  have found := writes.read?
  rw [writes.split] at found
  refine ⟨whole, fraction, congrArg (signText negative ++ ·) writes.split,
    writes.wholeDigits, writes.fractionDigits, writes.wholeNonempty, writes.fractionNonempty,
    Decimal.isNumeral_of_read? found, ?_⟩
  have magnitude : Expression.numeralValue (whole ++ '.' :: fraction) =
      .finite false rank bounded := by
    rw [Expression.numeralValue_eq found, Decimal.toBinary64, writes.rank_eq,
      Decimal.rank_shortest]
    exact dif_pos bounded
  rw [magnitude]
  cases negative <;> rfl

theorem written_of_isFinite {value : Binary64} (finite : value.isFinite = true) :
    ∃ negative whole fraction, value.Written negative whole fraction := by
  cases value with
  | infinite negative => contradiction
  | nan => contradiction
  | finite negative rank bounded => exact ⟨negative, exists_written negative bounded⟩

end Binary64

end ProseTree
