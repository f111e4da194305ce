import ProseTree.Proofs.Expression.Kept
import ProseTree.Proofs.Segmentation.Typesetting

namespace ProseTree.Segmentation

/-! Texts that differ in their white space only: where the one has some, the other has
some too, except between the end of a sentence and the beginning of the next one.  Bare
expressions stand at the same places in both. -/

open Text Expression

inductive Respaced : Text → Text → Prop where
  | done : Respaced [] []
  | ink {c : Char} {text other : Text} (inked : isBlank c = false) (rest : Respaced text other) :
      Respaced (c :: text) (c :: other)
  | gap {blanks otherBlanks text other : Text} (blank : Blank blanks) (nonempty : blanks ≠ [])
      (otherBlank : Blank otherBlanks) (otherNonempty : otherBlanks ≠ [])
      (rest : Respaced text other) : Respaced (blanks ++ text) (otherBlanks ++ other)
  | closed {terminator opener : Char} {blanks otherBlanks text other : Text}
      (terminates : isTerminator terminator = true) (opens : isOpener opener = true)
      (blank : Blank blanks) (otherBlank : Blank otherBlanks) (rest : Respaced text other) :
      Respaced (terminator :: (blanks ++ opener :: text))
        (terminator :: (otherBlanks ++ opener :: other))

variable {text other whole front back blanks run : Text} {c : Char}
  {before otherBefore : Option Char} {stop otherStop : Nat}

theorem not_isBareChar_of_isOpener (opens : isOpener c = true) : isBareChar c = false := by
  have code := toNat_of_isOpener opens
  rw [Bool.eq_false_iff]
  intro made
  simp only [isBareChar, isDigit, Bool.or_eq_true, Bool.and_eq_true, decide_eq_true_eq,
    beq_iff_eq] at made
  rcases made with ((digit | rfl) | blank) | operator
  · have range : 48 ≤ c.toNat ∧ c.toNat ≤ 57 := ⟨digit.1, digit.2⟩
    omega
  · exact absurd opens (by decide)
  · rw [not_isBlank_of_isOpener opens] at blank
    contradiction
  · rcases isOperator_cases operator with rfl | rfl | rfl | rfl <;> exact absurd opens (by decide)

theorem not_isDigit_of_isOpener (opens : isOpener c = true) : isDigit c = false := by
  have other := not_isBareChar_of_isOpener opens
  simp only [isBareChar, Bool.or_eq_false_iff] at other
  exact other.1.1.1

theorem not_isDigit_of_isTerminator (terminates : isTerminator c = true) : isDigit c = false := by
  rcases isTerminator_cases terminates with rfl | rfl | rfl | rfl <;> decide

theorem not_isTerminator_of_isDigit (digit : isDigit c = true) : isTerminator c = false :=
  apart_comm not_isDigit_of_isTerminator digit

theorem not_isTerminator_of_isOperator (operator : isOperator c = true) :
    isTerminator c = false := by
  rcases isOperator_cases operator with rfl | rfl | rfl | rfl <;> decide

namespace Respaced

theorem refl (text : Text) : Respaced text text := by
  induction text with
  | nil => exact .done
  | cons c rest ih =>
      cases blank : isBlank c with
      | false => exact .ink blank ih
      | true =>
          have single : Blank [c] := blank_cons.mpr ⟨blank, blank_nil⟩
          exact @gap [c] [c] rest rest single (List.cons_ne_nil _ _) single (List.cons_ne_nil _ _) ih

theorem symm (respaced : Respaced text other) : Respaced other text := by
  induction respaced with
  | done => exact .done
  | ink inked rest ih => exact .ink inked ih
  | gap blank nonempty otherBlank otherNonempty rest ih =>
      exact .gap otherBlank otherNonempty blank nonempty ih
  | closed terminates opens blank otherBlank rest ih =>
      exact .closed terminates opens otherBlank blank ih

theorem append (first : Respaced front text) (second : Respaced back other) :
    Respaced (front ++ back) (text ++ other) := by
  induction first with
  | done => exact second
  | ink inked rest ih => exact .ink inked ih
  | gap blank nonempty otherBlank otherNonempty rest ih =>
      rw [List.append_assoc, List.append_assoc]
      exact .gap blank nonempty otherBlank otherNonempty ih
  | closed terminates opens blank otherBlank rest ih =>
      simpa using closed terminates opens blank otherBlank ih

/-- Both begin with the same ink, or neither with any. -/
theorem head_any {p : Char → Bool} (skips : ∀ c, isBlank c = true → p c = false)
    (respaced : Respaced text other) : text.head?.any p = other.head?.any p := by
  cases respaced with
  | done => rfl
  | ink inked rest => rfl
  | gap blank nonempty otherBlank otherNonempty rest =>
      obtain ⟨c, blanks, rfl⟩ := List.exists_cons_of_ne_nil nonempty
      obtain ⟨d, otherBlanks, rfl⟩ := List.exists_cons_of_ne_nil otherNonempty
      simp [skips c (blank c (by simp)), skips d (otherBlank d (by simp))]
  | closed terminates opens blank otherBlank rest => rfl

theorem cons_inv (respaced : Respaced (c :: text) whole) (inked : isBlank c = false)
    (noBoundary : isTerminator c = true → ∃ d rest, text = d :: rest ∧ isBlank d = false ∧
      isOpener d = false) :
    ∃ other, whole = c :: other ∧ Respaced text other := by
  generalize same : c :: text = left at respaced
  cases respaced with
  | done => contradiction
  | ink inked rest =>
      obtain ⟨rfl, rfl⟩ := List.cons.inj same
      exact ⟨_, rfl, rest⟩
  | gap blank nonempty otherBlank otherNonempty rest =>
      obtain ⟨d, blanks, rfl⟩ := List.exists_cons_of_ne_nil nonempty
      obtain ⟨rfl, -⟩ := List.cons.inj same
      exact absurd List.mem_cons_self (blank.not_mem inked)
  | @closed terminator opener blanks otherBlanks text other terminates opens blank otherBlank rest =>
      obtain ⟨rfl, rfl⟩ := List.cons.inj same
      obtain ⟨d, more, cut, inkedBehind, noOpener⟩ := noBoundary terminates
      cases blanks with
      | nil =>
          obtain ⟨rfl, -⟩ := List.cons.inj cut
          rw [opens] at noOpener
          contradiction
      | cons e blanks =>
          obtain ⟨rfl, -⟩ := List.cons.inj cut
          exact absurd List.mem_cons_self (blank.not_mem inkedBehind)

theorem cons_inv_of_not_isTerminator (respaced : Respaced (c :: text) whole)
    (inked : isBlank c = false) (goesOn : isTerminator c = false) :
    ∃ other, whole = c :: other ∧ Respaced text other := by
  apply respaced.cons_inv inked
  intro terminates
  rw [goesOn] at terminates
  contradiction

theorem blank_inv (respaced : Respaced (blanks ++ text) whole) (blank : Blank blanks)
    (starts : StartsInked text) :
    ∃ otherBlanks other, whole = otherBlanks ++ other ∧ Blank otherBlanks ∧
      (otherBlanks = [] ↔ blanks = []) ∧ Respaced text other := by
  generalize same : blanks ++ text = left at respaced
  induction respaced generalizing blanks with
  | done =>
      obtain ⟨c, rest, rfl, -⟩ := starts
      simp at same
  | @ink c rest other inked tail ih =>
      cases blanks with
      | nil =>
          obtain rfl : text = _ := same
          exact ⟨[], _, rfl, blank_nil, Iff.rfl, .ink inked tail⟩
      | cons d blanks =>
          obtain ⟨rfl, -⟩ := List.cons.inj same
          exact absurd List.mem_cons_self (blank.not_mem inked)
  | @gap front otherFront behind other blankFront nonempty otherBlank otherNonempty rest ih =>
      obtain ⟨more, rfl, rfl⟩ : ∃ more, blanks = front ++ more ∧ behind = more ++ text := by
        rcases List.append_eq_append_iff.mp same with ⟨more, rfl, rfl⟩ | ⟨more, rfl, rfl⟩
        · cases more with
          | nil => exact ⟨[], by simp, rfl⟩
          | cons d more =>
              obtain ⟨c, others, cut, inked⟩ := starts
              obtain ⟨rfl, -⟩ := List.cons.inj cut
              exact absurd (by simp) (blankFront.not_mem inked)
        · exact ⟨more, rfl, rfl⟩
      obtain ⟨otherMore, other, rfl, blankMore, -, behind⟩ := ih (blank_append.mp blank).2 rfl
      refine ⟨otherFront ++ otherMore, other, by simp, blank_append.mpr ⟨otherBlank, blankMore⟩,
        ?_, behind⟩
      simp [nonempty, otherNonempty]
  | closed terminates opens blankInside otherBlank rest ih =>
      cases blanks with
      | nil =>
          obtain rfl : text = _ := same
          exact ⟨[], _, rfl, blank_nil, Iff.rfl,
            .closed terminates opens blankInside otherBlank rest⟩
      | cons d blanks =>
          obtain ⟨rfl, -⟩ := List.cons.inj same
          rw [not_isTerminator_of_isBlank (blank d (by simp))] at terminates
          contradiction

theorem digits_inv (respaced : Respaced (run ++ text) whole)
    (digits : ∀ c ∈ run, isDigit c = true) :
    ∃ other, whole = run ++ other ∧ Respaced text other := by
  induction run generalizing whole with
  | nil => exact ⟨whole, rfl, respaced⟩
  | cons c rest ih =>
      obtain ⟨digit, others⟩ := List.forall_mem_cons.mp digits
      obtain ⟨behind, rfl, tail⟩ := respaced.cons_inv_of_not_isTerminator
        (not_isBlank_of_isDigit digit) (not_isTerminator_of_isDigit digit)
      obtain ⟨other, rfl, last⟩ := ih tail others
      exact ⟨other, rfl, last⟩

theorem of_blank (blank : Blank blanks) {otherBlanks : Text} (otherBlank : Blank otherBlanks)
    (same : otherBlanks = [] ↔ blanks = []) : Respaced blanks otherBlanks := by
  by_cases nothing : blanks = []
  · rw [nothing, same.mpr nothing]
    exact .done
  · have respaced := gap blank nothing otherBlank (mt same.mp nothing) .done
    rwa [List.append_nil, List.append_nil] at respaced

end Respaced

/-- Places of two texts that belong together. -/
structure Parallel (text other : Text) (stop otherStop : Nat) : Prop where
  front : Respaced (text.take stop) (other.take otherStop)
  back : Respaced (text.drop stop) (other.drop otherStop)

namespace Parallel

theorem zero (respaced : Respaced text other) : Parallel text other 0 0 := ⟨.done, respaced⟩

theorem further {more otherMore : Nat} (parallel : Parallel text other stop otherStop)
    (behind : Parallel (text.drop stop) (other.drop otherStop) more otherMore) :
    Parallel text other (stop + more) (otherStop + otherMore) := by
  constructor
  · rw [List.take_add, List.take_add]
    exact parallel.front.append behind.front
  · rw [← List.drop_drop, ← List.drop_drop]
    exact behind.back

theorem of_append {otherFront otherBack : Text} (inFront : Respaced front otherFront)
    (behind : Respaced back otherBack) :
    Parallel (front ++ back) (otherFront ++ otherBack) front.length otherFront.length := by
  constructor
  · rwa [List.take_left, List.take_left]
  · rwa [List.drop_left, List.drop_left]

end Parallel

namespace Respaced

theorem wholeLength_eq_zero (respaced : Respaced text other) (none : wholeLength text = 0) :
    wholeLength other = 0 := by
  rw [wholeLength_eq_zero_iff] at none ⊢
  rwa [← respaced.head_any fun c blank => not_isDigit_of_isBlank blank]

theorem parallel_whole (respaced : Respaced text other) :
    wholeLength other = wholeLength text ∧
      Parallel text other (wholeLength text) (wholeLength text) := by
  obtain ⟨run, rest, rfl, digits, stops⟩ := exists_digits text
  obtain ⟨behind, rfl, tail⟩ := respaced.digits_inv digits
  rw [wholeLength_append digits stops, wholeLength_append digits (tail.wholeLength_eq_zero stops)]
  exact ⟨rfl, .of_append (refl run) tail⟩

theorem parallel_fraction_of_ne_zero (respaced : Respaced text other)
    (some : fractionLength text ≠ 0) :
    fractionLength other = fractionLength text ∧
      Parallel text other (fractionLength text) (fractionLength text) := by
  unfold fractionLength at some
  split at some
  · rename_i rest
    split at some
    · contradiction
    · rename_i digits
      obtain ⟨digit, more, cut, isDigit⟩ := wholeLength_ne_zero_iff.mp digits
      have noBoundary : isTerminator '.' = true → ∃ d more, rest = d :: more ∧
          isBlank d = false ∧ isOpener d = false := by
        intro _
        exact ⟨digit, more, cut, not_isBlank_of_isDigit isDigit,
          apart_comm not_isDigit_of_isOpener isDigit⟩
      obtain ⟨behind, rfl, tail⟩ := respaced.cons_inv (by decide) noBoundary
      obtain ⟨same, parallel⟩ := tail.parallel_whole
      rw [fractionLength, fractionLength, if_neg digits, same, if_neg digits]
      exact ⟨rfl, .ink (by decide) parallel.front, parallel.back⟩
  · contradiction

theorem parallel_fraction (respaced : Respaced text other) :
    fractionLength other = fractionLength text ∧
      Parallel text other (fractionLength text) (fractionLength text) := by
  by_cases none : fractionLength text = 0
  · by_cases otherNone : fractionLength other = 0
    · rw [none, otherNone]
      exact ⟨rfl, .zero respaced⟩
    · have same := (respaced.symm.parallel_fraction_of_ne_zero otherNone).1
      exact absurd (same.symm.trans none) otherNone
  · exact respaced.parallel_fraction_of_ne_zero none

theorem parallel_join (respaced : Respaced text other) (joins : joinLength text ≠ 0) :
    joinLength other ≠ 0 ∧ Parallel text other (joinLength text) (joinLength other) := by
  obtain ⟨front, operator, back, rest, rfl, blankFront, isOperator, blankBack, digits, length⟩ :=
    exists_operator_of_joinLength joins
  have inked := not_isBlank_of_isOperator isOperator
  obtain ⟨otherFront, others, rfl, otherBlankFront, sameFront, further⟩ :=
    respaced.blank_inv blankFront ⟨operator, _, rfl, inked⟩
  obtain ⟨others, rfl, behind⟩ := further.cons_inv_of_not_isTerminator inked
    (not_isTerminator_of_isOperator isOperator)
  obtain ⟨otherBack, others, rfl, otherBlankBack, sameBack, number⟩ :=
    behind.blank_inv blankBack (startsInked_of_wholeLength digits)
  have otherDigits : wholeLength others ≠ 0 := by rwa [number.parallel_whole.1]
  have around : Respaced (front ++ operator :: back) (otherFront ++ operator :: otherBack) :=
    (of_blank blankFront otherBlankFront sameFront).append
      (.ink inked (of_blank blankBack otherBlankBack sameBack))
  have parallel := Parallel.of_append around number
  simp only [List.length_append, List.length_cons, List.append_assoc, List.cons_append] at parallel
  rw [length, joinLength_operator otherBlankFront isOperator otherBlankBack otherDigits,
    Nat.add_right_comm front.length, Nat.add_right_comm otherFront.length]
  exact ⟨Nat.succ_ne_zero _, parallel⟩

theorem joinLength_eq_zero (respaced : Respaced text other) (none : joinLength text = 0) :
    joinLength other = 0 := by
  by_contra joins
  exact (respaced.symm.parallel_join joins).1 none

theorem forall₂_endsAfter (parallel : Parallel text other stop otherStop) :
    List.Forall₂ (Parallel text other) (endsAfter stop (text.drop stop))
      (endsAfter otherStop (other.drop otherStop)) := by
  generalize same : text.drop stop = rest
  fun_induction endsAfter stop rest generalizing otherStop with
  | case1 stop rest join =>
      rename_i atEnd
      have otherAtEnd : joinLength (other.drop otherStop) = 0 := by
        apply parallel.back.joinLength_eq_zero
        rw [same]
        exact atEnd
      rw [endsAfter, dif_pos otherAtEnd]
      exact .nil
  | case2 stop rest join goesOn whole fraction =>
      rename_i ih
      subst same
      obtain ⟨otherGoesOn, joined⟩ := parallel.back.parallel_join goesOn
      obtain ⟨sameWhole, number⟩ := joined.back.parallel_whole
      obtain ⟨otherWhole, isOtherWhole⟩ : ∃ length, joinLength (other.drop otherStop) +
        wholeLength ((other.drop otherStop).drop (joinLength (other.drop otherStop))) = length :=
          ⟨_, rfl⟩
      have toWhole : Parallel (text.drop stop) (other.drop otherStop) whole otherWhole := by
        rw [← isOtherWhole, sameWhole]
        exact joined.further number
      obtain ⟨sameFraction, point⟩ :
          fractionLength ((other.drop otherStop).drop otherWhole) = fraction ∧
            Parallel ((text.drop stop).drop whole) ((other.drop otherStop).drop otherWhole)
              fraction fraction := toWhole.back.parallel_fraction
      clear_value fraction whole
      have toFraction : Parallel text other (stop + whole + fraction)
          (otherStop + otherWhole + fraction) := by
        rw [Nat.add_assoc, Nat.add_assoc]
        exact parallel.further (toWhole.further point)
      have further := ih toFraction (by rw [List.drop_drop, Nat.add_assoc])
      rw [endsAfter_of_joins otherGoesOn isOtherWhole sameFraction]
      apply List.rel_append
      · rwa [@List.drop_drop _ (otherWhole + fraction), ← Nat.add_assoc]
      · split
        · exact .cons (parallel.further toWhole) .nil
        · exact .cons toFraction (.cons (parallel.further toWhole) .nil)

theorem forall₂_bareEnds (respaced : Respaced text other) :
    List.Forall₂ (Parallel text other) (bareEnds text) (bareEnds other) := by
  obtain ⟨sameWhole, number⟩ := respaced.parallel_whole
  obtain ⟨sameFraction, point⟩ := number.back.parallel_fraction
  simp only [bareEnds, sameWhole, sameFraction]
  split
  · exact .nil
  · exact forall₂_endsAfter (number.further point)

theorem startsWord_eq (respaced : Respaced text other) : startsWord text = startsWord other := by
  rw [Expression.startsWord_eq, Expression.startsWord_eq]
  exact respaced.head_any fun c blank => not_isWordChar_of_isBlank blank

end Respaced

/-- The first elements found in two lists belong together as the lists do. -/
theorem find?_of_forall₂ {α β : Type} {R : α → β → Prop} {p : α → Bool} {q : β → Bool}
    {xs : List α} {ys : List β} (together : List.Forall₂ R xs ys)
    (same : ∀ x y, R x y → p x = q y) :
    xs.find? p = none ∧ ys.find? q = none ∨
      ∃ x y, xs.find? p = some x ∧ ys.find? q = some y ∧ R x y := by
  induction together with
  | nil => exact .inl ⟨rfl, rfl⟩
  | @cons x y xs ys here rest ih =>
      have agree := same x y here
      cases taken : q y with
      | true => exact .inr ⟨x, y, by simp [agree, taken], by simp [taken], here⟩
      | false => simpa [agree, taken] using ih

/-- A bare expression is found in both texts or in neither. -/
theorem Respaced.taken_cases (respaced : Respaced text other)
    (same : before.any isWordChar = otherBefore.any isWordChar) :
    Style.bare.rule before text = 0 ∧ Style.bare.rule otherBefore other = 0 ∨
    Style.bare.rule before text ∈ bareEnds text ∧ Style.bare.rule otherBefore other ∈ bareEnds other ∧
      Parallel text other (Style.bare.rule before text) (Style.bare.rule otherBefore other) := by
  simp only [Style.rule, bareLength]
  rw [same]
  split
  · exact .inl ⟨rfl, rfl⟩
  · have agree : ∀ stop otherStop, Parallel text other stop otherStop →
        (!startsWord (text.drop stop)) = !startsWord (other.drop otherStop) :=
      fun stop otherStop parallel => congrArg _ parallel.back.startsWord_eq
    rcases find?_of_forall₂ respaced.forall₂_bareEnds agree with
      ⟨none, otherNone⟩ | ⟨stop, otherStop, found, otherFound, parallel⟩
    · rw [none, otherNone]
      exact .inl ⟨rfl, rfl⟩
    · rw [found, otherFound]
      exact .inr ⟨List.mem_of_find?_eq_some found, List.mem_of_find?_eq_some otherFound, parallel⟩

end ProseTree.Segmentation
