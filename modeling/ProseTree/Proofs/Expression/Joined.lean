import ProseTree.Proofs.Expression.BareOccurrence
import ProseTree.Proofs.Text.Blank

namespace ProseTree.Expression

/-! How a bare expression goes on: from a number over an operator to the next number. -/

open Text

variable {text front back rest right run : Text} {c operator : Char} {passed stop : Nat}

theorem isOperator_cases (isOperator : isOperator c = true) :
    c = '+' ∨ c = '-' ∨ c = '*' ∨ c = '/' := by
  simpa [Expression.isOperator, or_assoc] using isOperator

theorem not_isBlank_of_isOperator (operator : isOperator c = true) : isBlank c = false := by
  rcases isOperator_cases operator with rfl | rfl | rfl | rfl <;> decide

theorem not_isNumeral_of_isOperator (operator : isOperator c = true) : isNumeral c = false := by
  rcases isOperator_cases operator with rfl | rfl | rfl | rfl <;> decide

theorem not_isDigit_of_isNumeral_eq_false (other : isNumeral c = false) : isDigit c = false :=
  (Bool.or_eq_false_iff.mp other).1

theorem not_isNumeral_of_isBlank (blank : isBlank c = true) : isNumeral c = false := by
  rw [Bool.eq_false_iff]
  intro numeral
  rcases Bool.or_eq_true_iff.mp numeral with digit | point
  · rw [not_isBlank_of_isDigit digit] at blank
    contradiction
  · rw [beq_iff_eq.mp point] at blank
    exact absurd blank (by decide)

theorem not_isDigit_of_isBlank (blank : isBlank c = true) : isDigit c = false :=
  not_isDigit_of_isNumeral_eq_false (not_isNumeral_of_isBlank blank)

theorem wholeLength_ne_zero_iff : wholeLength text ≠ 0 ↔
    ∃ digit rest, text = digit :: rest ∧ isDigit digit = true := by
  cases text with
  | nil => simp [wholeLength]
  | cons c rest =>
      cases digit : isDigit c with
      | true => simp [wholeLength, digit]
      | false => simp [wholeLength, digit]

theorem wholeLength_eq_zero_iff : wholeLength text = 0 ↔ text.head?.any isDigit = false := by
  cases text with
  | nil => simp [wholeLength]
  | cons c rest => cases digit : isDigit c <;> simp [wholeLength, digit]

theorem wholeLength_append (digits : ∀ c ∈ run, isDigit c = true) (stops : wholeLength text = 0) :
    wholeLength (run ++ text) = run.length := by
  rw [wholeLength, List.takeWhile_append_of_pos digits, List.length_append]
  exact congrArg (run.length + ·) stops

theorem exists_digits (text : Text) : ∃ run rest, text = run ++ rest ∧
    (∀ c ∈ run, isDigit c = true) ∧ wholeLength rest = 0 := by
  simp only [wholeLength_eq_zero_iff]
  exact exists_run isDigit text

theorem startsInked_of_wholeLength (some : wholeLength text ≠ 0) : StartsInked text := by
  obtain ⟨digit, rest, rfl, isDigit⟩ := wholeLength_ne_zero_iff.mp some
  exact ⟨digit, rest, rfl, not_isBlank_of_isDigit isDigit⟩

theorem joinLength_operator (blankFront : Blank front) (isOperator : isOperator operator = true)
    (blankBack : Blank back) (some : wholeLength rest ≠ 0) :
    joinLength (front ++ operator :: (back ++ rest)) = front.length + 1 + back.length := by
  have inked : StartsInked (operator :: (back ++ rest)) :=
    ⟨operator, _, rfl, not_isBlank_of_isOperator isOperator⟩
  simp only [joinLength, takeWhile_isBlank blankFront (.inr inked), List.drop_left,
    takeWhile_isBlank blankBack (.inr (startsInked_of_wholeLength some)), isOperator, some,
    ne_eq, not_false_eq_true, and_self, if_true]

theorem exists_operator_of_joinLength (joins : joinLength text ≠ 0) :
    ∃ front operator back rest, text = front ++ operator :: (back ++ rest) ∧ Blank front ∧
      isOperator operator = true ∧ Blank back ∧ wholeLength rest ≠ 0 ∧
      joinLength text = front.length + 1 + back.length := by
  obtain ⟨front, others, rfl, blankFront, stops⟩ := exists_blank_front text
  have passed : (front ++ others).takeWhile isBlank = front := takeWhile_isBlank blankFront stops
  cases others with
  | nil =>
      simp only [joinLength, passed, List.drop_left] at joins
      contradiction
  | cons operator behind =>
      obtain ⟨back, rest, rfl, blankBack, stopsBack⟩ := exists_blank_front behind
      have found : isOperator operator = true ∧ wholeLength rest ≠ 0 := by
        by_contra other
        simp only [joinLength, passed, List.drop_left, takeWhile_isBlank blankBack stopsBack,
          if_neg other] at joins
        contradiction
      exact ⟨front, operator, back, rest, rfl, blankFront, found.1, blankBack, found.2,
        joinLength_operator blankFront found.1 blankBack found.2⟩

theorem endsAfter_of_joins {passed whole fraction : Nat} (joins : joinLength text ≠ 0)
    (isWhole : joinLength text + wholeLength (text.drop (joinLength text)) = whole)
    (isFraction : fractionLength (text.drop whole) = fraction) :
    endsAfter passed text =
      endsAfter (passed + whole + fraction) (text.drop (whole + fraction)) ++
        (if fraction = 0 then [passed + whole]
        else [passed + whole + fraction, passed + whole]) := by
  subst isWhole isFraction
  rw [endsAfter, dif_neg joins]

theorem upToDigit_number (some : wholeLength text ≠ 0) : UpToDigit
    (text.take (wholeLength text + fractionLength (text.drop (wholeLength text)))) := by
  by_cases none : fractionLength (text.drop (wholeLength text)) = 0
  · rw [none]
    exact upToDigit_whole some
  · rw [List.take_add]
    exact .append (upToDigit_whole some).made (upToDigit_fraction none)

theorem exists_join_of_mem_endsAfter (member : stop ∈ endsAfter passed text) :
    joinLength text ≠ 0 ∧ passed + joinLength text + 1 ≤ stop := by
  fun_induction endsAfter passed text with
  | case1 => contradiction
  | case2 passed text join atEnd whole fraction ih =>
      have some := (made_join atEnd).2
      have further : join + 1 ≤ whole := Nat.add_le_add_left (Nat.pos_of_ne_zero some) join
      refine ⟨atEnd, ?_⟩
      change passed + join + 1 ≤ stop
      rcases List.mem_append.mp member with later | own
      · have behind := (ih later).2
        omega
      · split at own
        · obtain rfl := List.mem_singleton.mp own
          omega
        · rcases List.mem_cons.mp own with rfl | own
          · omega
          · obtain rfl := List.mem_singleton.mp own
            omega

theorem exists_join_of_mem_bareEnds (member : stop ∈ bareEnds text) :
    ∃ number front operator back digit rest,
      text.take stop = number ++ (front ++ operator :: (back ++ digit :: rest)) ∧
      (∃ first more, number = first :: more ∧ isDigit first = true) ∧
      UpToDigit number ∧ Blank front ∧ isOperator operator = true ∧ Blank back ∧
      isDigit digit = true := by
  simp only [bareEnds] at member
  split at member
  · contradiction
  · rename_i some
    generalize number : wholeLength text + fractionLength (text.drop (wholeLength text)) = length
      at member
    obtain ⟨joins, further⟩ := exists_join_of_mem_endsAfter member
    obtain ⟨front, operator, back, rest, behind, blankFront, isOperator, blankBack, digits,
      joined⟩ := exists_operator_of_joinLength joins
    obtain ⟨digit, rest, rfl, isDigit⟩ := wholeLength_ne_zero_iff.mp digits
    obtain ⟨first, others, rfl, isFirst⟩ := wholeLength_ne_zero_iff.mp some
    have whole : (front ++ operator :: (back ++ [digit])).length = joinLength
        ((first :: others).drop length) + 1 := by
      rw [joined]
      simp only [List.length_append, List.length_cons, List.length_nil]
      omega
    obtain ⟨more, rfl⟩ := Nat.exists_eq_add_of_le further
    refine ⟨(first :: others).take length, front, operator, back, digit, rest.take more, ?_,
      ?_, ?_, blankFront, isOperator, blankBack, isDigit⟩
    · have cut : (first :: others).drop length =
          (front ++ operator :: (back ++ [digit])) ++ rest := by simp [behind]
      rw [Nat.add_assoc length, ← whole, Nat.add_assoc, List.take_add, cut,
        List.take_length_add_append]
      simp
    · rw [← number, Nat.add_comm, wholeLength, List.takeWhile_cons_of_pos isFirst,
        List.length_cons, ← Nat.add_assoc, List.take_succ_cons]
      exact ⟨first, _, rfl, isFirst⟩
    · rw [← number]
      exact upToDigit_number some

theorem exists_end_of_takenBy {left occurrence : Text}
    (taken : TakenBy Style.bare.rule left occurrence right) :
    ∃ stop ∈ bareEnds (occurrence ++ right), (occurrence ++ right).take stop = occurrence := by
  obtain ⟨nonempty, taken⟩ := taken
  simp only [Style.rule, bareLength] at taken
  split at taken
  · exact absurd taken.symm nonempty
  · cases found : (bareEnds (occurrence ++ right)).find?
        fun stop => !startsWord ((occurrence ++ right).drop stop) with
    | none =>
        rw [found] at taken
        exact absurd taken.symm nonempty
    | some stop =>
        rw [found] at taken
        exact ⟨stop, List.mem_of_find?_eq_some found, taken⟩

end ProseTree.Expression
