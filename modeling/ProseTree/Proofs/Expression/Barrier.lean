import Mathlib.Data.List.Find
import Mathlib.Dynamics.FixedPoints.Basic
import ProseTree.Proofs.Expression.Accounting

namespace ProseTree.Expression

/-! Texts that bar the way: no bare expression in front of such a text reaches into it.

So what stands in front of a barrier is read, swept and settled as if the text ended there.
Any style and any middle of a text that every sweep leaves alone: settling leaves it alone as well,
however many sweeps the two sides take.  No bare expression reaches over a parenthesis, so a
parenthesis cuts the text of a bare reduction: what stands before it and what stands behind it are
reduced each on its own, and the parenthesis stays where it is. -/

open Text

variable {text tail left right : Text} {c : Char} {before other : Option Char}
  {passed stop limit : Nat} {style : Style}

/-- The text does not go on with a word or a point nor, past white space, with an operator or a
digit. -/
structure Bars (tail : Text) : Prop where
  head : ∀ c ∈ tail.head?, isWordChar c = false ∧ c ≠ '.'
  ink : ∀ c ∈ (tail.dropWhile isBlank).head?, isOperator c = false ∧ isDigit c = false

theorem takeWhile_append_stop {p : Char → Bool} (stops : ∀ c ∈ tail.head?, p c = false)
    (text : Text) : (text ++ tail).takeWhile p = text.takeWhile p := by
  have nothing : tail.takeWhile p = [] := by
    cases tail with
    | nil => rfl
    | cons c rest => exact List.takeWhile_cons_of_neg (by simp [stops c rfl])
  rw [List.takeWhile_append, nothing, List.append_nil]
  split
  · rename_i whole
    exact ((List.takeWhile_prefix p).eq_of_length whole).symm
  · rfl

theorem wholeLength_le (text : Text) : wholeLength text ≤ text.length :=
  (List.takeWhile_prefix isDigit).length_le

theorem fractionLength_le (text : Text) : fractionLength text ≤ text.length := by
  unfold fractionLength
  split
  · rename_i rest
    have bound := wholeLength_le rest
    split
    · exact Nat.zero_le _
    · exact Nat.succ_le_succ bound
  · exact Nat.zero_le _

theorem joinLength_le (text : Text) : joinLength text ≤ text.length := by
  by_cases joins : joinLength text = 0
  · rw [joins]
    exact Nat.zero_le _
  · obtain ⟨front, operator, back, rest, rfl, -, -, -, -, length⟩ :=
      exists_operator_of_joinLength joins
    rw [length]
    simp only [List.length_append, List.length_cons]
    omega

namespace Bars

variable (bars : Bars tail)
include bars

theorem not_isDigit : ∀ c ∈ tail.head?, isDigit c = false := by
  intro c isHead
  rw [Bool.eq_false_iff]
  intro digit
  have noWord := (bars.head c isHead).1
  rw [isWordChar_of_isDigit digit] at noWord
  contradiction

theorem wholeLength_append (text : Text) : wholeLength (text ++ tail) = wholeLength text := by
  rw [wholeLength, takeWhile_append_stop bars.not_isDigit, wholeLength]

/-- Past more white space in front of it, the barrier goes on with what is no operator and no
digit. -/
theorem exists_ink {front : Text} (blank : Blank front) : ∃ blanks rest,
    front ++ tail = blanks ++ rest ∧ (front ++ tail).takeWhile isBlank = blanks ∧
      ∀ c ∈ rest.head?, isOperator c = false ∧ isDigit c = false := by
  refine ⟨front ++ tail.takeWhile isBlank, tail.dropWhile isBlank, ?_, ?_, bars.ink⟩
  · rw [List.append_assoc, List.takeWhile_append_dropWhile]
  · exact List.takeWhile_append_of_pos blank

theorem fractionLength_append (text : Text) :
    fractionLength (text ++ tail) = fractionLength text := by
  cases text with
  | nil =>
      cases tail with
      | nil => rfl
      | cons c rest => simp [fractionLength, (bars.head c rfl).2]
  | cons d rest =>
      by_cases point : d = '.'
      · simp only [point, List.cons_append, fractionLength, bars.wholeLength_append]
      · simp [fractionLength, point]

/-- Past its white space the text has ink or, if it has none, the barrier behind it has. -/
theorem joinLength_append (text : Text) : joinLength (text ++ tail) = joinLength text := by
  obtain ⟨front, others, rfl, blankFront, stops⟩ := exists_blank_front text
  rw [List.append_assoc]
  cases others with
  | nil =>
      obtain ⟨blanks, rest, cut, passed, noOperator⟩ := bars.exists_ink blankFront
      have nothing : joinLength (front ++ []) = 0 := by
        simp only [joinLength, takeWhile_isBlank blankFront stops, List.drop_left]
      rw [nothing, List.nil_append, cut]
      rw [cut] at passed
      cases rest with
      | nil => simp only [joinLength, passed, List.drop_left]
      | cons c rest => simp [joinLength, passed, (noOperator c rfl).1]
  | cons operator behind =>
      have inked : StartsInked (operator :: behind) :=
        stops.resolve_left (List.cons_ne_nil operator behind)
      have stopsJoined : StartsInked (operator :: behind ++ tail) := inked.append tail
      obtain ⟨back, rest, rfl, blankBack, stopsBack⟩ := exists_blank_front behind
      rw [List.cons_append] at stopsJoined ⊢
      simp only [joinLength, takeWhile_isBlank blankFront (.inr inked),
        takeWhile_isBlank blankFront (.inr stopsJoined), List.drop_left]
      rcases stopsBack with rfl | startsRest
      · obtain ⟨blanks, rest, cut, passed, noDigit⟩ := bars.exists_ink blankBack
        have none : wholeLength rest = 0 := by
          cases rest with
          | nil => rfl
          | cons c rest => simp [wholeLength, (noDigit c rfl).2]
        rw [cut] at passed
        have whole := takeWhile_isBlank blankBack (.inl rfl)
        rw [whole, List.append_nil, cut, passed, List.drop_left, List.drop_length, none]
        simp [wholeLength]
      · rw [List.append_assoc, takeWhile_isBlank blankBack (.inr startsRest),
          takeWhile_isBlank blankBack (.inr (startsRest.append tail)), List.drop_left,
          List.drop_left, bars.wholeLength_append]

theorem endsAfter_append (passed : Nat) (text : Text) :
    endsAfter passed (text ++ tail) = endsAfter passed text := by
  fun_induction endsAfter passed text with
  | case1 passed text join atEnd =>
      rw [endsAfter, dif_pos]
      rw [bars.joinLength_append]
      exact atEnd
  | case2 passed text join goesOn whole fraction ih =>
      have inJoin : join ≤ text.length := joinLength_le text
      have inWhole : whole ≤ text.length := by
        have bound := wholeLength_le (text.drop join)
        rw [List.length_drop] at bound
        omega
      have inFraction : whole + fraction ≤ text.length := by
        have bound := fractionLength_le (text.drop whole)
        rw [List.length_drop] at bound
        omega
      rw [@endsAfter_of_joins _ _ whole fraction,
        List.drop_append_of_le_length inFraction, ih]
      · rwa [bars.joinLength_append]
      · rw [bars.joinLength_append, List.drop_append_of_le_length inJoin, bars.wholeLength_append]
      · rw [List.drop_append_of_le_length inWhole, bars.fractionLength_append]

theorem bareEnds_append (text : Text) : bareEnds (text ++ tail) = bareEnds text := by
  have inWhole := wholeLength_le text
  have inFraction := fractionLength_le (text.drop (wholeLength text))
  rw [List.length_drop] at inFraction
  simp only [bareEnds, bars.wholeLength_append, List.drop_append_of_le_length inWhole,
    bars.fractionLength_append]
  rw [List.drop_append_of_le_length (by omega), bars.endsAfter_append]

theorem startsWord_append (text : Text) : startsWord (text ++ tail) = startsWord text := by
  cases text with
  | cons d rest => rfl
  | nil =>
      cases tail with
      | nil => rfl
      | cons c rest => exact (bars.head c rfl).1

end Bars

theorem le_of_mem_endsAfter (member : stop ∈ endsAfter passed text) :
    stop ≤ passed + text.length := by
  fun_induction endsAfter passed text with
  | case1 => contradiction
  | case2 passed text join goesOn whole fraction ih =>
      have inJoin : join ≤ text.length := joinLength_le text
      have inWhole := wholeLength_le (text.drop join)
      have inFraction : fraction ≤ (text.drop whole).length := fractionLength_le _
      rw [List.length_drop] at inWhole inFraction
      rcases List.mem_append.mp member with further | own
      · have behind := ih further
        rw [List.length_drop] at behind
        omega
      · split at own
        · obtain rfl := List.mem_singleton.mp own
          omega
        · rcases List.mem_cons.mp own with rfl | own
          · omega
          · obtain rfl := List.mem_singleton.mp own
            omega

theorem le_of_mem_bareEnds (member : stop ∈ bareEnds text) : stop ≤ text.length := by
  simp only [bareEnds] at member
  split at member
  · contradiction
  · have inWhole := wholeLength_le text
    have inFraction := fractionLength_le (text.drop (wholeLength text))
    have bound := le_of_mem_endsAfter member
    rw [List.length_drop] at inFraction bound
    omega

theorem bareLength_le (before : Option Char) (text : Text) :
    bareLength before text ≤ text.length := by
  unfold bareLength
  split
  · exact Nat.zero_le _
  · cases found : (bareEnds text).find? fun stop => !startsWord (text.drop stop) with
    | none => exact Nat.zero_le _
    | some stop => exact le_of_mem_bareEnds (List.mem_of_find?_eq_some found)

theorem Bars.bareLength_append (bars : Bars tail) (before : Option Char) (text : Text) :
    bareLength before (text ++ tail) = bareLength before text := by
  have sameEnds : ((bareEnds text).find? fun stop => !startsWord ((text ++ tail).drop stop)) =
      (bareEnds text).find? fun stop => !startsWord (text.drop stop) := by
    apply List.find?_congr
    intro stop member
    rw [List.drop_append_of_le_length (le_of_mem_bareEnds member), bars.startsWord_append]
  rw [bareLength, bareLength, bars.bareEnds_append, sameEnds]

/-- All that a bare expression asks of the character before it is that it ends no word. -/
theorem cutAfter_bare (same : before.any isWordChar = other.any isWordChar) (text : Text) :
    cutAfter Style.bare.rule before text = cutAfter Style.bare.rule other text := by
  cases text with
  | nil => rw [cutAfter, cutAfter]
  | cons c rest =>
      have taken : Style.bare.rule before (c :: rest) = Style.bare.rule other (c :: rest) := by
        simp only [Style.rule, bareLength, same]
      rw [cutAfter, cutAfter, taken]

theorem Bars.substitute_append (bars : Bars (c :: right)) (before : Option Char) (left : Text) :
    (substitute .bare (cutAfter Style.bare.rule before (left ++ c :: right))).text =
      (substitute .bare (cutAfter Style.bare.rule before left)).text ++
        c :: (sweep .bare right).text := by
  have sameRule : ∀ before left, Style.bare.rule before (left ++ c :: right) =
      Style.bare.rule before left := bars.bareLength_append
  fun_induction cutAfter Style.bare.rule before left with
  | case1 before =>
      have nothing : Style.bare.rule before (c :: right) = 0 :=
        (sameRule before []).trans (Nat.le_zero.mp (bareLength_le before []))
      have fresh : (some c).any isWordChar = none.any isWordChar := (bars.head c rfl).1
      rw [List.nil_append, cutAfter, nothing]
      dsimp only
      rw [substitute_push, cutAfter_bare fresh]
      rfl
  | case2 before d rest nothing ih =>
      have nothingHere : Style.bare.rule before (d :: (rest ++ c :: right)) = 0 :=
        (sameRule before (d :: rest)).trans nothing
      rw [List.cons_append, cutAfter, nothingHere]
      dsimp only
      rw [substitute_push, substitute_push, ih]
      rfl
  | case3 before d rest more some occurrence ih =>
      have someHere : Style.bare.rule before (d :: (rest ++ c :: right)) = more + 1 :=
        (sameRule before (d :: rest)).trans some
      have within : more ≤ rest.length := by
        have bound : Style.bare.rule before (d :: rest) ≤ (d :: rest).length :=
          bareLength_le before (d :: rest)
        rw [some, List.length_cons] at bound
        omega
      rw [List.cons_append, cutAfter, someHere]
      dsimp only
      rw [List.take_append_of_le_length within, List.drop_append_of_le_length within]
      simp only [occurrence] at ih ⊢
      simp only [substitute, ih]
      cases evaluate (Style.bare.expression (d :: rest.take more)) <;> simp

theorem Bars.sweep_append (bars : Bars (c :: right)) (left : Text) :
    (sweep .bare (left ++ c :: right)).text =
      (sweep .bare left).text ++ c :: (sweep .bare right).text :=
  bars.substitute_append none left

/-- The sweeps do nothing but sweep: the ones that are left out would keep the text. -/
theorem sweeps_text (style : Style) (limit : Nat) (text : Text) :
    (sweeps style limit text).text = (fun text => (sweep style text).text)^[limit] text := by
  induction limit generalizing text with
  | zero => rfl
  | succ limit ih =>
      rw [sweeps, Function.iterate_succ_apply]
      dsimp only
      split
      · rename_i nothing
        have kept : Function.IsFixedPt (fun text => (sweep style text).text) text :=
          sweep_text_of_replaced_nil (List.isEmpty_iff.mp nothing)
        rw [kept.eq]
        exact (kept.iterate limit).symm
      · exact ih _

/-- With more sweeps than needed the text is the same. -/
theorem sweeps_settle (enough : sweepLimit style text ≤ limit) :
    (sweeps style limit text).text = (settle style text).text := by
  obtain ⟨more, rfl⟩ := Nat.exists_eq_add_of_le enough
  have last := congrArg Reduction.text (sweep_settle style text)
  have kept : Function.IsFixedPt (fun text => (sweep style text).text) (settle style text).text :=
    last
  have settled := sweeps_text style (sweepLimit style text) text
  rw [sweeps_text, Nat.add_comm, Function.iterate_add_apply, ← settled]
  exact kept.iterate more

theorem sweepLimit_le (within : text.Sublist right) :
    sweepLimit style text ≤ sweepLimit style right := by
  cases style with
  | group => exact Nat.succ_le_succ (within.count_le '(')
  | bare => exact Nat.succ_le_succ within.length_le

/-- A sweep of the style leaves the middle alone and does the same on both sides of it as if
each stood on its own. -/
def Parts (style : Style) (middle : Text) : Prop :=
  ∀ left right, (sweep style (left ++ middle ++ right)).text =
    (sweep style left).text ++ middle ++ (sweep style right).text

namespace Parts

variable {middle : Text} (parts : Parts style middle)
include parts

theorem sweeps_append (limit : Nat) (left right : Text) :
    (sweeps style limit (left ++ middle ++ right)).text =
      (sweeps style limit left).text ++ middle ++ (sweeps style limit right).text := by
  simp only [sweeps_text]
  induction limit generalizing left right with
  | zero => rfl
  | succ limit ih => simp only [Function.iterate_succ_apply, parts left right, ih]

/-- One side may need more sweeps than the other: to sweep it further changes nothing. -/
theorem settle_append (left right : Text) : (settle style (left ++ middle ++ right)).text =
    (settle style left).text ++ middle ++ (settle style right).text := by
  have inLeft : left.Sublist (left ++ middle ++ right) :=
    (List.sublist_append_left left middle).trans (List.sublist_append_left _ right)
  have inRight : right.Sublist (left ++ middle ++ right) := List.sublist_append_right _ right
  rw [settle, parts.sweeps_append, sweeps_settle (sweepLimit_le inLeft),
    sweeps_settle (sweepLimit_le inRight)]

end Parts

theorem apart_of_isParenthesis (parenthesis : isParenthesis c = true) :
    isDigit c = false ∧ isBlank c = false ∧ isOperator c = false ∧ c ≠ '.' ∧
      isWordChar c = false := by
  rcases isParenthesis_iff.mp parenthesis with rfl | rfl <;> decide

theorem bars_parenthesis (parenthesis : isParenthesis c = true) (right : Text) :
    Bars (c :: right) := by
  obtain ⟨noDigit, inked, noOperator, noPoint, noWord⟩ := apart_of_isParenthesis parenthesis
  constructor
  · rintro d ⟨⟩
    exact ⟨noWord, noPoint⟩
  · rw [List.dropWhile_cons_of_neg (by simp [inked])]
    rintro d ⟨⟩
    exact ⟨noOperator, noDigit⟩

theorem parts_parenthesis (parenthesis : isParenthesis c = true) : Parts .bare [c] := by
  intro left right
  have swept := (bars_parenthesis parenthesis right).sweep_append left
  rwa [List.append_assoc, List.append_assoc]

theorem settle_parenthesis (parenthesis : isParenthesis c = true) (left right : Text) :
    (settle .bare (left ++ c :: right)).text =
      (settle .bare left).text ++ c :: (settle .bare right).text := by
  have settled := (parts_parenthesis parenthesis).settle_append left right
  rwa [List.append_assoc, List.append_assoc] at settled

theorem flat_settle (style : Style) (flat : ∀ c ∈ text, isParenthesis c = false) :
    ∀ c ∈ (settle style text).text, isParenthesis c = false := by
  intro c member
  rw [Bool.eq_false_iff]
  intro parenthesis
  have counted := @count_settle c style text parenthesis
  have some := List.count_pos_iff.mpr member
  rw [count_flat flat parenthesis] at counted
  omega

/-- The parentheses of a settled text are those of the text, each with its own text before it
and behind it. -/
theorem exists_parts (parenthesis : isParenthesis c = true)
    (settled : (settle .bare text).text = left ++ c :: right) :
    ∃ front back, text = front ++ c :: back ∧ (settle .bare front).text = left ∧
      (settle .bare back).text = right := by
  induction count : text.length using Nat.strongRecOn generalizing text left with
  | ind length ih =>
      subst count
      rcases exists_first isParenthesis text with flat | ⟨front, d, back, rfl, flat, first⟩
      · have none := flat_settle .bare flat c (by simp [settled])
        rw [parenthesis] at none
        contradiction
      · rw [settle_parenthesis first] at settled
        rcases List.append_eq_append_iff.mp settled with
          ⟨more, isLeft, behind⟩ | ⟨more, isFront, behind⟩
        · cases more with
          | nil =>
              obtain ⟨rfl, isRight⟩ := List.cons.inj behind
              exact ⟨front, back, rfl, by simpa using isLeft.symm, isRight⟩
          | cons e more =>
              obtain ⟨rfl, later⟩ := List.cons.inj behind
              have shorter : back.length < (front ++ d :: back).length := by
                rw [List.length_append, List.length_cons]
                omega
              obtain ⟨inner, rest, rfl, isMore, isRight⟩ := ih back.length shorter later rfl
              refine ⟨front ++ d :: inner, rest, by simp, ?_, isRight⟩
              rw [settle_parenthesis first, isMore, isLeft]
        · cases more with
          | nil =>
              obtain ⟨rfl, isRight⟩ := List.cons.inj behind
              exact ⟨front, back, rfl, by simpa using isFront, isRight.symm⟩
          | cons e more =>
              obtain ⟨rfl, -⟩ := List.cons.inj behind
              have none := flat_settle .bare flat c (by simp [isFront])
              rw [parenthesis] at none
              contradiction

end ProseTree.Expression
