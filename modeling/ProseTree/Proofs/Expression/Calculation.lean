import ProseTree.Proofs.Expression.BareReduction
import ProseTree.Proofs.Expression.Joined

namespace ProseTree.Expression

/-! Calculations: numbers with operators between them, as bare expressions have them.

Which of them is found at a place is said here without the search for it: the longest one
that no word character follows.  A calculation that is longer may be passed over for one that
is shorter, when a word goes on behind the longer one. -/

open Text

variable {text left right occurrence number run front back rest fraction taken : Text} {c : Char}
  {before : Option Char} {passed stop : Nat}

/-- A run of digits, with at least one. -/
structure Digits (run : Text) : Prop where
  nonempty : run ≠ []
  digit : ∀ c ∈ run, isDigit c = true

/-- Digits, and behind a point more digits or no point. -/
inductive IsNumber : Text → Prop where
  | whole {run : Text} (digits : Digits run) : IsNumber run
  | fraction {run fraction : Text} (digits : Digits run) (behind : Digits fraction) :
      IsNumber (run ++ '.' :: fraction)

/-- Operators with white space around them, each with a number behind it. -/
inductive Operations : Text → Prop where
  | none : Operations []
  | next {front back number rest : Text} {operator : Char} (blankFront : Blank front)
      (isOperator : isOperator operator = true) (blankBack : Blank back)
      (isNumber : IsNumber number) (further : Operations rest) :
      Operations (front ++ operator :: (back ++ (number ++ rest)))

/-- A number with operators and numbers behind it. -/
inductive Calculation : Text → Prop where
  | mk {number operations : Text} (isNumber : IsNumber number)
      (further : Operations operations) (some : operations ≠ []) :
      Calculation (number ++ operations)

theorem Digits.ne_zero (digits : Digits run) (rest : Text) : wholeLength (run ++ rest) ≠ 0 := by
  obtain ⟨c, run, rfl⟩ := List.exists_cons_of_ne_nil digits.nonempty
  exact wholeLength_ne_zero_iff.mpr ⟨c, run ++ rest, rfl, digits.digit c (by simp)⟩

theorem wholeLength_of_noWord (noWord : startsWord text = false) : wholeLength text = 0 := by
  by_contra some
  obtain ⟨digit, rest, rfl, isDigit⟩ := wholeLength_ne_zero_iff.mp some
  exact absurd ((isWordChar_of_isDigit isDigit).symm.trans noWord) Bool.noConfusion

theorem Digits.of_ne_zero (digits : ∀ c ∈ run, isDigit c = true) (stops : wholeLength rest = 0)
    (some : wholeLength (run ++ rest) ≠ 0) : Digits run := by
  refine ⟨fun empty => ?_, digits⟩
  rw [empty] at some
  exact some stops

theorem fractionLength_point (digits : Digits run) (stops : wholeLength rest = 0) :
    fractionLength ('.' :: (run ++ rest)) = run.length + 1 := by
  have positive := List.length_pos_iff.mpr digits.nonempty
  rw [fractionLength, wholeLength_append digits.digit stops, if_neg (by omega)]

theorem exists_fraction (some : fractionLength text ≠ 0) :
    ∃ run rest, text = '.' :: (run ++ rest) ∧ Digits run ∧ wholeLength rest = 0 := by
  unfold fractionLength at some
  split at some
  · rename_i behind
    split at some
    · contradiction
    · rename_i digits
      obtain ⟨run, rest, rfl, isRun, stops⟩ := exists_digits behind
      exact ⟨run, rest, rfl, .of_ne_zero isRun stops digits, stops⟩
  · contradiction

theorem fractionLength_eq_zero (noPoint : text.head? ≠ some '.') : fractionLength text = 0 := by
  unfold fractionLength
  split
  · simp at noPoint
  · rfl

theorem Operations.head (operations : Operations text) (some : text ≠ []) (rest : Text) :
    ∃ c, (text ++ rest).head? = Option.some c ∧ (isBlank c = true ∨ isOperator c = true) := by
  cases operations with
  | none => contradiction
  | @next front back number behind operator blankFront isOperator blankBack isNumber further =>
      cases front with
      | nil => exact ⟨operator, rfl, .inr isOperator⟩
      | cons c front => exact ⟨c, rfl, .inl (blankFront c (by simp))⟩

theorem Operations.wholeLength (operations : Operations text) (some : text ≠ []) (rest : Text) :
    wholeLength (text ++ rest) = 0 := by
  rw [wholeLength_eq_zero_iff]
  obtain ⟨c, isHead, blank | operator⟩ := operations.head some rest
  · rw [isHead]
    exact not_isDigit_of_isBlank blank
  · rw [isHead]
    exact not_isDigit_of_isNumeral_eq_false (not_isNumeral_of_isOperator operator)

theorem Operations.fractionLength (operations : Operations text) (some : text ≠ [])
    (rest : Text) : fractionLength (text ++ rest) = 0 := by
  apply fractionLength_eq_zero
  obtain ⟨c, isHead, kind⟩ := operations.head some rest
  rw [isHead]
  intro point
  rw [Option.some.inj point] at kind
  exact absurd kind (by decide)

theorem Operations.append (first : Operations front) (second : Operations back) :
    Operations (front ++ back) := by
  induction first with
  | none => exact second
  | next blankFront isOperator blankBack isNumber further ih =>
      simpa using Operations.next blankFront isOperator blankBack isNumber ih

variable {operator : Char}

theorem joinLength_digits (blankFront : Blank front) (isOperator : isOperator operator = true)
    (blankBack : Blank back) (digits : Digits run) (rest : Text) :
    joinLength (front ++ operator :: (back ++ (run ++ rest))) = front.length + 1 + back.length :=
  joinLength_operator blankFront isOperator blankBack (digits.ne_zero rest)

theorem endsAfter_digits (blankFront : Blank front) (isOperator : isOperator operator = true)
    (blankBack : Blank back) (digits : Digits run) (stops : wholeLength rest = 0)
    (passed : Nat) :
    endsAfter passed (front ++ operator :: (back ++ (run ++ rest))) =
      endsAfter (passed + (front ++ operator :: (back ++ run)).length + fractionLength rest)
          (rest.drop (fractionLength rest)) ++
        (if fractionLength rest = 0 then [passed + (front ++ operator :: (back ++ run)).length]
        else [passed + (front ++ operator :: (back ++ run)).length + fractionLength rest,
          passed + (front ++ operator :: (back ++ run)).length]) := by
  have joined := joinLength_digits blankFront isOperator blankBack digits rest
  have beyond : (front ++ operator :: (back ++ (run ++ rest))).drop
      (front.length + 1 + back.length) = run ++ rest := by
    simp [← List.drop_drop]
  have cut : front ++ operator :: (back ++ (run ++ rest)) =
      (front ++ operator :: (back ++ run)) ++ rest := by simp
  rw [@endsAfter_of_joins _ _ (front ++ operator :: (back ++ run)).length (fractionLength rest)]
  · rw [cut, List.drop_length_add_append]
  · omega
  · rw [joined, beyond, wholeLength_append digits.digit stops]
    simp only [List.length_append, List.length_cons]
    omega
  · rw [cut, List.drop_left]

theorem length_operation (front back number rest : Text) (operator : Char) :
    (front ++ operator :: (back ++ (number ++ rest))).length =
      (front ++ operator :: (back ++ number)).length + rest.length := by
  simp only [List.length_append, List.length_cons]
  omega

/-- An expression can end behind any number of it, and go on from there. -/
theorem endsAfter_number (blankFront : Blank front) (isOperator : isOperator operator = true)
    (blankBack : Blank back) (isNumber : IsNumber number) (stops : wholeLength rest = 0)
    (passed : Nat) :
    passed + (front ++ operator :: (back ++ number)).length ∈
        endsAfter passed (front ++ operator :: (back ++ (number ++ rest))) ∧
      (fractionLength rest = 0 →
        endsAfter (passed + (front ++ operator :: (back ++ number)).length) rest ⊆
          endsAfter passed (front ++ operator :: (back ++ (number ++ rest)))) := by
  cases isNumber with
  | whole digits =>
      rw [endsAfter_digits blankFront isOperator blankBack digits stops]
      constructor
      · apply List.mem_append_right
        split <;> simp
      · intro none
        rw [none]
        exact List.subset_append_left _ _
  | @fraction run fraction digits others =>
      have longer : passed + (front ++ operator :: (back ++ (run ++ '.' :: fraction))).length =
          passed + (front ++ operator :: (back ++ run)).length + (fraction.length + 1) := by
        rw [length_operation, Nat.add_assoc]
        rfl
      rw [List.append_assoc, List.cons_append,
        endsAfter_digits blankFront isOperator blankBack digits rfl, longer,
        fractionLength_point others stops, if_neg (Nat.succ_ne_zero _), List.drop_succ_cons,
        List.drop_left]
      exact ⟨by simp, fun _ => List.subset_append_left _ _⟩

theorem mem_endsAfter_of_operations (operations : Operations taken) (some : taken ≠ [])
    (stops : wholeLength right = 0) (passed : Nat) :
    passed + taken.length ∈ endsAfter passed (taken ++ right) := by
  induction operations generalizing passed with
  | none => contradiction
  | @next front back number rest operator blankFront isOperator blankBack isNumber further ih =>
      have cut : (front ++ operator :: (back ++ (number ++ rest))) ++ right =
          front ++ operator :: (back ++ (number ++ (rest ++ right))) := by simp
      rw [cut]
      by_cases atEnd : rest = []
      · subst atEnd
        rw [List.append_nil, List.nil_append]
        exact (endsAfter_number blankFront isOperator blankBack isNumber stops passed).1
      · have goesOn := (endsAfter_number blankFront isOperator blankBack isNumber
          (further.wholeLength atEnd right) passed).2 (further.fractionLength atEnd right)
        rw [length_operation, ← Nat.add_assoc]
        exact goesOn (ih atEnd _)

theorem exists_operations_of_mem_endsAfter (isEnd : stop ∈ endsAfter passed text) :
    ∃ taken right, text = taken ++ right ∧ stop = passed + taken.length ∧
      Operations taken ∧ taken ≠ [] ∧ wholeLength right = 0 := by
  -- The text gets shorter by one operator with its number, the fraction included if there is one.
  induction length : text.length using Nat.strong_induction_on generalizing text passed stop with
  | h size ih =>
      have joins := (exists_join_of_mem_endsAfter isEnd).1
      obtain ⟨front, operator, back, others, rfl, blankFront, isOperator, blankBack, some, -⟩ :=
        exists_operator_of_joinLength joins
      obtain ⟨run, rest, rfl, isRun, stops⟩ := exists_digits others
      have digits : Digits run := .of_ne_zero isRun stops some
      have first : ∀ {number taken}, IsNumber number → Operations taken →
          Operations (front ++ operator :: (back ++ (number ++ taken))) :=
        .next blankFront isOperator blankBack
      have shorter : rest.length < size := by
        simp only [← length, List.length_append, List.length_cons]
        omega
      rw [endsAfter_digits blankFront isOperator blankBack digits stops] at isEnd
      by_cases none : fractionLength rest = 0
      · rw [none, if_pos rfl] at isEnd
        rcases List.mem_append.mp isEnd with later | own
        · obtain ⟨taken, right, rfl, rfl, further, -, stops⟩ := ih rest.length shorter later rfl
          refine ⟨_, right, by simp, ?_, first (.whole digits) further, by simp, stops⟩
          rw [length_operation, Nat.add_zero, Nat.add_assoc]
        · obtain rfl := List.mem_singleton.mp own
          exact ⟨_, rest, by simp, by simp, first (.whole digits) .none, by simp, stops⟩
      · obtain ⟨fraction, rest, rfl, others, stopsBehind⟩ := exists_fraction none
        have number : IsNumber (run ++ '.' :: fraction) := .fraction digits others
        rw [fractionLength_point others stopsBehind, if_neg (Nat.succ_ne_zero _),
          List.drop_succ_cons, List.drop_left] at isEnd
        simp only [List.mem_append, List.mem_cons, List.not_mem_nil, or_false] at isEnd
        -- The end is behind further operators, behind the fraction or before its point.
        rcases isEnd with later | rfl | rfl
        · obtain ⟨taken, right, rfl, rfl, further, -, stops⟩ := ih rest.length (by
            simp only [List.length_append, List.length_cons] at shorter
            omega) later rfl
          refine ⟨_, right, by simp, ?_, first number further, by simp, stops⟩
          rw [length_operation, length_operation, List.length_cons]
          omega
        · refine ⟨_, rest, by simp, ?_, first number .none, by simp, stopsBehind⟩
          rw [List.append_nil, length_operation, List.length_cons, Nat.add_assoc]
        · exact ⟨_, '.' :: (fraction ++ rest), by simp, by simp, first (.whole digits) .none,
            by simp, rfl⟩

theorem mem_endsAfter_iff : stop ∈ endsAfter passed text ↔ ∃ taken right,
    text = taken ++ right ∧ stop = passed + taken.length ∧ Operations taken ∧ taken ≠ [] ∧
      wholeLength right = 0 := by
  refine ⟨exists_operations_of_mem_endsAfter, fun found => ?_⟩
  obtain ⟨taken, right, rfl, rfl, operations, some, stops⟩ := found
  exact mem_endsAfter_of_operations operations some stops passed

theorem bareEnds_digits (digits : Digits run) (stops : wholeLength rest = 0) :
    bareEnds (run ++ rest) =
      endsAfter (run.length + fractionLength rest) (rest.drop (fractionLength rest)) := by
  have nonempty := List.length_pos_iff.mpr digits.nonempty
  simp only [bareEnds, wholeLength_append digits.digit stops, List.drop_left,
    List.drop_length_add_append]
  rw [if_neg (by omega)]

theorem bareEnds_number (isNumber : IsNumber number) (operations : Operations rest)
    (some : rest ≠ []) (right : Text) :
    bareEnds (number ++ (rest ++ right)) = endsAfter number.length (rest ++ right) := by
  cases isNumber with
  | whole digits =>
      rw [bareEnds_digits digits (operations.wholeLength some right),
        operations.fractionLength some right]
      rfl
  | @fraction run fraction digits behind =>
      rw [List.append_assoc, List.cons_append, bareEnds_digits digits rfl,
        fractionLength_point behind (operations.wholeLength some right), List.drop_succ_cons,
        List.drop_left, List.length_append, List.length_cons]

/-- An expression can end behind every calculation whose last number does not go on with more
digits. -/
theorem mem_bareEnds_iff : stop ∈ bareEnds text ↔ ∃ taken right,
    text = taken ++ right ∧ stop = taken.length ∧ Calculation taken ∧ wholeLength right = 0 := by
  constructor
  · intro isEnd
    obtain ⟨run, rest, rfl, isRun, stops⟩ := exists_digits text
    have digits : Digits run := .of_ne_zero isRun stops (upToDigit_of_mem_bareEnds isEnd).1
    rw [bareEnds_digits digits stops] at isEnd
    obtain ⟨taken, right, behind, rfl, operations, some, stopsBehind⟩ := mem_endsAfter_iff.mp isEnd
    by_cases none : fractionLength rest = 0
    · rw [none] at behind ⊢
      obtain rfl : rest = taken ++ right := behind
      have calculation : Calculation (run ++ taken) := .mk (.whole digits) operations some
      exact ⟨run ++ taken, right, by simp, by simp, calculation, stopsBehind⟩
    · obtain ⟨fraction, rest, rfl, others, stops⟩ := exists_fraction none
      rw [fractionLength_point others stops] at behind ⊢
      rw [List.drop_succ_cons, List.drop_left] at behind
      subst behind
      refine ⟨run ++ '.' :: fraction ++ taken, right, by simp, ?_,
        .mk (.fraction digits others) operations some, stopsBehind⟩
      simp only [List.length_append, List.length_cons]
  · intro found
    obtain ⟨taken, right, rfl, rfl, calculation, stops⟩ := found
    obtain ⟨isNumber, operations, some⟩ := calculation
    rename_i number operations
    rw [List.append_assoc, bareEnds_number isNumber ‹_› some, List.length_append]
    exact mem_endsAfter_of_operations ‹_› some stops number.length

theorem pairwise_endsAfter (passed : Nat) (text : Text) :
    (endsAfter passed text).Pairwise (· > ·) := by
  fun_induction endsAfter passed text with
  | case1 => exact .nil
  | case2 passed text join goesOn whole fraction ih =>
      refine List.pairwise_append.mpr ⟨ih, ?_, ?_⟩
      · split
        · exact List.pairwise_singleton _ _
        · simp only [List.pairwise_pair]
          omega
      · intro further isFurther own isOwn
        have behind := (exists_join_of_mem_endsAfter isFurther).2
        split at isOwn
        · obtain rfl := List.mem_singleton.mp isOwn
          omega
        · simp only [List.mem_cons, List.not_mem_nil, or_false] at isOwn
          omega

theorem pairwise_bareEnds (text : Text) : (bareEnds text).Pairwise (· > ·) := by
  simp only [bareEnds]
  split
  · exact .nil
  · exact pairwise_endsAfter _ _

/-- The first that is found from the largest down is the largest. -/
theorem find?_descending {ends : List Nat} {p : Nat → Bool} (descending : ends.Pairwise (· > ·)) :
    ends.find? p = some stop ↔
      stop ∈ ends ∧ p stop = true ∧ ∀ other ∈ ends, p other = true → other ≤ stop := by
  induction ends with
  | nil => simp
  | cons first rest ih =>
      obtain ⟨below, others⟩ := List.pairwise_cons.mp descending
      cases here : p first with
      | true =>
          rw [List.find?_cons_of_pos here, Option.some_inj]
          constructor
          · intro same
            subst same
            refine ⟨by simp, here, fun other member _ => ?_⟩
            rcases List.mem_cons.mp member with rfl | later
            · exact Nat.le_refl _
            · exact Nat.le_of_lt (below other later)
          · intro found
            obtain ⟨member, -, largest⟩ := found
            have least := largest first (by simp) here
            rcases List.mem_cons.mp member with rfl | later
            · rfl
            · exact absurd (below stop later) (Nat.not_lt.mpr least)
      | false =>
          rw [List.find?_cons_of_neg (by simp [here]), ih others]
          simp only [List.mem_cons, forall_eq_or_imp, here, Bool.false_eq_true, false_implies,
            true_and]
          constructor
          · intro found
            exact ⟨.inr found.1, found.2⟩
          · intro found
            obtain ⟨rfl | member, accepted⟩ := found
            · rw [here] at accepted
              exact absurd accepted.1 Bool.false_ne_true
            · exact ⟨member, accepted⟩

/-- The occurrence is the longest calculation at its place that no word character follows, and it
does not begin inside a word. -/
structure IsLongest (left occurrence right : Text) : Prop where
  begins : left.getLast?.any isWordChar = false
  calculation : Calculation occurrence
  noWord : startsWord right = false
  longest : ∀ longer rest, occurrence ++ right = longer ++ rest → Calculation longer →
    startsWord rest = false → longer.length ≤ occurrence.length

theorem Calculation.ne_nil (calculation : Calculation text) : text ≠ [] := by
  obtain ⟨-, -, some⟩ := calculation
  exact List.append_ne_nil_of_right_ne_nil _ some

theorem Calculation.mem_bareEnds (calculation : Calculation taken)
    (noWord : startsWord right = false) : taken.length ∈ bareEnds (taken ++ right) :=
  mem_bareEnds_iff.mpr ⟨taken, right, rfl, rfl, calculation, wholeLength_of_noWord noWord⟩

theorem takenBy_bare_iff :
    TakenBy Style.bare.rule left occurrence right ↔ IsLongest left occurrence right := by
  have descending := pairwise_bareEnds (occurrence ++ right)
  constructor
  · intro takenBy
    obtain ⟨nonempty, taken⟩ := takenBy
    simp only [Style.rule, bareLength] at taken
    split at taken
    · exact absurd taken.symm nonempty
    · rename_i begins
      cases found : (bareEnds (occurrence ++ right)).find?
          fun stop => !startsWord ((occurrence ++ right).drop stop) with
      | none =>
          rw [found] at taken
          exact absurd taken.symm nonempty
      | some stop =>
          rw [found, Option.getD_some] at taken
          obtain ⟨isEnd, noWord, largest⟩ := (find?_descending descending).mp found
          obtain ⟨own, rest, cut, rfl, calculation, -⟩ := mem_bareEnds_iff.mp isEnd
          rw [cut, List.take_left] at taken
          subst taken
          obtain rfl := List.append_cancel_left cut
          rw [List.drop_left] at noWord
          refine ⟨by simpa using begins, calculation, by simpa using noWord, ?_⟩
          -- A longer calculation with no word behind it is an end as well, and the search comes to
          -- it first.
          intro longer rest cut further noWord
          rw [cut] at largest
          exact largest longer.length (further.mem_bareEnds noWord) (by simp [noWord])
  · intro isLongest
    obtain ⟨begins, calculation, noWord, longest⟩ := isLongest
    refine ⟨calculation.ne_nil, ?_⟩
    have found : (bareEnds (occurrence ++ right)).find?
        (fun stop => !startsWord ((occurrence ++ right).drop stop)) = some occurrence.length := by
      refine (find?_descending descending).mpr
        ⟨calculation.mem_bareEnds noWord, by simp [noWord], ?_⟩
      intro stop isEnd free
      obtain ⟨longer, rest, cut, rfl, further, -⟩ := mem_bareEnds_iff.mp isEnd
      rw [cut, List.drop_left] at free
      exact longest longer rest cut further (by simpa using free)
    simp only [Style.rule, bareLength, begins, Bool.false_eq_true, if_false, found,
      Option.getD_some, List.take_left]

/-- Where a calculation stands apart from words, one is found. -/
theorem bareLength_ne_zero (begins : before.any isWordChar = false)
    (calculation : Calculation taken) (noWord : startsWord right = false) :
    bareLength before (taken ++ right) ≠ 0 := by
  have isEnd := calculation.mem_bareEnds noWord
  rw [bareLength, if_neg (by simp [begins])]
  cases found : (bareEnds (taken ++ right)).find?
      fun stop => !startsWord ((taken ++ right).drop stop) with
  | none =>
      have nowhere := List.find?_eq_none.mp found taken.length isEnd
      rw [List.drop_left, noWord] at nowhere
      exact absurd rfl nowhere
  | some stop =>
      obtain ⟨own, -, -, rfl, further, -⟩ := mem_bareEnds_iff.mp (List.mem_of_find?_eq_some found)
      exact Nat.ne_of_gt (List.length_pos_iff.mpr further.ne_nil)

end ProseTree.Expression
