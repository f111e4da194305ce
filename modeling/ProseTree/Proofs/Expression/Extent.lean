import ProseTree.Proofs.Expression.Calculation
import ProseTree.Proofs.Expression.Settling

namespace ProseTree.Expression

/-! How far the bare expressions reach that a sweep replaces.

A number or an operation next to such an expression is left out of it in two cases only: a word
goes on behind it, or the number would get a second point. -/

open Text

variable {text front back rest run fraction left occurrence right : Text} {operator : Char}

/-- The text ends with the fraction of a number. -/
def EndsInFraction (text : Text) : Prop :=
  ∃ front digit fraction, text = front ++ digit :: '.' :: fraction ∧ isDigit digit = true ∧
    Digits fraction

/-- The text starts with a number that has a fraction. -/
def StartsInFraction (text : Text) : Prop :=
  ∃ whole fraction rest, text = whole ++ '.' :: (fraction ++ rest) ∧ Digits whole ∧ Digits fraction

theorem Digits.exists_last (digits : Digits run) :
    ∃ init last, run = init ++ [last] ∧ isDigit last = true := by
  obtain ⟨init, last, rfl⟩ := (List.eq_nil_or_concat run).resolve_left digits.nonempty
  rw [List.concat_eq_append] at digits ⊢
  exact ⟨init, last, rfl, digits.digit last (by simp)⟩

theorem EndsInFraction.append (ends : EndsInFraction back) (front : Text) :
    EndsInFraction (front ++ back) := by
  obtain ⟨init, digit, fraction, rfl, isDigit, digits⟩ := ends
  exact ⟨front ++ init, digit, fraction, by simp, isDigit, digits⟩

theorem endsInFraction_number (digits : Digits run) (behind : Digits fraction) :
    EndsInFraction (run ++ '.' :: fraction) := by
  obtain ⟨init, last, rfl, isDigit⟩ := digits.exists_last
  exact ⟨init, last, fraction, by simp, isDigit, behind⟩

theorem Operations.append_fraction (operations : Operations text) (some : text ≠ [])
    (digits : Digits run) : EndsInFraction text ∨ Operations (text ++ '.' :: run) := by
  induction operations with
  | none => contradiction
  | @next front back number rest operator blankFront isOperator blankBack isNumber further ih =>
      by_cases atEnd : rest = []
      · subst atEnd
        cases isNumber with
        | whole whole =>
            refine .inr ?_
            simpa using next blankFront isOperator blankBack (.fraction whole digits) .none
        | fraction whole others =>
            have ends := (endsInFraction_number whole others).append (front ++ operator :: back)
            exact .inl (by simpa using ends)
      · refine (ih atEnd).imp (fun ends => ?_) fun longer => ?_
        · simpa using ends.append (front ++ operator :: (back ++ number))
        · simpa using next blankFront isOperator blankBack isNumber longer

theorem Calculation.append_fraction (calculation : Calculation text) (digits : Digits run) :
    EndsInFraction text ∨ Calculation (text ++ '.' :: run) := by
  obtain ⟨isNumber, operations, some⟩ := calculation
  rename_i number operations
  refine (Operations.append_fraction ‹_› some digits).imp (fun ends => ends.append number) ?_
  intro longer
  rw [List.append_assoc]
  exact .mk isNumber longer (List.append_ne_nil_of_left_ne_nil some _)

theorem Calculation.append_operation (calculation : Calculation text) (blankFront : Blank front)
    (isOperator : isOperator operator = true) (blankBack : Blank back) (digits : Digits run) :
    Calculation (text ++ (front ++ operator :: (back ++ run))) := by
  obtain ⟨isNumber, operations, some⟩ := calculation
  have last := Operations.next blankFront isOperator blankBack (.whole digits) .none
  rw [List.append_nil] at last
  rw [List.append_assoc]
  exact .mk isNumber (Operations.append ‹_› last) (List.append_ne_nil_of_left_ne_nil some _)

theorem IsLongest.point_behind (isLongest : IsLongest left occurrence ('.' :: (run ++ rest)))
    (digits : Digits run) : startsWord rest = true ∨ EndsInFraction occurrence := by
  rcases isLongest.calculation.append_fraction digits with ends | longer
  · exact .inr ends
  · refine .inl (Bool.of_not_eq_false fun noWord => ?_)
    have bound := isLongest.longest _ rest (by simp) longer noWord
    simp only [List.length_append, List.length_cons] at bound
    omega

theorem IsLongest.operator_behind
    (isLongest : IsLongest left occurrence (front ++ operator :: (back ++ (run ++ rest))))
    (blankFront : Blank front) (isOperator : isOperator operator = true) (blankBack : Blank back)
    (digits : Digits run) :
    startsWord rest = true := by
  refine Bool.of_not_eq_false fun noWord => ?_
  have longer := isLongest.calculation.append_operation blankFront isOperator blankBack digits
  have bound := isLongest.longest _ rest (by simp) longer noWord
  simp only [List.length_append, List.length_cons] at bound
  omega

theorem eq_of_digits_behind (digits : Digits run) (others : Digits fraction)
    (stops : front.getLast?.any isDigit = false) (cut : front ++ run = left ++ '.' :: fraction) :
    front = left ++ ['.'] := by
  rw [← List.singleton_append, ← List.append_assoc] at cut
  rcases List.append_eq_append_iff.mp cut with ⟨more, whole, rfl⟩ | ⟨more, rfl, rfl⟩
  · rcases List.eq_nil_or_concat more with rfl | ⟨init, last, rfl⟩
    · simpa using whole.symm
    · rw [List.concat_eq_append, ← List.append_assoc] at whole
      obtain ⟨-, same⟩ := List.append_inj' whole rfl
      obtain rfl := List.singleton_inj.mp same
      have digit := digits.digit '.' (by simp)
      exact absurd digit (by decide)
  · rcases List.eq_nil_or_concat more with rfl | ⟨init, last, rfl⟩
    · exact List.append_nil _
    · rw [List.concat_eq_append, ← List.append_assoc, List.getLast?_concat] at stops
      have digit := others.digit last (by simp)
      exact absurd (digit.symm.trans stops) Bool.noConfusion

theorem Operations.startsWord (operations : Operations text) (some : text ≠ []) (rest : Text) :
    startsWord (text ++ rest) = false := by
  obtain ⟨c, isHead, kind⟩ := operations.head some rest
  rw [startsWord_eq, isHead, Option.any_some]
  rcases kind with blank | isOperator
  · exact not_isWordChar_of_isBlank blank
  · rcases isOperator_cases isOperator with rfl | rfl | rfl | rfl <;> decide

theorem Calculation.first_cases (calculation : Calculation text) :
    StartsInFraction text ∨ ∃ whole operations, text = whole ++ operations ∧ Digits whole ∧
      Operations operations ∧ operations ≠ [] := by
  obtain ⟨isNumber, further, some⟩ := calculation
  rename_i number operations
  cases isNumber with
  | whole digits => exact .inr ⟨number, operations, rfl, digits, further, some⟩
  | @fraction whole fraction digits behind =>
      exact .inl ⟨whole, fraction, operations, by simp, digits, behind⟩

/-- When nothing is found at a number before a point, the number behind the point has a fraction of
its own. -/
theorem Calculation.startsInFraction (calculation : Calculation occurrence) (digits : Digits run)
    {before : Option Char} (begins : before.any isWordChar = false)
    (noWord : startsWord right = false)
    (nothing : bareLength before (run ++ '.' :: occurrence ++ right) = 0) :
    StartsInFraction occurrence := by
  refine calculation.first_cases.resolve_right fun wholeFirst => ?_
  obtain ⟨whole, operations, rfl, others, further, some⟩ := wholeFirst
  have joined : Calculation (run ++ '.' :: whole ++ operations) :=
    .mk (.fraction digits others) further some
  rw [List.append_assoc, List.cons_append] at joined
  exact bareLength_ne_zero begins joined noWord nothing

/-- When one expression ends before a point and another begins behind it, the number on one of
the two sides has a fraction of its own. -/
theorem IsLongest.fraction_of_point
    (earlier : IsLongest left front ('.' :: (occurrence ++ right)))
    (calculation : Calculation occurrence) :
    EndsInFraction front ∨ StartsInFraction occurrence := by
  rcases calculation.first_cases with starts | ⟨whole, operations, rfl, digits, further, some⟩
  · exact .inr starts
  · rw [List.append_assoc] at earlier
    refine .inl ((earlier.point_behind digits).resolve_left ?_)
    rw [further.startsWord some]
    exact Bool.noConfusion

/-- A number before a point lies in the gap, or it ends the occurrence before the gap. -/
theorem exists_gap_of_point {passed gap : Text}
    (scanned : Scanned Style.bare.rule passed gap text) (digits : Digits run)
    (cut : passed ++ gap = front ++ run ++ ['.']) :
    (∃ more, front = passed ++ more ∧ gap = more ++ (run ++ ['.'])) ∨
      ∃ left earlier, front ++ run = left ++ earlier ∧
        TakenBy Style.bare.rule left earlier ('.' :: text) := by
  have occurrence : passed ≠ [] → ∃ left earlier, passed = left ++ earlier ∧
      TakenBy Style.bare.rule left earlier (gap ++ text) := scanned.behind.resolve_left
  rcases List.eq_nil_or_concat gap with rfl | ⟨init, last, rfl⟩
  · -- An occurrence ends with a digit, so the point is not the end of one.
    rw [List.append_nil] at cut
    obtain ⟨left, earlier, split, taken⟩ := occurrence (by simp [cut])
    obtain ⟨-, digit, isLast, isDigit⟩ := (isBare_of_takenBy taken).upToDigit
    have same := congrArg List.getLast? (split.symm.trans cut)
    rw [List.getLast?_append, isLast, List.getLast?_concat] at same
    obtain rfl : digit = '.' := by simpa using same
    contradiction
  · rw [List.concat_eq_append, ← List.append_assoc] at cut
    obtain ⟨whole, same⟩ := List.append_inj' cut rfl
    obtain rfl := List.singleton_inj.mp same
    rw [List.concat_eq_append] at occurrence ⊢
    rcases List.append_eq_append_iff.mp whole with ⟨more, rfl, rfl⟩ | ⟨more, rfl, rfl⟩
    · exact .inl ⟨more, rfl, by simp⟩
    · cases more with
      | nil => exact .inl ⟨[], by simp, by simp⟩
      | cons d more =>
          obtain ⟨left, earlier, split, taken⟩ := occurrence (by simp)
          cases init with
          | nil => exact .inr ⟨left, earlier, by simpa using split, taken⟩
          | cons e init =>
              -- No digit follows an occurrence, so it ends where the number does.
              have noWord := (isBare_of_takenBy taken).noWord
              have digit := digits.digit e (by simp)
              exact absurd ((isWordChar_of_isDigit digit).symm.trans noWord) Bool.noConfusion

theorem point_before
    (comes : ComesTo Style.bare.rule (front ++ run ++ ['.']) occurrence right)
    (digits : Digits run) (stops : front.getLast?.any isDigit = false) :
    front.getLast?.any isWordChar = true ∨
      (∃ init digit, front = init ++ [digit, '.'] ∧ isDigit digit = true) ∨
      StartsInFraction occurrence := by
  obtain ⟨taken, passed, gap, cut, scanned⟩ := comes
  have isLongest := takenBy_bare_iff.mp taken
  rcases exists_gap_of_point scanned digits cut.symm with
    ⟨more, rfl, rfl⟩ | ⟨left, earlier, split, earlierTaken⟩
  · refine or_iff_not_imp_left.mpr fun begins => .inr ?_
    have nothing := scanned.nothing more (run ++ ['.']) rfl (by simp)
    apply isLongest.calculation.startsInFraction digits (by simpa using begins) isLongest.noWord
    simpa [Style.rule] using nothing
  · refine .inr ?_
    rcases (takenBy_bare_iff.mp earlierTaken).fraction_of_point isLongest.calculation with
      ⟨init, digit, fraction, rfl, isDigit, behind⟩ | starts
    · refine .inl ⟨left ++ init, digit, ?_, isDigit⟩
      have before : front = left ++ init ++ [digit] ++ ['.'] :=
        eq_of_digits_behind digits behind stops (by simpa using split)
      simpa using before
    · exact .inr starts

/-- The sites of a style in a text whose expressions a sweep replaces. -/
def Style.replacedSites (style : Style) (text : Text) : List Site :=
  ((text.cut style.rule).sitesFrom []).filter fun site =>
    (evaluate (style.expression site.occurrence)).isOk

theorem replaced_sweep (style : Style) (text : Text) :
    (sweep style text).replaced.map Replacement.expression =
      (style.replacedSites text).map fun site => style.expression site.occurrence := by
  rw [sweep, Style.replacedSites]
  generalize text.cut style.rule = segments
  generalize ([] : Text) = left
  induction segments generalizing left with
  | last gap => rfl
  | found gap occurrence rest ih =>
      rw [substitute, Segments.sitesFrom]
      cases evaluated : evaluate (style.expression occurrence) with
      | ok value =>
          rw [List.filter_cons_of_pos (by rw [evaluated]; rfl), List.map_cons, List.map_cons, ← ih]
      | error error =>
          rw [List.filter_cons_of_neg (by rw [evaluated]; exact Bool.false_ne_true), ← ih]

theorem sweptTimes_of_replaced_nil {style : Style} (nothing : (sweep style text).replaced = [])
    (count : Nat) : sweptTimes style count text = text := by
  induction count with
  | zero => rfl
  | succ count ih => rw [sweptTimes, sweep_text_of_replaced_nil nothing, ih]

/-- What all sweeps of a style replace is what each of them replaces in the text it finds. -/
theorem replaced_sweeps (style : Style) (limit : Nat) (text : Text) :
    (sweeps style limit text).replaced.map Replacement.expression =
      (List.range limit).flatMap fun count =>
        (style.replacedSites (sweptTimes style count text)).map fun site =>
          style.expression site.occurrence := by
  induction limit generalizing text with
  | zero => rfl
  | succ limit ih =>
      rw [sweeps]
      dsimp only
      split
      · rename_i empty
        have nothing := List.isEmpty_iff.mp empty
        have none := replaced_sweep style text
        rw [nothing, List.map_nil] at none
        rw [nothing, List.map_nil]
        refine (List.flatMap_eq_nil_iff.mpr fun count _ => ?_).symm
        rw [sweptTimes_of_replaced_nil nothing, ← none]
      · rw [List.map_append, replaced_sweep, ih, List.range_succ_eq_map, List.flatMap_cons,
          List.flatMap_map]
        rfl

/-- What keeps an expression from reaching further, where digits and a point or an operator stand
next to it. -/
structure Bounded (site : Site) : Prop where
  /-- Digits before a point are part of a word, or there is one more point: before those digits,
  or behind the first digits of the expression. -/
  numberBefore : ∀ front run, site.left = front ++ run ++ ['.'] → Digits run →
    front.getLast?.any isDigit = false →
    front.getLast?.any isWordChar = true ∨
      (∃ init digit, front = init ++ [digit, '.'] ∧ isDigit digit = true) ∨
      StartsInFraction site.occurrence
  /-- Digits behind a point are part of a word, or the last number of the expression has a point
  already. -/
  fractionBehind : ∀ run rest, site.right = '.' :: (run ++ rest) → Digits run →
    startsWord rest = true ∨ EndsInFraction site.occurrence
  /-- The number behind an operator is part of a word. -/
  operationBehind : ∀ front operator back run rest,
    site.right = front ++ operator :: (back ++ (run ++ rest)) → Blank front →
    isOperator operator = true → Blank back → Digits run → startsWord rest = true

theorem bounded_of_comesTo (comes : ComesTo Style.bare.rule left occurrence right) :
    Bounded ⟨left, occurrence, right⟩ where
  numberBefore := by
    intro front run whole digits stops
    subst whole
    exact point_before comes digits stops
  fractionBehind := by
    intro run rest whole digits
    subst whole
    exact (takenBy_bare_iff.mp comes.1).point_behind digits
  operationBehind := by
    intro front operator back run rest whole blankFront isOperator blankBack digits
    subst whole
    exact (takenBy_bare_iff.mp comes.1).operator_behind blankFront isOperator blankBack digits

/-- Every bare expression that is replaced, in whichever sweep, is the longest calculation at its
place that no word goes on behind, and reaches as far as words and second points let it. -/
theorem replaced_bounded (text : Text) :
    (∀ limit, (sweeps .bare limit text).replaced.map Replacement.expression =
      (List.range limit).flatMap fun count =>
        (Style.bare.replacedSites (sweptTimes .bare count text)).map Site.occurrence) ∧
    ∀ count, ∀ site ∈ Style.bare.replacedSites (sweptTimes .bare count text),
      site.left ++ site.occurrence ++ site.right = sweptTimes .bare count text ∧
      IsLongest site.left site.occurrence site.right ∧ Bounded site := by
  refine ⟨fun limit => replaced_sweeps .bare limit text, fun count site member => ?_⟩
  have isSite := List.mem_of_mem_filter member
  have comes := comesTo_of_mem_cut isSite
  refine ⟨?_, takenBy_bare_iff.mp comes.1, bounded_of_comesTo comes⟩
  rw [Segments.join_of_mem_sitesFrom isSite, join_cut, List.nil_append]

example : (sweep .bare ['1', '+', '2', '*', '3', 'x']).text = ['3', '.', '0', '*', '3', 'x'] := by
  decide +kernel

/-- A word takes the digits before the point, another one the digits behind the second operator. -/
theorem replaced_bounded_words :
    let text : Text := ['v', '1', '.', '2', '-', '3', '*', '4', 'y']
    let site : Site := ⟨['v', '1', '.'], ['2', '-', '3'], ['*', '4', 'y']⟩
    Style.bare.replacedSites text = [site] ∧ Bounded site := by
  intro text site
  have sites : Style.bare.replacedSites text = [site] := by decide +kernel
  refine ⟨sites, ((replaced_bounded text).2 0 site ?_).2.2⟩
  rw [sweptTimes, sites]
  exact List.mem_singleton_self site

/-- The expression could be longer on neither side: no point that stands next to it has a digit
beyond, and no operator behind it has one. -/
structure Maximal (site : Site) : Prop where
  numberBefore : ∀ front digit, site.left = front ++ [digit, '.'] → isDigit digit = false
  fractionBehind : ∀ digit rest, site.right = '.' :: digit :: rest → isDigit digit = false
  operationBehind : ∀ front operator digit rest, site.right = front ++ operator :: digit :: rest →
    Blank front → isOperator operator = true → isDigit digit = false

/-- A number with two points is cut behind the first one. -/
theorem replaced_maximal_points : ¬∀ text count,
    ∀ site ∈ Style.bare.replacedSites (sweptTimes .bare count text), Maximal site := by
  intro always
  have sites : Style.bare.replacedSites ['1', '.', '2', '.', '3', '+', '4'] =
      [⟨['1', '.'], ['2', '.', '3', '+', '4'], []⟩] := by decide +kernel
  have maximal := always ['1', '.', '2', '.', '3', '+', '4'] 0
  rw [sweptTimes, sites] at maximal
  have here := maximal _ (List.mem_singleton_self _)
  exact absurd (here.numberBefore [] '1' rfl) (by decide)

end ProseTree.Expression
