import ProseTree.Proofs.Expression.BareReduction
import ProseTree.Proofs.Expression.GroupReduction
import ProseTree.Proofs.Expression.Joined

namespace ProseTree.Expression

/-! Sweeping for bare expressions comes to an end before the sweeps are used up.

What every replacement makes smaller is the number of numbers and of operators that stand
behind a digit.  Two numbers and the operator between them are there in a bare expression;
a value is one number, and the sign in front of it stands behind a digit only where white
space kept that digit out of the expression. -/

open Text

variable {text left other front back right occurrence run : Text} {c : Char} {value : Binary64}
  {segments : Segments} {style : Style} {limit stop : Nat}

theorem replaced_eq_nil_iff : (substitute style segments).replaced = [] ↔
    ∀ occurrence ∈ segments.occurrences, ∀ value,
      evaluate (style.expression occurrence) ≠ .ok value := by
  induction segments with
  | last gap => simp [substitute, Segments.occurrences]
  | found gap occurrence rest ih =>
      rw [Segments.occurrences, List.forall_mem_cons, ← ih, substitute]
      cases evaluate (style.expression occurrence) with
      | ok value => simp
      | error error => simp

/-- The expressions of a style in a text, from left to right, each with what it comes to. -/
def outcomes (style : Style) (text : Text) : List (Text × Except EvalError Binary64) :=
  (text.cut style.rule).occurrences.map fun occurrence =>
    (style.expression occurrence, evaluate (style.expression occurrence))

def Skipped.outcome (skipped : Skipped) : Text × Except EvalError Binary64 :=
  (skipped.expression, .error skipped.error)

theorem substitute_of_replaced_nil (nothing : (substitute style segments).replaced = []) :
    (substitute style segments).text = segments.join ∧
    (substitute style segments).skipped.map Skipped.outcome =
      segments.occurrences.map fun occurrence =>
        (style.expression occurrence, evaluate (style.expression occurrence)) := by
  induction segments with
  | last gap => exact ⟨rfl, rfl⟩
  | found gap occurrence rest ih =>
      rw [substitute] at nothing ⊢
      cases evaluated : evaluate (style.expression occurrence) with
      | ok value =>
          rw [evaluated] at nothing
          contradiction
      | error error =>
          rw [evaluated] at nothing
          obtain ⟨kept, later⟩ := ih nothing
          refine ⟨by simp only [kept, Segments.join], ?_⟩
          simp only [List.map_cons, Segments.occurrences, later, evaluated, Skipped.outcome]

theorem skipped_of_replaced_nil (nothing : (sweep style text).replaced = []) :
    (sweep style text).skipped.map Skipped.expression =
      (text.cut style.rule).occurrences.map style.expression := by
  have expressions := congrArg (List.map Prod.fst) (substitute_of_replaced_nil nothing).2
  rwa [List.map_map, List.map_map] at expressions

theorem sweep_text_of_replaced_nil (nothing : (sweep style text).replaced = []) :
    (sweep style text).text = text :=
  (substitute_of_replaced_nil nothing).1.trans (join_cut style.rule text)

/-- Whether the last ink is a digit. -/
def followsDigit (left : Text) : Bool := (left.rdropWhile isBlank).getLast?.any isDigit

/-- What a character adds to the load of the text on its left. -/
def charge (left : Text) (c : Char) : Nat :=
  if isDigit c then (if endsNumeral left then 0 else 1)
  else if isOperator c ∧ followsDigit left then 1
  else 0

/-- The load of a text that goes on from the text on its left: its numbers, and its operators behind
digits. -/
def load (left : Text) : Text → Nat
  | [] => 0
  | c :: rest => charge left c + load (left ++ [c]) rest

/-- Two texts that the same text goes on from with the same load. -/
structure SameEdge (left other : Text) : Prop where
  numeral : endsNumeral left = endsNumeral other
  digit : followsDigit left = followsDigit other

theorem followsDigit_append_singleton (left : Text) (c : Char) :
    followsDigit (left ++ [c]) = if isBlank c then followsDigit left else isDigit c := by
  cases blank : isBlank c with
  | true => simp [followsDigit, blank]
  | false => simp [followsDigit, blank]

theorem SameEdge.append_singleton (same : SameEdge left other) (c : Char) :
    SameEdge (left ++ [c]) (other ++ [c]) := by
  constructor
  · rw [endsNumeral_append_singleton, endsNumeral_append_singleton]
  · rw [followsDigit_append_singleton, followsDigit_append_singleton, same.digit]

theorem SameEdge.append (same : SameEdge left other) (text : Text) :
    SameEdge (left ++ text) (other ++ text) := by
  induction text generalizing left other with
  | nil => simpa using same
  | cons c rest ih => simpa using ih (same.append_singleton c)

/-- Behind a digit it does not matter what was before. -/
theorem sameEdge_of_digits {d : Char} (left other : Text) (digit : isDigit c = true)
    (digit' : isDigit d = true) : SameEdge (left ++ [c]) (other ++ [d]) := by
  constructor
  · simp [isNumeral, digit, digit']
  · simp [followsDigit_append_singleton, not_isBlank_of_isDigit, digit, digit']

theorem charge_congr (same : SameEdge left other) (c : Char) : charge left c = charge other c := by
  rw [charge, charge, same.numeral, same.digit]

theorem load_congr (same : SameEdge left other) (text : Text) : load left text = load other text := by
  induction text generalizing left other with
  | nil => rfl
  | cons c rest ih => rw [load, load, charge_congr same c, ih (same.append_singleton c)]

theorem load_append (left front back : Text) :
    load left (front ++ back) = load left front + load (left ++ front) back := by
  induction front generalizing left with
  | nil => simp [load]
  | cons c rest ih =>
      rw [List.cons_append, load, load, ih, List.append_assoc, List.singleton_append, Nat.add_assoc]

theorem charge_le (left : Text) (c : Char) : charge left c ≤ 1 := by
  unfold charge
  split
  · split <;> omega
  · split <;> omega

theorem load_le_length (left text : Text) : load left text ≤ text.length := by
  induction text generalizing left with
  | nil => exact Nat.le_refl 0
  | cons c rest ih =>
      have here := charge_le left c
      have later := ih (left ++ [c])
      rw [load, List.length_cons]
      omega

theorem load_numeral (made : ∀ c ∈ run, isNumeral c = true) :
    load left run ≤ if endsNumeral left then 0 else 1 := by
  induction run generalizing left with
  | nil => exact Nat.zero_le _
  | cons c rest ih =>
      obtain ⟨numeral, others⟩ := List.forall_mem_cons.mp made
      have later := @ih (left ++ [c]) others
      rw [endsNumeral_append_singleton, numeral, if_pos rfl] at later
      have noOperator := not_isOperator_of_isNumeral numeral
      have here : charge left c ≤ if endsNumeral left then 0 else 1 := by
        unfold charge
        rw [noOperator]
        split
        · exact Nat.le_refl _
        · simp
      rw [load]
      omega

theorem followsDigit_append_blank (blank : Blank back) :
    followsDigit (left ++ back) = followsDigit left := by
  induction back generalizing left with
  | nil => rw [List.append_nil]
  | cons c rest ih =>
      obtain ⟨isBlank, others⟩ := blank_cons.mp blank
      have later := @ih (left ++ [c]) others
      rw [followsDigit_append_singleton, isBlank, if_pos rfl] at later
      simpa using later

theorem endsNumeral_append_blank (left : Text) (other : isNumeral c = false)
    (blank : Blank back) : endsNumeral (left ++ [c] ++ back) = false := by
  rcases List.eq_nil_or_concat back with rfl | ⟨init, last, rfl⟩
  · rw [List.append_nil, endsNumeral_append_singleton, other]
  · rw [List.concat_eq_append, ← List.append_assoc, endsNumeral_append_singleton]
    exact not_isNumeral_of_isBlank (blank last (by simp))

/-- Where no word ends, a number can only end in its point. -/
theorem followsDigit_of_point (begins : left.getLast?.any isWordChar = false)
    (ends : endsNumeral left = true) : followsDigit left = false := by
  rcases List.eq_nil_or_concat left with rfl | ⟨init, last, rfl⟩
  · rfl
  · rw [List.concat_eq_append] at begins ends ⊢
    rw [endsNumeral_append_singleton] at ends
    rw [List.getLast?_concat, Option.any_some] at begins
    have noDigit : isDigit last = false := by
      rw [Bool.eq_false_iff]
      intro digit
      rw [isWordChar_of_isDigit digit] at begins
      contradiction
    have inked : isBlank last = false := apart_comm not_isNumeral_of_isBlank ends
    rw [followsDigit_append_singleton, inked, noDigit]
    rfl

/-- A sign adds to the load of a value only behind a digit. -/
theorem load_text (finite : value.isFinite = true) (begins : left.getLast?.any isWordChar = false) :
    load left value.text ≤ (if endsNumeral left then 0 else 1) + 1 := by
  obtain ⟨negative, whole, fraction, written⟩ := Binary64.written_of_isFinite finite
  rw [written.text_eq]
  cases negative with
  | false =>
      have number := @load_numeral left _ written.numeral.run
      rw [Binary64.signText, if_neg Bool.false_ne_true, List.nil_append]
      omega
  | true =>
      have number := @load_numeral (left ++ ['-']) _ written.numeral.run
      rw [endsNumeral_append_singleton, if_neg (by decide)] at number
      have sign : charge left '-' ≤ if endsNumeral left then 0 else 1 := by
        cases ends : endsNumeral left with
        | false => exact charge_le left '-'
        | true =>
            rw [charge, followsDigit_of_point begins ends]
            exact Nat.zero_le _
      rw [Binary64.signText, if_pos rfl, List.singleton_append, load]
      omega

/-- A bare expression is at least a number, an operator and a number. -/
theorem load_bare (isEnd : stop ∈ bareEnds text) :
    (if endsNumeral left then 0 else 1) + 2 ≤ load left (text.take stop) := by
  obtain ⟨number, front, operator, back, digit, rest, whole, starts, up, blankFront, isOperator,
    blankBack, isDigit⟩ := exists_join_of_mem_bareEnds isEnd
  have begun : (if endsNumeral left then 0 else 1) ≤ load left number := by
    obtain ⟨first, more, rfl, isFirst⟩ := starts
    rw [load, charge, if_pos isFirst]
    omega
  have joined : charge (left ++ number ++ front) operator = 1 := by
    have noDigit := not_isDigit_of_isNumeral_eq_false (not_isNumeral_of_isOperator isOperator)
    obtain ⟨last, isLast, lastDigit⟩ := up.ends
    obtain ⟨init, same⟩ := List.getLast?_eq_some_iff.mp isLast
    have behindDigit : followsDigit (left ++ number ++ front) = true := by
      rw [followsDigit_append_blank blankFront, same, ← List.append_assoc,
        followsDigit_append_singleton, not_isBlank_of_isDigit lastDigit, if_neg Bool.false_ne_true,
        lastDigit]
    rw [charge, noDigit, if_neg Bool.false_ne_true, if_pos ⟨isOperator, behindDigit⟩]
  have further : charge (left ++ number ++ front ++ [operator] ++ back) digit = 1 := by
    rw [charge, if_pos isDigit, endsNumeral_append_blank _ (not_isNumeral_of_isOperator isOperator)
      blankBack, if_neg Bool.false_ne_true]
  rw [whole, load_append, load_append, load, joined, load_append, load, further]
  omega

theorem exists_last_digit (finite : value.isFinite = true) :
    ∃ front digit, value.text = front ++ [digit] ∧ isDigit digit = true := by
  obtain ⟨negative, whole, fraction, written⟩ := Binary64.written_of_isFinite finite
  obtain ⟨init, digit, rfl⟩ := List.eq_nil_or_concat fraction |>.resolve_left
    written.fractionNonempty
  refine ⟨Binary64.signText negative ++ (whole ++ '.' :: init), digit, ?_,
    written.fractionDigits digit (by simp)⟩
  rw [written.text_eq]
  simp

theorem load_replaced (taken : TakenBy Style.bare.rule left occurrence right)
    (evaluated : evaluate occurrence = .ok value) :
    load left value.text + 1 ≤ load left occurrence ∧
      SameEdge (left ++ occurrence) (other ++ value.text) := by
  obtain ⟨finite, -⟩ := evaluate_eq_ok_iff.mp evaluated
  have bare := isBare_of_takenBy taken
  obtain ⟨stop, isEnd, whole⟩ := exists_end_of_takenBy taken
  constructor
  · have value := @load_text left _ finite bare.begins
    have expression := @load_bare _ left _ isEnd
    rw [whole] at expression
    omega
  · obtain ⟨last, isLast, lastDigit⟩ := bare.upToDigit.ends
    obtain ⟨init, rfl⟩ := List.getLast?_eq_some_iff.mp isLast
    obtain ⟨front, digit, text, isDigit⟩ := exists_last_digit finite
    rw [text, ← List.append_assoc, ← List.append_assoc]
    exact sameEdge_of_digits _ _ lastDigit isDigit

/-- A sweep makes the load smaller by one at least with every replacement. -/
theorem load_substitute (each : segments.Each (TakenBy Style.bare.rule) left)
    (same : SameEdge left other) :
    load other (substitute .bare segments).text + (substitute .bare segments).replaced.length ≤
      load left segments.join := by
  induction segments generalizing left other with
  | last gap => exact Nat.le_of_eq (load_congr same gap).symm
  | found gap occurrence rest ih =>
      obtain ⟨taken, later⟩ := each
      have edge := same.append gap
      have before := load_congr same gap
      have occupied := load_congr edge occurrence
      rw [substitute]
      simp only [Style.expression]
      cases evaluated : evaluate occurrence with
      | error error =>
          have behind := ih later (edge.append occurrence)
          simp only [Segments.join, load_append, ← List.append_assoc]
          omega
      | ok value =>
          obtain ⟨smaller, behindDigit⟩ := @load_replaced _ (other ++ gap) _ _ _ taken evaluated
          have behind := ih later behindDigit
          have written := load_congr edge value.text
          simp only [Segments.join, load_append, ← List.append_assoc, List.length_cons]
          omega

theorem load_sweep (text : Text) :
    load [] (sweep .bare text).text + (sweep .bare text).replaced.length ≤ load [] text := by
  have smaller := load_substitute (each_cut text) ⟨rfl, rfl⟩
  rwa [join_cut] at smaller

/-- Sweeps that make a measure smaller with every replacement end with one that replaces
nothing, when there are more of them than the measure says. -/
theorem sweep_sweeps {measure : Text → Nat} (smaller : ∀ text,
      measure (sweep style text).text + (sweep style text).replaced.length ≤ measure text)
    (enough : measure text < limit) :
    sweep style (sweeps style limit text).text =
      ⟨(sweeps style limit text).text, [], (sweeps style limit text).skipped⟩ := by
  induction limit generalizing text with
  | zero => exact absurd enough (Nat.not_lt_zero _)
  | succ limit ih =>
      rw [sweeps]
      cases nothing : (sweep style text).replaced with
      | nil =>
          have kept := sweep_text_of_replaced_nil nothing
          simp only [List.isEmpty_nil, if_true]
          calc sweep style (sweep style text).text
              = sweep style text := by rw [kept]
            _ = ⟨(sweep style text).text, [], (sweep style text).skipped⟩ := by rw [← nothing]
      | cons first others =>
          have fewer := smaller text
          rw [nothing, List.length_cons] at fewer
          exact ih (by omega)

/-- A reduction that one more sweep leaves as it is. -/
def Settled (reduction : Reduction) : Prop :=
  sweep .bare reduction.text = ⟨reduction.text, [], reduction.skipped⟩

/-- The sweeps come to an end. -/
theorem settled_settle (text : Text) : Settled (settle .bare text) := by
  apply sweep_sweeps load_sweep
  have bound := load_le_length [] text
  rw [sweepLimit]
  omega

end ProseTree.Expression
