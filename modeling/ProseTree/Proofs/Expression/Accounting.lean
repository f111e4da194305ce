import ProseTree.Proofs.Expression.Kept

namespace ProseTree.Expression

/-! What a reduction reports is what it did, and sweeping comes to an end on every text.

Skipped are the expressions still found in the text that a style was settled in, no
others and no earlier ones.  Every replaced group takes one pair of parentheses out of the
text, and nothing else does; without a replacement the text stays as it is, and with one it
never does.

`Sweeping` is the loop as it would run without a limit: sweeps follow one another as long as
something is replaced.  Each sweep but the last one replaces something, and a replacement takes
from the opening parentheses of the text or from its load.  So the loop ends, and it ends
before the limit that `settle` sets is reached. -/

open Text

variable {text left right occurrence : Text} {c : Char} {value : Binary64}
  {segments : Segments} {style : Style} {count : Nat}

/-- The pairs of parentheses in an expression of the style. -/
def Style.pairs : Style → Nat
  | .group => 1
  | .bare => 0

theorem count_flat (flat : ∀ c ∈ text, isParenthesis c = false) (parenthesis : isParenthesis c = true) :
    text.count c = 0 := by
  rw [List.count_eq_zero]
  intro member
  rw [flat c member] at parenthesis
  contradiction

theorem count_group {inner : Text} (group : IsGroup occurrence inner)
    (parenthesis : isParenthesis c = true) : occurrence.count c = 1 := by
  rw [group.spelled, List.count_append, List.count_cons, count_flat group.flat parenthesis]
  rcases isParenthesis_iff.mp parenthesis with rfl | rfl <;> rfl

theorem count_occurrence (taken : TakenBy style.rule left occurrence right)
    (parenthesis : isParenthesis c = true) : occurrence.count c = style.pairs := by
  cases style with
  | group =>
      obtain ⟨inner, group⟩ := isGroup_of_takenBy taken
      exact count_group group parenthesis
  | bare =>
      have made := (isBare_of_takenBy taken).upToDigit.made
      exact count_flat (fun d member => not_isParenthesis_of_isBareChar (made d member)) parenthesis

theorem count_substitute (each : segments.Each (TakenBy style.rule) left)
    (parenthesis : isParenthesis c = true) :
    (substitute style segments).text.count c +
        style.pairs * (substitute style segments).replaced.length =
      segments.join.count c := by
  induction segments generalizing left with
  | last gap => rfl
  | found gap occurrence rest ih =>
      obtain ⟨taken, later⟩ := each
      have behind := ih later
      have own := count_occurrence taken parenthesis
      rw [substitute]
      cases evaluated : evaluate (style.expression occurrence) with
      | ok value =>
          have flat := noParenthesis_text (evaluate_eq_ok_iff.mp evaluated).1
          have written := count_flat flat parenthesis
          simp only [Segments.join, List.count_append, List.length_cons, Nat.mul_succ]
          omega
      | error error =>
          simp only [Segments.join, List.count_append]
          omega

theorem count_sweep (text : Text) (parenthesis : isParenthesis c = true) :
    (sweep style text).text.count c + style.pairs * (sweep style text).replaced.length =
      text.count c := by
  have counted := count_substitute (@each_cut style.rule text) parenthesis
  rwa [join_cut] at counted

/-- What a sweep keeps true of its text and of the number of replacements made so far, all
sweeps together do. -/
theorem sweeps_counting {P : Text → Nat → Prop}
    (step : ∀ text count, P text count →
      P (sweep style text).text (count + (sweep style text).replaced.length))
    (limit : Nat) (start : P text count) :
    P (sweeps style limit text).text (count + (sweeps style limit text).replaced.length) := by
  induction limit generalizing text count with
  | zero => exact start
  | succ limit ih =>
      have next := step text count start
      rw [sweeps]
      dsimp only
      split
      · exact next
      · have later := ih next
        rwa [List.length_append, ← Nat.add_assoc]

theorem count_settle (text : Text) (parenthesis : isParenthesis c = true) :
    (settle style text).text.count c + style.pairs * (settle style text).replaced.length =
      text.count c := by
  have counted := @sweeps_counting text style 0
    (fun reduced count => reduced.count c + style.pairs * count = text.count c) ?_
    (sweepLimit style text) rfl
  · rwa [Nat.zero_add] at counted
  · intro reduced count known
    have swept := @count_sweep c style reduced parenthesis
    rw [Nat.mul_add]
    omega

theorem load_settle (text : Text) :
    load [] (settle .bare text).text + (settle .bare text).replaced.length ≤ load [] text := by
  have smaller := @sweeps_counting text .bare 0
    (fun reduced count => load [] reduced + count ≤ load [] text) ?_ (sweepLimit .bare text)
    (Nat.le_refl _)
  · rwa [Nat.zero_add] at smaller
  · intro reduced count known
    have swept := load_sweep reduced
    omega

/-- The sweeps of a style end with one that replaces nothing. -/
theorem sweep_settle (style : Style) (text : Text) : sweep style (settle style text).text =
    ⟨(settle style text).text, [], (settle style text).skipped⟩ := by
  cases style with
  | bare => exact settled_settle text
  | group =>
      apply @sweep_sweeps _ _ _ fun text => text.count '('
      · intro swept
        have counted := @count_sweep '(' .group swept rfl
        rw [Style.pairs, Nat.one_mul] at counted
        exact Nat.le_of_eq counted
      · exact Nat.lt_succ_self _

theorem outcome_settle (style : Style) (text : Text) :
    (settle style text).skipped.map Skipped.outcome = outcomes style (settle style text).text := by
  have last := sweep_settle style text
  have nothing : (sweep style (settle style text).text).replaced = [] := by rw [last]
  have reported := (substitute_of_replaced_nil nothing).2
  rw [← sweep, last] at reported
  exact reported

theorem error_of_mem_outcomes {outcome : Text × Except EvalError Binary64}
    (found : outcome ∈ outcomes style (settle style text).text) :
    ∃ error, outcome.2 = .error error := by
  rw [← outcome_settle] at found
  obtain ⟨skipped, -, rfl⟩ := List.mem_map.mp found
  exact ⟨skipped.error, rfl⟩

theorem evaluate_skipped {skipped : Skipped} (member : skipped ∈ (settle style text).skipped) :
    evaluate skipped.expression = .error skipped.error := by
  have found : skipped.outcome ∈ outcomes style (settle style text).text := by
    rw [← outcome_settle]
    exact List.mem_map_of_mem member
  obtain ⟨occurrence, -, same⟩ := List.mem_map.mp found
  obtain ⟨expression, outcome⟩ := Prod.mk.inj same
  rwa [expression] at outcome

theorem exists_sweepLimit (style : Style) (text : Text) :
    ∃ limit, sweepLimit style text = limit + 1 := by
  cases style <;> exact ⟨_, rfl⟩

theorem settle_of_replaced_nil (nothing : (sweep style text).replaced = []) :
    settle style text = sweep style text := by
  obtain ⟨limit, positive⟩ := exists_sweepLimit style text
  rw [settle, positive, sweeps, nothing]
  rfl

/-- When all sweeps replace nothing, the first one does not. -/
theorem sweep_replaced_nil (nothing : (settle style text).replaced = []) :
    (sweep style text).replaced = [] := by
  by_contra some
  obtain ⟨limit, positive⟩ := exists_sweepLimit style text
  rw [settle, positive, sweeps, List.isEmpty_eq_false_iff.mpr some] at nothing
  exact some (List.append_eq_nil_iff.mp nothing).1

theorem settle_text_of_sweep (nothing : (sweep style text).replaced = []) :
    (settle style text).text = text := by
  rw [settle_of_replaced_nil nothing, sweep_text_of_replaced_nil nothing]

theorem settle_text_of_replaced_nil (nothing : (settle style text).replaced = []) :
    (settle style text).text = text :=
  settle_text_of_sweep (sweep_replaced_nil nothing)

theorem reduce_text_eq_self (flat : ∀ c ∈ text, isParenthesis c = false)
    (nothing : (sweep .bare text).replaced = []) : (reduce text).text = text := by
  rw [reduce_plain flat]
  exact settle_text_of_sweep nothing

/-- Only a replaced group takes parentheses out of a text. -/
theorem count_reduce (text : Text) (parenthesis : isParenthesis c = true) :
    (reduce text).text.count c + (settle .group text).replaced.length = text.count c := by
  have groups := @count_settle c .group text parenthesis
  have bare := @count_settle c .bare (settle .group text).text parenthesis
  rw [Style.pairs, Nat.one_mul] at groups
  rw [Style.pairs, Nat.zero_mul] at bare
  exact (congrArg (· + _) bare).trans groups

theorem reduce_text_of_replaced_nil (nothing : (reduce text).replaced = []) :
    (reduce text).text = text := by
  obtain ⟨noGroup, noBare⟩ := List.append_eq_nil_iff.mp nothing
  exact (settle_text_of_replaced_nil noBare).trans (settle_text_of_replaced_nil noGroup)

/-- A reduction accounts for its text.  The expressions that are left have no value, and they
are what is skipped, each with its error: first the groups of the text that the groups were
settled in, then the bare expressions of the reduced text.  Parentheses disappear pair by
pair, one for each replaced group.  Nothing is replaced exactly when the text is kept. -/
theorem reduce_accounts (text : Text) :
    (∀ outcome ∈ outcomes .group (settle .group text).text, ∃ error, outcome.2 = .error error) ∧
    (∀ outcome ∈ outcomes .bare (reduce text).text, ∃ error, outcome.2 = .error error) ∧
    (reduce text).skipped.map Skipped.outcome =
      outcomes .group (settle .group text).text ++ outcomes .bare (reduce text).text ∧
    (reduce text).text.count '(' + (settle .group text).replaced.length = text.count '(' ∧
    (reduce text).text.count ')' + (settle .group text).replaced.length = text.count ')' ∧
    ((reduce text).replaced = [] ↔ (reduce text).text = text) := by
  refine ⟨fun outcome => error_of_mem_outcomes, fun outcome => error_of_mem_outcomes, ?_,
    count_reduce text rfl, count_reduce text rfl, reduce_text_of_replaced_nil, ?_⟩
  · exact List.map_append.trans (congrArg₂ _ (outcome_settle .group text) (outcome_settle .bare _))
  · intro same
    have counted := @count_reduce '(' text rfl
    rw [same] at counted
    have noGroup : (settle .group text).replaced = [] := List.length_eq_zero_iff.mp (by omega)
    have kept := settle_text_of_replaced_nil noGroup
    have smaller := load_settle (settle .group text).text
    have reduced : (settle .bare (settle .group text).text).text = text := same
    rw [reduced, kept] at smaller
    have noBare : (settle .bare text).replaced = [] := List.length_eq_zero_iff.mp (by omega)
    rw [reduce, noGroup, kept, noBare]
    rfl

variable {limit : Nat} {reduction : Reduction}

/-- Sweeping until nothing is replaced ends after so many sweeps, with the reduction. -/
inductive Sweeping (style : Style) : Text → Nat → Reduction → Prop
  | last {text : Text} (nothing : (sweep style text).replaced = []) :
      Sweeping style text 1 (sweep style text)
  | again {text : Text} {count : Nat} {later : Reduction}
      (some : (sweep style text).replaced ≠ [])
      (rest : Sweeping style (sweep style text).text count later) :
      Sweeping style text (count + 1)
        { later with replaced := (sweep style text).replaced ++ later.replaced }

/-- The loop ends in one way only. -/
theorem Sweeping.unique {other : Nat} {reduced : Reduction}
    (sweeping : Sweeping style text count reduction) (again : Sweeping style text other reduced) :
    count = other ∧ reduction = reduced := by
  induction sweeping generalizing other reduced with
  | last nothing =>
      cases again with
      | last => exact ⟨rfl, rfl⟩
      | again some rest => exact absurd nothing some
  | again some rest ih =>
      cases again with
      | last nothing => exact absurd nothing some
      | again _ further =>
          obtain ⟨rfl, rfl⟩ := ih further
          exact ⟨rfl, rfl⟩

/-- A limit that leaves room for the sweeps of the loop changes nothing. -/
theorem Sweeping.sweeps_eq (sweeping : Sweeping style text count reduction)
    (enough : count ≤ limit) : sweeps style limit text = reduction := by
  induction sweeping generalizing limit with
  | last nothing =>
      obtain ⟨more, rfl⟩ := Nat.exists_eq_add_of_le' enough
      rw [sweeps, nothing]
      rfl
  | again some rest ih =>
      obtain ⟨more, rfl⟩ := Nat.exists_eq_add_of_le' enough
      have later := ih (Nat.le_add_left _ more)
      rw [← Nat.add_assoc, sweeps, List.isEmpty_eq_false_iff.mpr some, later]
      rfl

/-- The loop ends when every replacement makes a measure smaller, with one sweep more than the
measure says at the most. -/
theorem exists_sweeping {measure : Text → Nat} (smaller : ∀ text,
      measure (sweep style text).text + (sweep style text).replaced.length ≤ measure text)
    (text : Text) :
    ∃ count ≤ 1 + measure text, ∃ reduction, Sweeping style text count reduction := by
  induction size : measure text using Nat.strongRecOn generalizing text with
  | ind size ih =>
      subst size
      by_cases nothing : (sweep style text).replaced = []
      · exact ⟨1, Nat.le_add_right 1 _, _, .last nothing⟩
      · have some := List.length_pos_iff.mpr nothing
        have fewer := smaller text
        obtain ⟨count, bound, later, rest⟩ := ih _ (by omega) (sweep style text).text rfl
        exact ⟨count + 1, by omega, _, .again nothing rest⟩

theorem sweeping_settle {measure : Text → Nat} (smaller : ∀ text,
      measure (sweep style text).text + (sweep style text).replaced.length ≤ measure text)
    (enough : 1 + measure text ≤ sweepLimit style text) :
    ∃ count ≤ 1 + measure text, Sweeping style text count (settle style text) := by
  obtain ⟨count, bound, reduction, sweeping⟩ := exists_sweeping smaller text
  refine ⟨count, bound, ?_⟩
  rwa [settle, sweeping.sweeps_eq (bound.trans enough)]

theorem sweeping_group (text : Text) :
    ∃ count ≤ 1 + text.count '(', Sweeping .group text count (settle .group text) := by
  apply sweeping_settle
  · intro text
    have counted := @count_sweep '(' .group text rfl
    rw [Style.pairs, Nat.one_mul] at counted
    exact Nat.le_of_eq counted
  · rw [sweepLimit, Nat.add_comm]

theorem sweeping_bare (text : Text) :
    ∃ count ≤ 1 + load [] text, Sweeping .bare text count (settle .bare text) := by
  apply sweeping_settle load_sweep
  have bound := load_le_length [] text
  rw [sweepLimit]
  omega

/-- Reducing ends on every text, with no limit set to the sweeps.  Groups are settled after one
sweep more than there are opening parentheses, at the most; bare expressions after one more
than the load of the text that is left.  What the loops end with is the reduction. -/
theorem reduce_terminates (text : Text) :
    ∃ groupSweeps ≤ 1 + text.count '(', ∃ groups, Sweeping .group text groupSweeps groups ∧
      ∃ bareSweeps ≤ 1 + load [] groups.text, ∃ bare,
        Sweeping .bare groups.text bareSweeps bare ∧
        reduce text =
          ⟨bare.text, groups.replaced ++ bare.replaced, groups.skipped ++ bare.skipped⟩ := by
  obtain ⟨groupSweeps, groupBound, groups⟩ := sweeping_group text
  obtain ⟨bareSweeps, bareBound, bare⟩ := sweeping_bare (settle .group text).text
  exact ⟨groupSweeps, groupBound, _, groups, bareSweeps, bareBound, _, bare, rfl⟩

end ProseTree.Expression
