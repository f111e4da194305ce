import Mathlib.Logic.Relation
import ProseTree.Proofs.Expression.Idempotence

namespace ProseTree.Expression

/-! Groups can be replaced one at a time and in any order.

Two groups of a text do not overlap, so replacing the one leaves the other as it is, and every
step takes an opening parenthesis out of the text.  However the groups are chosen, the steps
come to an end, and they end with the text that sweeping for groups leaves. -/

open Text Relation

variable {text next other inner occurrence second left right gap back : Text}
  {segments : Segments}

/-- One group of the text, whichever it is, is replaced by its value. -/
inductive GroupStep : Text → Text → Prop where
  | replace (left right : Text) {occurrence inner : Text} {value : Binary64}
      (group : IsGroup occurrence inner) (evaluated : evaluate inner = .ok value) :
      GroupStep (left ++ (occurrence ++ right)) (left ++ (value.text ++ right))

/-- Of two groups the one ends before the other begins, unless they are the same. -/
theorem IsGroup.same_or_apart (group : IsGroup occurrence inner) (later : IsGroup second other)
    (whole : occurrence ++ right = gap ++ (second ++ back)) :
    (gap = [] ∧ occurrence = second ∧ right = back) ∨
      ∃ middle, gap = occurrence ++ middle ∧ right = middle ++ (second ++ back) := by
  have length := group.length_cut right
  have spelled := congrArg List.length group.spelled
  rw [List.length_append, List.length_cons, List.length_singleton] at spelled
  by_cases here : gap = []
  · subst here
    rw [whole, List.nil_append, later.length_cut] at length
    have again := congrArg List.length later.spelled
    rw [List.length_append, List.length_cons, List.length_singleton] at again
    exact .inl ⟨rfl, List.append_inj whole (by omega)⟩
  · have within := groupLength_le_of_group later gap back here
    rw [← whole, length] at within
    rcases List.append_eq_append_iff.mp whole with ⟨middle, before, behind⟩ | ⟨rest, before, behind⟩
    · exact .inr ⟨middle, before, behind⟩
    · have nothing : rest = [] := by
        have size := congrArg List.length before
        rw [List.length_append] at size
        exact List.length_eq_zero_iff.mp (by omega)
      subst nothing
      exact .inr ⟨[], by simpa using before.symm, by simpa using behind.symm⟩

/-- Steps for two groups, the second of which begins no earlier, come together again. -/
theorem GroupStep.join {value number : Binary64} (left : Text) (group : IsGroup occurrence inner)
    (evaluated : evaluate inner = .ok value) (later : IsGroup second other)
    (counted : evaluate other = .ok number)
    (whole : occurrence ++ right = gap ++ (second ++ back)) :
    left ++ (value.text ++ right) = left ++ gap ++ (number.text ++ back) ∨
      ∃ last, GroupStep (left ++ (value.text ++ right)) last ∧
        GroupStep (left ++ gap ++ (number.text ++ back)) last := by
  rcases group.same_or_apart later whole with ⟨rfl, rfl, rfl⟩ | ⟨middle, rfl, rfl⟩
  · obtain rfl : inner = other := group.expression.symm.trans later.expression
    obtain rfl : value = number := Except.ok.inj (evaluated.symm.trans counted)
    exact .inl (by rw [List.append_nil])
  · refine .inr ⟨left ++ (value.text ++ (middle ++ (number.text ++ back))), ?_, ?_⟩
    · simpa only [List.append_assoc] using
        GroupStep.replace (left ++ (value.text ++ middle)) back later counted
    · simpa only [List.append_assoc] using
        GroupStep.replace left (middle ++ (number.text ++ back)) group evaluated

/-- Two steps from one text lead to the same text, or one further step each does. -/
theorem GroupStep.diamond (step : GroupStep text next) (otherwise : GroupStep text other) :
    next = other ∨ ∃ last, GroupStep next last ∧ GroupStep other last := by
  obtain ⟨left, right, group, evaluated⟩ := step
  generalize whole : left ++ _ = text at otherwise
  obtain ⟨front, back, later, counted⟩ := otherwise
  rcases List.append_eq_append_iff.mp whole with ⟨gap, rfl, behind⟩ | ⟨gap, rfl, behind⟩
  · exact GroupStep.join left group evaluated later counted behind
  · rcases GroupStep.join front later counted group evaluated behind with same | ⟨last, far, near⟩
    · exact .inl same.symm
    · exact .inr ⟨last, near, far⟩

theorem join_of_groupSteps (steps : ReflTransGen GroupStep text next)
    (others : ReflTransGen GroupStep text other) : Join (ReflTransGen GroupStep) next other := by
  refine church_rosser (fun text next other step otherwise => ?_) steps others
  rcases step.diamond otherwise with rfl | ⟨last, nextStep, otherStep⟩
  · exact ⟨next, .refl, .refl⟩
  · exact ⟨last, .single nextStep, .single otherStep⟩

theorem GroupStep.count (step : GroupStep text next) : next.count '(' + 1 = text.count '(' := by
  obtain ⟨left, right, group, evaluated⟩ := step
  have flat := noParenthesis_text (evaluate_eq_ok_iff.mp evaluated).1
  have written := @count_flat _ '(' flat rfl
  have own := @count_group _ '(' _ group rfl
  simp only [List.count_append]
  omega

theorem count_groupSteps {run : Nat → Text}
    (steps : ∀ index, GroupStep (run index) (run (index + 1))) (index : Nat) :
    (run index).count '(' + index = (run 0).count '(' := by
  induction index with
  | zero => rfl
  | succ index ih =>
      have counted := (steps index).count
      omega

theorem groupSteps_substitute (each : segments.Each (TakenBy Style.group.rule) left)
    (front : Text) : ReflTransGen GroupStep (front ++ segments.join)
      (front ++ (substitute .group segments).text) := by
  induction segments generalizing left front with
  | last gap => exact .refl
  | found gap occurrence rest ih =>
      obtain ⟨taken, later⟩ := each
      obtain ⟨inner, group⟩ := isGroup_of_takenBy taken
      rw [substitute, Segments.join, group.expression]
      cases evaluated : evaluate inner with
      | ok value =>
          have step := GroupStep.replace (front ++ gap) rest.join group evaluated
          have steps := ih later (front ++ gap ++ value.text)
          simp only [List.append_assoc] at step steps ⊢
          exact .head step steps
      | error error =>
          have steps := ih later (front ++ gap ++ occurrence)
          simpa only [List.append_assoc] using steps

theorem groupSteps_sweep (text : Text) : ReflTransGen GroupStep text (sweep .group text).text := by
  have steps := groupSteps_substitute (@each_cut Style.group.rule text) []
  rwa [join_cut] at steps

theorem groupSteps_settle (text : Text) : ReflTransGen GroupStep text (settle .group text).text :=
  sweeps_induction (P := ReflTransGen GroupStep text)
    (fun reduced steps => steps.trans (groupSteps_sweep reduced)) _ .refl

/-- Where a sweep replaces nothing, there is no step. -/
theorem not_groupStep (nothing : (sweep .group text).replaced = []) : ¬GroupStep text next := by
  intro step
  obtain ⟨left, right, group, evaluated⟩ := step
  have found := mem_cut_group_iff.mpr ⟨left, _, right, rfl, group⟩
  apply replaced_eq_nil_iff.mp nothing _ found
  rwa [group.expression]

theorem eq_of_groupSteps (final : ∀ next, ¬GroupStep text next)
    (steps : ReflTransGen GroupStep text other) : other = text := by
  rcases steps.cases_head with rfl | ⟨next, step, -⟩
  · rfl
  · exact absurd step (final next)

/-- Replacing groups by their values, one at a time and whichever one chooses, comes to an end,
and what is left when no group has a value is always what the sweeps leave. -/
theorem settle_group_confluent (text : Text) :
    (∀ run : Nat → Text, run 0 = text → ∃ index, ¬GroupStep (run index) (run (index + 1))) ∧
    (∀ last, ReflTransGen GroupStep text last → (∀ next, ¬GroupStep last next) →
      last = (settle .group text).text) ∧
    ReflTransGen GroupStep text (settle .group text).text ∧
    ∀ next, ¬GroupStep (settle .group text).text next := by
  have settled : ∀ next, ¬GroupStep (settle .group text).text next := fun next =>
    not_groupStep (congrArg Reduction.replaced (sweep_settle .group text))
  refine ⟨?_, ?_, groupSteps_settle text, settled⟩
  · rintro run rfl
    by_contra endless
    rw [not_exists] at endless
    have counted := count_groupSteps (fun index => not_not.mp (endless index))
      ((run 0).count '(' + 1)
    omega
  · intro last steps final
    obtain ⟨common, fromLast, fromSettled⟩ := join_of_groupSteps steps (groupSteps_settle text)
    exact (eq_of_groupSteps final fromLast).symm.trans (eq_of_groupSteps settled fromSettled)

end ProseTree.Expression
