import ProseTree.Proofs.Expression.BareOccurrence
import ProseTree.Proofs.Expression.Nest

namespace ProseTree.Expression

/-! Reducing an expression in parentheses comes to its value.

A sweep replaces the groups that have no groups in them and leaves a nest with the same
values.  So it goes on until the outermost group is replaced, one group at a time. -/

variable {c : Char} {text inner tail : Text} {value : Binary64} {style : Style} {nest : Nest}

theorem substitute_push (style : Style) (c : Char) (segments : Segments) :
    substitute style (segments.push c) =
      ⟨c :: (substitute style segments).text, (substitute style segments).replaced,
        (substitute style segments).skipped⟩ := by
  cases segments with
  | last gap => rfl
  | found gap occurrence rest =>
      simp only [Segments.push, substitute]
      split <;> rfl

/-- A group is found no matter what is in front of it. -/
theorem cutAfter_group (before : Option Char) (text : Text) :
    Text.cutAfter Style.group.rule before text = text.cut Style.group.rule :=
  Text.cutAfter_eq_cut (fun _ _ => rfl) before text

theorem sweep_skip (nothing : groupLength (c :: text) = 0) :
    sweep .group (c :: text) = ⟨c :: (sweep .group text).text, (sweep .group text).replaced,
      (sweep .group text).skipped⟩ := by
  have taken : Style.group.rule none (c :: text) = 0 := nothing
  rw [sweep, Text.cut, Text.cutAfter, taken]
  dsimp only
  rw [substitute_push, cutAfter_group, sweep]

theorem takeWhile_flat (flat : ∀ c ∈ inner, isParenthesis c = false)
    (parenthesis : isParenthesis c = true) :
    (inner ++ c :: tail).takeWhile (!isParenthesis ·) = inner := by
  rw [List.takeWhile_append_of_pos (by simpa using flat),
    List.takeWhile_cons_of_neg (by simpa using parenthesis), List.append_nil]

theorem groupLength_flat (flat : ∀ c ∈ inner, isParenthesis c = false)
    (operator : inner.any isOperator = true) :
    groupLength ('(' :: (inner ++ ')' :: tail)) = inner.length + 2 := by
  simp only [groupLength, takeWhile_flat flat (c := ')') rfl, List.drop_left, operator, if_true]

theorem groupLength_open (flat : ∀ c ∈ inner, isParenthesis c = false) :
    groupLength ('(' :: (inner ++ '(' :: tail)) = 0 := by
  simp only [groupLength, takeWhile_flat flat (c := '(') rfl, List.drop_left]
  rfl

theorem groupLength_other (other : c ≠ '(') : groupLength (c :: text) = 0 :=
  groupLength.eq_2 (c :: text) fun _ same => other (List.cons.inj same).1

/-- A group at the head of the text is what a sweep finds first. -/
theorem sweep_closed (flat : ∀ c ∈ inner, isParenthesis c = false)
    (operator : inner.any isOperator = true) (tail : Text) :
    sweep .group ('(' :: (inner ++ ')' :: tail)) =
      match evaluate inner with
      | .ok value =>
          ⟨value.text ++ (sweep .group tail).text, ⟨inner, value⟩ :: (sweep .group tail).replaced,
            (sweep .group tail).skipped⟩
      | .error error =>
          ⟨'(' :: (inner ++ ')' :: (sweep .group tail).text), (sweep .group tail).replaced,
            ⟨inner, error⟩ :: (sweep .group tail).skipped⟩ := by
  have taken : Style.group.rule none ('(' :: (inner ++ ')' :: tail)) = inner.length + 1 + 1 :=
    groupLength_flat flat operator
  have split : inner ++ ')' :: tail = (inner ++ [')']) ++ tail := by simp
  have length : (inner ++ [')']).length = inner.length + 1 := by simp
  have expression : Style.group.expression ('(' :: (inner ++ [')'])) = inner :=
    List.dropLast_concat
  rw [sweep, Text.cut, Text.cutAfter, taken]
  dsimp only
  rw [split, List.take_left' length, List.drop_left' length, cutAfter_group]
  simp only [substitute, expression]
  cases evaluate inner with
  | ok value => rfl
  | error error => simp [sweep]

theorem sweep_flat (flat : ∀ c ∈ inner, isParenthesis c = false)
    (operator : inner.any isOperator = true) (evaluated : evaluate inner = .ok value) :
    sweep .group ('(' :: (inner ++ ')' :: tail)) =
      ⟨value.text ++ (sweep .group tail).text, ⟨inner, value⟩ :: (sweep .group tail).replaced,
        (sweep .group tail).skipped⟩ := by
  rw [sweep_closed flat operator, evaluated]

theorem sweep_plain (tail : Text) (flat : ∀ c ∈ text, isParenthesis c = false) :
    sweep .group (text ++ tail) = ⟨text ++ (sweep .group tail).text,
      (sweep .group tail).replaced, (sweep .group tail).skipped⟩ := by
  induction text with
  | nil => rfl
  | cons c text ih =>
      have other := (not_parenthesis (flat c (by simp))).1
      rw [List.cons_append, sweep_skip (groupLength_other other),
        ih fun d member => flat d (by simp [member])]
      rfl

namespace Nest

def swept : Nest → Nest
  | .done => .done
  | .plain text flat rest => .plain text flat rest.swept
  | .group inner rest =>
      if inner.groups = [] then
        match evaluated : evaluate inner.render with
        | .ok value =>
            .plain value.text (noParenthesis_text (evaluate_eq_ok_iff.mp evaluated).1) rest.swept
        | .error _ => .group inner rest.swept
      else .group inner.swept rest.swept

/-- The groups that a sweep replaces. -/
def reducible : Nest → List Text
  | .done => []
  | .plain _ _ rest => rest.reducible
  | .group inner rest =>
      (if inner.groups = [] then [inner.render] else inner.reducible) ++ rest.reducible

/-- Every group has an operator that belongs to no group in it, and a value. -/
def Reducible (nest : Nest) : Prop :=
  ∀ inner ∈ nest.groups, hasOwnOperator inner = true ∧ ∃ value, evaluate inner = .ok value

variable {rest : Nest}

theorem render_swept_flat (rest : Nest) {inner : Nest} (flat : inner.groups = [])
    (evaluated : evaluate inner.render = .ok value) :
    ∃ noGroup, (group inner rest).swept = .plain value.text noGroup rest.swept := by
  simp only [swept, if_pos flat]
  split
  · rename_i found same
    obtain rfl : found = value := by
      rw [same] at evaluated
      exact Except.ok.inj evaluated
    exact ⟨noParenthesis_text (evaluate_eq_ok_iff.mp evaluated).1, rfl⟩
  · rename_i error same
    rw [same] at evaluated
    contradiction

theorem flat_render (flat : nest.groups = []) :
    ∀ c ∈ nest.render, isParenthesis c = false := by
  induction nest with
  | done => simp [render]
  | plain text noGroup rest ih =>
      intro c member
      rcases List.mem_append.mp member with here | later
      · exact noGroup c here
      · exact ih flat c later
  | group inner rest innerIH restIH => contradiction

theorem own_of_flat (flat : nest.groups = []) : nest.own = nest.render := by
  induction nest with
  | done => rfl
  | plain text noGroup rest ih => rw [own, render, ih flat]
  | group inner rest innerIH restIH => contradiction

theorem first_group (nested : nest.groups ≠ []) :
    ∃ front back, nest.render = front ++ '(' :: back ∧ ∀ c ∈ front, isParenthesis c = false := by
  induction nest with
  | done => contradiction
  | plain text noGroup rest ih =>
      obtain ⟨front, back, spelled, flat⟩ := ih nested
      refine ⟨text ++ front, back, by rw [render, spelled, List.append_assoc], ?_⟩
      intro c member
      rcases List.mem_append.mp member with here | later
      · exact noGroup c here
      · exact flat c later
  | group inner rest innerIH restIH =>
      exact ⟨[], inner.render ++ ')' :: rest.render, rfl, by simp⟩

theorem count_render (nest : Nest) : nest.render.count '(' = nest.groups.length := by
  induction nest with
  | done => rfl
  | plain text noGroup rest ih =>
      have none : text.count '(' = 0 :=
        List.count_eq_zero.mpr fun member => (not_parenthesis (noGroup _ member)).1 rfl
      rw [render, List.count_append, none, ih, Nat.zero_add, groups]
  | group inner rest innerIH restIH =>
      have close : (')' :: rest.render).count '(' = rest.groups.length := by
        rw [List.count_cons_of_ne (by decide), restIH]
      simp only [render, groups, List.cons_append, List.count_cons_self, List.count_append, close,
        List.length_cons, List.length_append, innerIH]

theorem Reducible.inside {inner : Nest} (all : (group inner rest).Reducible) : inner.Reducible :=
  fun text member => all text (by simp [groups, member])

theorem Reducible.behind {inner : Nest} (all : (group inner rest).Reducible) : rest.Reducible :=
  fun text member => all text (by simp [groups, member])

theorem sweep_render (all : nest.Reducible) (tail : Text) :
    (sweep .group (nest.render ++ tail)).text =
      nest.swept.render ++ (sweep .group tail).text ∧
    (sweep .group (nest.render ++ tail)).replaced.length =
      nest.reducible.length + (sweep .group tail).replaced.length ∧
    (sweep .group (nest.render ++ tail)).skipped = (sweep .group tail).skipped := by
  induction nest generalizing tail with
  | done => simp [render, swept, reducible]
  | plain text flat rest ih =>
      obtain ⟨texts, replaced, skipped⟩ := ih all tail
      rw [render, List.append_assoc, sweep_plain _ flat]
      exact ⟨by rw [texts, swept, render, List.append_assoc], replaced, skipped⟩
  | group inner rest innerIH restIH =>
      obtain ⟨operator, value, evaluated⟩ := all inner.render (by simp [groups])
      obtain ⟨texts, replaced, skipped⟩ := restIH all.behind tail
      have spelled : (group inner rest).render ++ tail =
          '(' :: (inner.render ++ ')' :: (rest.render ++ tail)) := by simp [render]
      rw [spelled]
      by_cases flat : inner.groups = []
      · obtain ⟨noGroup, same⟩ := render_swept_flat rest flat evaluated
        rw [hasOwnOperator_render, own_of_flat flat] at operator
        rw [sweep_flat (flat_render flat) operator evaluated, same]
        simp only [reducible, if_pos flat]
        refine ⟨by rw [texts, render, List.append_assoc], ?_, skipped⟩
        rw [List.length_cons, replaced, List.length_append, List.length_singleton]
        omega
      · obtain ⟨front, back, inside, frontFlat⟩ := first_group flat
        have notFound :
            groupLength ('(' :: (inner.render ++ ')' :: (rest.render ++ tail))) = 0 := by
          rw [inside, List.append_assoc, List.cons_append]
          exact groupLength_open frontFlat
        obtain ⟨innerTexts, innerReplaced, innerSkipped⟩ :=
          innerIH all.inside (')' :: (rest.render ++ tail))
        rw [sweep_skip (groupLength_other (by decide))] at innerTexts innerReplaced innerSkipped
        rw [sweep_skip notFound]
        simp only [swept, if_neg flat, reducible]
        refine ⟨?_, ?_, ?_⟩
        · rw [innerTexts, texts]
          simp [render]
        · rw [innerReplaced, replaced, List.length_append, Nat.add_assoc]
        · rw [innerSkipped, skipped]

theorem sweep_nil : sweep .group [] = ⟨[], [], []⟩ := by
  rw [sweep, Text.cut, Text.cutAfter]
  rfl

theorem evaluate_swept (all : nest.Reducible) (evaluated : evaluate nest.render = .ok value) :
    evaluate nest.swept.render = .ok value := by
  have swept := evaluate_sweep_group evaluated
  have texts := (sweep_render all []).1
  rw [List.append_nil, sweep_nil, List.append_nil] at texts
  rwa [texts] at swept

theorem own_swept (operator : nest.own.any isOperator = true) :
    nest.swept.own.any isOperator = true := by
  induction nest with
  | done => contradiction
  | plain text flat rest ih =>
      simp only [own, swept, List.any_append, Bool.or_eq_true] at operator ⊢
      rcases operator with here | later
      · exact .inl here
      · exact .inr (ih later)
  | group inner rest innerIH restIH =>
      have later := restIH operator
      simp only [swept]
      split
      · split
        · rw [own, List.any_append, later, Bool.or_true]
        · exact later
      · exact later

theorem Reducible.swept (all : nest.Reducible) : nest.swept.Reducible := by
  induction nest with
  | done => exact all
  | plain text flat rest ih => exact ih all
  | group inner rest innerIH restIH =>
      obtain ⟨operator, value, evaluated⟩ := all inner.render (by simp [groups])
      by_cases flat : inner.groups = []
      · obtain ⟨noGroup, same⟩ := render_swept_flat rest flat evaluated
        rw [same]
        exact restIH all.behind
      · intro text member
        simp only [Nest.swept, if_neg flat, groups, List.cons_append, List.mem_cons,
          List.mem_append] at member
        rcases member with rfl | inInner | inRest
        · rw [hasOwnOperator_render] at operator ⊢
          exact ⟨own_swept operator, value, evaluate_swept all.inside evaluated⟩
        · exact innerIH all.inside text inInner
        · exact restIH all.behind text inRest

theorem length_groups_swept (all : nest.Reducible) :
    nest.swept.groups.length + nest.reducible.length = nest.groups.length := by
  induction nest with
  | done => rfl
  | plain text flat rest ih => exact ih all
  | group inner rest innerIH restIH =>
      obtain ⟨operator, value, evaluated⟩ := all inner.render (by simp [groups])
      have later := restIH all.behind
      by_cases flat : inner.groups = []
      · obtain ⟨noGroup, same⟩ := render_swept_flat rest flat evaluated
        rw [same]
        simp only [groups, reducible, flat, if_true, List.length_cons, List.length_append,
          List.length_nil]
        omega
      · have inside := innerIH all.inside
        simp only [Nest.swept, groups, reducible, if_neg flat, List.length_cons,
          List.length_append]
        omega

theorem reducible_nonempty (nested : nest.groups ≠ []) : nest.reducible ≠ [] := by
  induction nest with
  | done => contradiction
  | plain text flat rest ih => exact ih nested
  | group inner rest innerIH restIH =>
      rw [reducible]
      split
      · simp
      · rename_i nested
        simp [innerIH nested]

end Nest

open Nest

theorem sweeps_plain (flat : ∀ c ∈ text, isParenthesis c = false) (limit : Nat) :
    sweeps .group (limit + 1) text = ⟨text, [], []⟩ := by
  have swept := sweep_plain [] flat
  rw [List.append_nil, sweep_nil, List.append_nil] at swept
  rw [sweeps, swept]
  rfl

theorem sweeps_group {inner : Nest} (limit : Nat) (all : (group inner .done).Reducible)
    (evaluated : evaluate inner.render = .ok value)
    (enough : (group inner .done).groups.length < limit) :
    ∃ replaced, sweeps .group limit (group inner .done).render = ⟨value.text, replaced, []⟩ ∧
      replaced.length = (group inner .done).groups.length := by
  induction limit generalizing inner with
  | zero => exact absurd enough (Nat.not_lt_zero _)
  | succ limit ih =>
      obtain ⟨texts, replaced, skipped⟩ := sweep_render all []
      rw [List.append_nil, sweep_nil] at texts replaced skipped
      rw [List.append_nil] at texts
      have fewer := length_groups_swept all
      have some : (group inner .done).reducible ≠ [] := reducible_nonempty (by simp [groups])
      have positive := List.length_pos_iff.mpr some
      have goesOn : (sweep .group (group inner .done).render).replaced.isEmpty = false := by
        rw [List.isEmpty_eq_false_iff]
        exact List.ne_nil_of_length_pos (by rw [replaced]; omega)
      have later : ∃ replaced, sweeps .group limit (group inner .done).swept.render =
          ⟨value.text, replaced, []⟩ ∧
            replaced.length = (group inner .done).swept.groups.length := by
        -- Once the outermost group is flat, this sweep has written the value.
        by_cases flat : inner.groups = []
        · obtain ⟨noGroup, same⟩ := render_swept_flat .done flat evaluated
          obtain ⟨limit, rfl⟩ : ∃ fewer, limit = fewer + 1 :=
            Nat.exists_eq_add_one_of_ne_zero (by omega)
          rw [same]
          simp only [Nest.swept, render, List.append_nil, groups]
          exact ⟨[], sweeps_plain noGroup limit, rfl⟩
        · have kept : (group inner .done).swept = .group inner.swept .done := by
            simp only [Nest.swept, if_neg flat]
          rw [kept]
          have swept := all.swept
          rw [kept] at swept fewer
          exact ih swept (evaluate_swept all.inside evaluated) (by omega)
      obtain ⟨others, reduction, length⟩ := later
      refine ⟨(sweep .group (group inner .done).render).replaced ++ others, ?_, ?_⟩
      · simp only [sweeps, goesOn, Bool.false_eq_true, if_false, texts, reduction]
      · rw [List.length_append, replaced, length, List.length_nil]
        omega

theorem settle_bare_text (finite : value.isFinite = true) :
    settle .bare value.text = ⟨value.text, [], []⟩ := by
  rw [settle, sweepLimit, sweeps, sweep, cut_bare_text finite]
  rfl

/-- When every group of an expression in parentheses, the outermost included, has an
operator of its own and a value, reducing it writes the value of the expression, skips
nothing, and replaces each group once. -/
theorem reduce_group {expression : Text} (evaluated : evaluate expression = .ok value)
    (each : ∀ inner ∈ groupsIn ('(' :: expression ++ [')']),
      hasOwnOperator inner = true ∧ ∃ own, evaluate inner = .ok own) :
    (reduce ('(' :: expression ++ [')'])).text = value.text ∧
    (reduce ('(' :: expression ++ [')'])).skipped = [] ∧
    (reduce ('(' :: expression ++ [')'])).replaced.length =
      (groupsIn ('(' :: expression ++ [')'])).length := by
  obtain ⟨inner, rfl⟩ := Nest.of_evaluate evaluated
  have found : groupsIn (group inner .done).render = (group inner .done).groups := by
    have all := (group inner .done).groupsIn_render []
    rwa [List.append_nil, groupsIn, List.append_nil] at all
  have spelled : '(' :: inner.render ++ [')'] = (group inner .done).render := rfl
  rw [spelled, found] at each ⊢
  have enough :
      (group inner .done).groups.length < sweepLimit .group (group inner .done).render := by
    rw [sweepLimit, count_render]
    omega
  obtain ⟨replaced, reduced, length⟩ := sweeps_group _ each evaluated enough
  have settled : settle .group (group inner .done).render = ⟨value.text, replaced, []⟩ := reduced
  have finite := (evaluate_eq_ok_iff.mp evaluated).1
  have reduction : reduce (group inner .done).render = ⟨value.text, replaced ++ [], [] ++ []⟩ := by
    rw [reduce, settled]
    dsimp only
    rw [settle_bare_text finite]
  rw [reduction, List.append_nil]
  exact ⟨rfl, rfl, length⟩

theorem reduce_group_product :
    let product : Text := ['2', '*', '(', '1', '-', '4', ')']
    evaluate product = .ok (Binary64.ofCounts 6 1).neg ∧
    (∀ inner ∈ groupsIn ('(' :: product ++ [')']),
      hasOwnOperator inner = true ∧ ∃ own, evaluate inner = .ok own) ∧
    (reduce ('(' :: product ++ [')'])).text = ['-', '6', '.', '0'] := by
  intro product
  have outer : evaluate product = .ok (Binary64.ofCounts 6 1).neg := by decide +kernel
  have inner : evaluate ['1', '-', '4'] = .ok (Binary64.ofCounts 3 1).neg := by decide +kernel
  have each : ∀ inner ∈ groupsIn ('(' :: product ++ [')']),
      hasOwnOperator inner = true ∧ ∃ own, evaluate inner = .ok own := by
    have found : groupsIn ('(' :: product ++ [')']) = [product, ['1', '-', '4']] := by decide
    rw [found]
    intro text member
    rcases List.mem_cons.mp member with rfl | rest
    · exact ⟨by decide, _, outer⟩
    · obtain rfl := List.mem_singleton.mp rest
      exact ⟨by decide, _, inner⟩
  have written : (Binary64.ofCounts 6 1).neg.text = ['-', '6', '.', '0'] := by decide +kernel
  exact ⟨outer, each, (reduce_group outer each).1.trans written⟩

end ProseTree.Expression
