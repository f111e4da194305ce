import ProseTree.Proofs.Expression.Barrier
import ProseTree.Proofs.Expression.Foreign

namespace ProseTree.Expression

/-! Reducing a reduced text.

Groups are settled before bare expressions, and the bare reduction can turn the inside of a
group that had no value into an expression.  Nobody looks at that group again in the same
reduction, but the next one replaces it.  A reduced text is reduced again to itself exactly
when there is no such group. -/

open Text

variable {text left right inner occurrence : Text} {c : Char} {value : Binary64} {rounds : Nat}

theorem IsGroup.length_cut (group : IsGroup occurrence inner) (right : Text) :
    groupLength (occurrence ++ right) = inner.length + 1 + 1 := by
  have around : occurrence ++ right = '(' :: (inner ++ ')' :: right) := by simp [group.spelled]
  rw [around, groupLength_flat group.flat group.operator]

/-- A group that begins before another one ends before it. -/
theorem groupLength_le_of_group (group : IsGroup occurrence inner) (left right : Text)
    (nonempty : left ≠ []) : groupLength (left ++ (occurrence ++ right)) ≤ left.length := by
  by_contra reaches
  obtain ⟨d, front, rfl⟩ := List.exists_cons_of_ne_nil nonempty
  obtain ⟨more, further⟩ := Nat.exists_eq_add_of_lt (Nat.lt_of_not_le reaches)
  obtain ⟨own, ownGroup⟩ := @isGroup_take (d :: front ++ (occurrence ++ right)) (by omega)
  have taken : d :: front ++ '(' :: (inner ++ [')'] ++ right).take more = '(' :: own ++ [')'] := by
    have spelled := ownGroup.spelled
    rw [further, Nat.add_assoc, List.take_length_add_append, group.spelled] at spelled
    exact spelled
  have behind : front ++ '(' :: (inner ++ [')'] ++ right).take more = own ++ [')'] :=
    (List.cons.inj taken).2
  have opens : '(' ∈ own ++ [')'] := by
    rw [← behind]
    simp
  rcases List.mem_append.mp opens with inside | last
  · exact absurd (ownGroup.flat '(' inside) (by decide)
  · exact absurd last (by decide)

theorem IsGroup.takenBy (group : IsGroup occurrence inner) (left right : Text) :
    TakenBy Style.group.rule left occurrence right where
  nonempty := by simp [group.spelled]
  taken := by
    have length : Style.group.rule left.getLast? (occurrence ++ right) = occurrence.length :=
      (group.length_cut right).trans (by simp [group.spelled])
    rw [length, List.take_left]

theorem separate_group : Style.group.rule.Separate := by
  intro front back occurrence right nonempty taken
  obtain ⟨inner, group⟩ := isGroup_of_takenBy taken
  exact groupLength_le_of_group group back right nonempty

theorem mem_cut_group_iff : occurrence ∈ (text.cut Style.group.rule).occurrences ↔
    ∃ left inner right, text = left ++ (occurrence ++ right) ∧ IsGroup occurrence inner := by
  rw [separate_group.mem_occurrences_iff]
  constructor
  · rintro ⟨left, right, whole, taken⟩
    obtain ⟨inner, group⟩ := isGroup_of_takenBy taken
    exact ⟨left, inner, right, whole, group⟩
  · rintro ⟨left, inner, right, whole, group⟩
    exact ⟨left, right, whole, group.takenBy left right⟩

/-- What is skipped when groups are settled are the groups that are left. -/
theorem exists_skipped_iff (text inner : Text) :
    (∃ skipped ∈ (settle .group text).skipped, skipped.expression = inner) ↔
      ∃ left right, (settle .group text).text = left ++ '(' :: (inner ++ ')' :: right) ∧
        (∀ c ∈ inner, isParenthesis c = false) ∧ inner.any isOperator = true := by
  have last := sweep_settle .group text
  have nothing : (sweep .group (settle .group text).text).replaced = [] := by rw [last]
  have reported := skipped_of_replaced_nil nothing
  rw [last] at reported
  rw [← List.mem_map, reported, List.mem_map]
  constructor
  · rintro ⟨occurrence, member, rfl⟩
    obtain ⟨left, own, right, whole, group⟩ := mem_cut_group_iff.mp member
    rw [group.expression]
    exact ⟨left, right, by simp [whole, group.spelled], group.flat, group.operator⟩
  · rintro ⟨left, right, whole, flat, operator⟩
    have group : IsGroup ('(' :: inner ++ [')']) inner := ⟨rfl, flat, operator⟩
    exact ⟨_, mem_cut_group_iff.mpr ⟨left, inner, right, by simp [whole], group⟩, group.expression⟩

theorem settle_of_noOperator (noOperator : ∀ c ∈ text, isOperator c = false) :
    (settle .bare text).text = text := by
  have nothing : (sweep .bare text).replaced = [] := by
    apply replaced_eq_nil_iff.mpr
    intro occurrence member
    obtain ⟨left, right, whole, taken⟩ := (each_cut text).exists_of_mem member
    obtain ⟨stop, isEnd, -⟩ := exists_end_of_takenBy taken
    rw [List.nil_append, join_cut, List.append_assoc] at whole
    rw [bareEnds_eq_nil] at isEnd
    · contradiction
    · exact fun c inside => noOperator c (by simp [whole, List.mem_append.mp inside])
  exact settle_text_of_sweep nothing

theorem any_isOperator_of_settle (operator : (settle .bare text).text.any isOperator = true) :
    text.any isOperator = true := by
  by_contra none
  have noOperator : ∀ c ∈ text, isOperator c = false := by simpa using none
  rw [settle_of_noOperator noOperator] at operator
  exact none operator

theorem flat_of_flat_settle (flat : ∀ c ∈ (settle .bare text).text, isParenthesis c = false) :
    ∀ c ∈ text, isParenthesis c = false := by
  intro c member
  rw [Bool.eq_false_iff]
  intro parenthesis
  have counted := @count_settle c .bare text parenthesis
  have some := List.count_pos_iff.mpr member
  rw [count_flat flat parenthesis, Style.pairs] at counted
  omega

/-- The groups of a reduced text are the skipped groups with their insides reduced. -/
theorem groups_reduce : (sweep .group (reduce text).text).replaced = [] ↔
    ∀ skipped ∈ (settle .group text).skipped,
      (reduce skipped.expression).text.any isOperator = true →
        ∀ value, evaluate (reduce skipped.expression).text ≠ .ok value := by
  rw [sweep, replaced_eq_nil_iff]
  constructor
  · intro none skipped member operator
    obtain ⟨left, right, whole, flat, -⟩ :=
      (exists_skipped_iff text skipped.expression).mp ⟨skipped, member, rfl⟩
    rw [reduce_plain flat] at operator ⊢
    have reduced : (reduce text).text = (settle .bare left).text ++
        '(' :: ((settle .bare skipped.expression).text ++ ')' :: (settle .bare right).text) := by
      rw [reduce]
      dsimp only
      rw [whole, settle_parenthesis rfl, settle_parenthesis rfl]
    have group : IsGroup ('(' :: (settle .bare skipped.expression).text ++ [')'])
        (settle .bare skipped.expression).text := ⟨rfl, flat_settle .bare flat, operator⟩
    have here := none _ (mem_cut_group_iff.mpr ⟨(settle .bare left).text, _,
      (settle .bare right).text, by simp [reduced], group⟩)
    rwa [group.expression] at here
  · intro none occurrence member
    obtain ⟨left, own, right, whole, group⟩ := mem_cut_group_iff.mp member
    have settled : (settle .bare (settle .group text).text).text =
        left ++ '(' :: (own ++ ')' :: right) := whole.trans (by simp [group.spelled])
    obtain ⟨front, behind, isFront, -, further⟩ := exists_parts rfl settled
    obtain ⟨inner, back, isBehind, rfl, -⟩ := exists_parts rfl further
    have flat := flat_of_flat_settle group.flat
    obtain ⟨skipped, found, rfl⟩ := (exists_skipped_iff text inner).mpr
      ⟨front, back, by rw [isFront, isBehind], flat, any_isOperator_of_settle group.operator⟩
    have here := none skipped found
    rw [reduce_plain flat] at here
    rw [group.expression]
    exact here group.operator

theorem reduce_reduce_eq_iff : (reduce (reduce text).text).text = (reduce text).text ↔
    (sweep .group (reduce text).text).replaced = [] := by
  constructor
  · intro same
    have counted := @count_reduce '(' (reduce text).text rfl
    rw [same] at counted
    have noGroup : (settle .group (reduce text).text).replaced = [] :=
      List.length_eq_zero_iff.mp (by omega)
    exact sweep_replaced_nil noGroup
  · intro nothing
    have groups := settle_text_of_sweep nothing
    have settled : (sweep .bare (reduce text).text).replaced = [] :=
      congrArg Reduction.replaced (settled_settle (settle .group text).text)
    rw [reduce, groups]
    exact settle_text_of_sweep settled

/-- A round that does not keep a reduced text replaces a group of it. -/
theorem count_reduce_reduce (changed : (reduce (reduce text).text).text ≠ (reduce text).text) :
    (reduce (reduce text).text).text.count '(' < (reduce text).text.count '(' := by
  have counted := @count_reduce '(' (reduce text).text rfl
  have some : (settle .group (reduce text).text).replaced ≠ [] :=
    fun nothing => changed (reduce_reduce_eq_iff.mpr (sweep_replaced_nil nothing))
  have positive := List.length_pos_iff.mpr some
  omega

theorem isFixedPt_rounds (enough : (reduce text).text.count '(' ≤ rounds) :
    Function.IsFixedPt (fun text => (reduce text).text)
      ((fun text => (reduce text).text)^[rounds + 1] text) := by
  induction rounds generalizing text with
  | zero =>
      by_contra changed
      have fewer := count_reduce_reduce changed
      omega
  | succ rounds ih =>
      rw [Function.iterate_succ_apply]
      by_cases same : (reduce (reduce text).text).text = (reduce text).text
      · have kept : Function.IsFixedPt (fun text => (reduce text).text) (reduce text).text := same
        rwa [(kept.iterate (rounds + 1)).eq]
      · have fewer := count_reduce_reduce same
        exact ih (by omega)

theorem not_value_of_skipped {skipped : Skipped} (member : skipped ∈ (settle .group text).skipped)
    (kept : foreign skipped.expression ≠ [] ∨ (reduce skipped.expression).replaced = []) :
    ∀ value, evaluate (reduce skipped.expression).text ≠ .ok value := by
  intro value evaluated
  rcases kept with some | nothing
  · have none := foreign_of_evaluate evaluated
    rw [foreign_reduce] at none
    exact some none
  · rw [reduce_text_of_replaced_nil nothing, evaluate_skipped member] at evaluated
    contradiction

/-- A text is reduced by its first reduction, exactly when no group that was skipped becomes an
expression with a value by the reduction of its inside.  It never does when there is a foreign
character in it, or nothing to reduce.  In any case, a text is reduced for good by one round
more than it has opening parentheses. -/
theorem reduce_reduce (text : Text) :
    ((reduce (reduce text).text).text = (reduce text).text ↔
      ∀ skipped ∈ (settle .group text).skipped,
        (reduce skipped.expression).text.any isOperator = true →
          ∀ value, evaluate (reduce skipped.expression).text ≠ .ok value) ∧
    ((∀ skipped ∈ (settle .group text).skipped,
        foreign skipped.expression ≠ [] ∨ (reduce skipped.expression).replaced = []) →
      (reduce (reduce text).text).text = (reduce text).text) ∧
    ∀ rounds > text.count '(', Function.IsFixedPt (fun text => (reduce text).text)
      ((fun text => (reduce text).text)^[rounds] text) := by
  have exactly := reduce_reduce_eq_iff.trans (@groups_reduce text)
  refine ⟨exactly, ?_, ?_⟩
  · intro kept
    exact exactly.mpr fun skipped member _ => not_value_of_skipped member (kept skipped member)
  · intro rounds enough
    obtain ⟨more, rfl⟩ := Nat.exists_eq_add_of_lt enough
    apply isFixedPt_rounds
    have counted := @count_reduce '(' text rfl
    omega

/-- The letter keeps a value from the first group, and in the second there is nothing to reduce.
The group of the other text is replaced in the second round. -/
theorem reduce_reduce_foreign :
    let letters : Text := ['(', '2', '+', '2', 'x', ')', ' ', '(', '0', '*', ')']
    let signs : Text := ['(', '1', ' ', '2', '-', '4', ')']
    (∀ skipped ∈ (settle .group letters).skipped,
      foreign skipped.expression ≠ [] ∨ (reduce skipped.expression).replaced = []) ∧
    (reduce (reduce letters).text).text = (reduce letters).text ∧
    2 > signs.count '(' ∧
    Function.IsFixedPt (fun text => (reduce text).text)
      ((fun text => (reduce text).text)^[2] signs) := by
  intro letters signs
  have kept : ∀ skipped ∈ (settle .group letters).skipped,
      foreign skipped.expression ≠ [] ∨ (reduce skipped.expression).replaced = [] := by
    decide +kernel
  have enough : 2 > signs.count '(' := by decide
  exact ⟨kept, (reduce_reduce letters).2.1 kept, enough, (reduce_reduce signs).2.2 2 enough⟩

/-- The inside of the group becomes a number with a sign, which makes it an expression. -/
theorem reduce_reduce_group : ¬∀ text : Text,
    (reduce (reduce text).text).text = (reduce text).text := by
  intro always
  have same := always ['(', '1', ' ', '2', '-', '4', ')']
  have once : (reduce ['(', '1', ' ', '2', '-', '4', ')']).text = ['(', '-', '1', '.', '0', ')'] := by
    decide +kernel
  have twice : (reduce ['(', '-', '1', '.', '0', ')']).text = ['-', '1', '.', '0'] := by
    decide +kernel
  rw [once, twice] at same
  contradiction

end ProseTree.Expression
