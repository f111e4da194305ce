import ProseTree.Expression.Reduce
import ProseTree.Proofs.Expression.Passage
import ProseTree.Proofs.Text.Segments

namespace ProseTree.Expression

/-! A group can be exchanged for its value, so reducing groups keeps the value of an
expression. -/

variable {text left right inner : Text} {spelled : List Terminal} {terminal : Terminal}
  {token : Token} {reading next last : Reading} {groups outer : List OpenGroup}
  {before : Pending} {sum : Option (Binary64 × SumOp)} {term value total : Binary64}

theorem isParenthesis_iff {c : Char} : isParenthesis c = true ↔ c = '(' ∨ c = ')' := by
  simp [isParenthesis]

theorem not_isParenthesis_of_isNumeral {c : Char} (numeral : isNumeral c = true) :
    isParenthesis c = false := by
  rw [Bool.eq_false_iff]
  intro parenthesis
  rcases isParenthesis_iff.mp parenthesis with rfl | rfl <;> contradiction

theorem not_isParenthesis_of_isGap {c : Char} (gap : isGap c = true) :
    isParenthesis c = false := by
  rw [Bool.eq_false_iff]
  intro parenthesis
  rcases isParenthesis_iff.mp parenthesis with rfl | rfl <;> contradiction

theorem ofChar?_cases {c : Char} (found : Terminal.ofChar? c = some terminal) :
    (c = '(' ∧ terminal = .openParen) ∨ (c = ')' ∧ terminal = .closeParen) ∨
      (isParenthesis c = false ∧ terminal ≠ .openParen ∧ terminal ≠ .closeParen) := by
  unfold Terminal.ofChar? at found
  split at found
  case h_7 => contradiction
  all_goals
    obtain rfl := Option.some.inj found
    decide

theorem lexes_text {negative : Bool} {whole fraction : Text}
    (written : value.Written negative whole fraction) :
    Lexes value.text ((if negative then [.minus] else []) ++
      [.numeral (whole ++ '.' :: fraction)]) := by
  have numeral : Lexes (whole ++ '.' :: fraction) [.numeral (whole ++ '.' :: fraction)] := by
    have alone := Lexes.numeral (by simp) written.numeral.run rfl .done
    rwa [List.append_nil] at alone
  rw [written.text_eq]
  cases negative with
  | false => exact numeral
  | true => exact .symbol rfl numeral

theorem noParenthesis_text (finite : value.isFinite = true) :
    ∀ c ∈ value.text, isParenthesis c = false := by
  obtain ⟨negative, whole, fraction, written⟩ := Binary64.written_of_isFinite finite
  intro c member
  rw [written.text_eq] at member
  rcases List.mem_append.mp member with sign | digits
  · cases negative with
    | false => contradiction
    | true =>
        obtain rfl := List.mem_singleton.mp sign
        decide
  · exact not_isParenthesis_of_isNumeral (written.numeral.run c digits)

/-- The text of a finite number is read as an operand with that number as its value. -/
theorem Reading.passes_text (finite : value.isFinite = true)
    (closed : closeOperand groups before value = .ok next) :
    (Reading.operand groups before).Passes value.text next := by
  obtain ⟨negative, whole, fraction, written⟩ := Binary64.written_of_isFinite finite
  refine ⟨_, lexes_text written, ?_⟩
  have reads := written.reads
  have one : ∀ before : Pending, (Reading.operand groups before).Follows
      [.numeral (whole ++ '.' :: fraction)] next ↔
      closeOperand groups before (numeralValue (whole ++ '.' :: fraction)) = .ok next := by
    intro before
    unfold Reading.Follows
    rw [List.map_singleton, Reading.steps_cons,
      Reading.step_numeral written.numeral (Terminal.terminal_token _), resume_nil]
  cases negative with
  | false =>
      refine (one before).mpr ?_
      rw [if_neg Bool.false_ne_true] at reads
      rwa [reads]
  | true =>
      refine Reading.follows_cons.mpr
        ⟨.operand groups (before.behind .minus), Reading.step_sign .minus rfl, ?_⟩
      refine (one _).mpr ?_
      rw [if_pos rfl] at reads
      rw [closeOperand_behind, SumOp.sign, reads]
      exact closed

namespace Reading

def within (outer : List OpenGroup) : Reading → Reading
  | .operand groups before => .operand (groups ++ outer) before
  | .operator groups sum term => .operator (groups ++ outer) sum term

theorem closeOperand_within (closed : closeOperand groups before value = .ok next) :
    closeOperand (groups ++ outer) before value = .ok (next.within outer) := by
  unfold closeOperand at closed ⊢
  cases factor : closeFactor before.product (if before.negative then value.neg else value) with
  | error error => simp [factor, Except.map] at closed
  | ok term =>
      obtain rfl : operator groups before.sum term = next := by
        simpa [factor, Except.map] using closed
      simp [Except.map, within, factor]

theorem step_within (stepped : reading.step token = .ok next)
    (flat : token.terminal ≠ .openParen) :
    (reading.within outer).step token = .ok (next.within outer) := by
  cases reading with
  | operand groups before =>
      rcases step_operand_cases stepped with
        ⟨sign, isSign, rfl⟩ | ⟨isOpen, -⟩ | ⟨text, isNumeral, numeral, closed⟩
      · exact step_sign sign isSign
      · exact absurd isOpen flat
      · rw [within, step_numeral numeral isNumeral]
        exact closeOperand_within closed
  | operator groups sum term =>
      rcases step_operator_cases stepped with
        ⟨op, isOp, rfl⟩ | ⟨op, isOp, rfl⟩ | ⟨group, others, isClose, rfl, closed⟩
      · exact step_sumOp op isOp
      · exact step_productOp op isOp
      · rw [within, List.cons_append, step_closeParen isClose]
        exact closeOperand_within closed

theorem Follows.within (follows : reading.Follows spelled last)
    (flat : ∀ terminal ∈ spelled, terminal ≠ .openParen) :
    (reading.within outer).Follows spelled (last.within outer) := by
  induction spelled generalizing reading with
  | nil =>
      rw [follows_nil.mp follows]
      exact follows_nil.mpr rfl
  | cons terminal rest ih =>
      obtain ⟨next, stepped, follows⟩ := follows_cons.mp follows
      refine follows_cons.mpr ⟨next.within outer, step_within stepped ?_, ih follows ?_⟩
      · rw [Terminal.terminal_token]
        exact flat terminal (by simp)
      · exact fun other member => flat other (by simp [member])

theorem noOpenParen_of_lexes (lexes : Lexes text spelled)
    (flat : ∀ c ∈ text, isParenthesis c = false) : ∀ terminal ∈ spelled, terminal ≠ .openParen := by
  rintro terminal member rfl
  rcases lexes.mem_cases member with ⟨run, numeral⟩ | ⟨c, inText, found⟩
  · contradiction
  · rcases ofChar?_cases found with ⟨rfl, -⟩ | ⟨-, other⟩ | ⟨-, noOpen, -⟩
    · exact absurd (flat '(' inText) (by decide)
    · contradiction
    · contradiction

theorem Passes.within (passes : reading.Passes text last)
    (flat : ∀ c ∈ text, isParenthesis c = false) :
    (reading.within outer).Passes text (last.within outer) := by
  obtain ⟨spelled, lexes, follows⟩ := passes
  exact ⟨spelled, lexes, follows.within (noOpenParen_of_lexes lexes flat)⟩

/-- A group without groups in it can be exchanged for the text of its value. -/
theorem Passes.exchange_group (passes : reading.Passes (left ++ '(' :: inner ++ ')' :: right) last)
    (flat : ∀ c ∈ inner, isParenthesis c = false) (evaluated : evaluate inner = .ok value) :
    reading.Passes (left ++ value.text ++ right) last := by
  obtain ⟨finite, sum, term, inside, closes⟩ := evaluate_eq_ok_iff.mp evaluated
  rw [show left ++ '(' :: inner ++ ')' :: right = left ++ (['('] ++ (inner ++ ([')'] ++ right)))
    by simp] at passes
  obtain ⟨atGroup, toGroup, passes⟩ := passes.split fun _ => rfl
  obtain ⟨opened, opening, passes⟩ := passes.split fun ends => by contradiction
  obtain ⟨read, reads, passes⟩ := passes.split fun _ => rfl
  obtain ⟨behind, closing, rest⟩ := passes.split fun ends => by contradiction
  obtain ⟨groups, before, rfl, -, rfl⟩ := step_openParen_iff.mp ((passes_symbol rfl).mp opening)
  obtain rfl := reads.unique (inside.within flat)
  obtain ⟨group, outer, sum, term, same, closed⟩ :=
    step_closeParen_iff.mp ((passes_symbol rfl).mp closing)
  obtain ⟨⟨rfl, rfl⟩, rfl, rfl⟩ := by simpa [within] using same
  rw [closes] at closed
  have valued := passes_text finite closed
  obtain ⟨term, rfl⟩ := closeOperand_operator closed
  rw [List.append_assoc]
  refine toGroup.append (valued.append rest ?_) ?_
  · intro _
    cases starts : startsNumeral right with
    | false => rfl
    | true =>
        obtain ⟨groups, before, found⟩ := rest.operand_of_startsNumeral starts
        contradiction
  · intro ends
    obtain ⟨groups, sum, term, found⟩ := toGroup.operator_of_endsNumeral ends
    contradiction

end Reading

theorem evaluate_exchange_group
    (evaluated : evaluate (left ++ '(' :: inner ++ ')' :: right) = .ok total)
    (flat : ∀ c ∈ inner, isParenthesis c = false) (own : evaluate inner = .ok value) :
    evaluate (left ++ value.text ++ right) = .ok total := by
  obtain ⟨finite, sum, term, passes, closes⟩ := evaluate_eq_ok_iff.mp evaluated
  exact evaluate_eq_ok_iff.mpr ⟨finite, sum, term, passes.exchange_group flat own, closes⟩

/-- A pair of parentheses with an operator and no other parenthesis between them. -/
structure IsGroup (occurrence inner : Text) : Prop where
  spelled : occurrence = '(' :: inner ++ [')']
  flat : ∀ c ∈ inner, isParenthesis c = false
  operator : inner.any isOperator = true

theorem isGroup_take (found : groupLength text ≠ 0) :
    ∃ inner, IsGroup (text.take (groupLength text)) inner := by
  unfold groupLength at found ⊢
  split at found
  · rename_i rest
    dsimp only at found ⊢
    have whole := List.prefix_iff_eq_append.mp
      (List.takeWhile_prefix (!isParenthesis ·) (l := rest))
    have flat : ∀ c ∈ rest.takeWhile (!isParenthesis ·), isParenthesis c = false := by
      intro c member
      simpa using List.mem_takeWhile_imp member
    generalize rest.takeWhile (!isParenthesis ·) = inner at found whole flat ⊢
    split at found
    · rename_i tail closes
      split at found
      · rename_i operator
        refine ⟨inner, ?_, flat, operator⟩
        rw [closes] at whole
        have length : ('(' :: inner ++ [')']).length = inner.length + 2 := by simp
        have split : '(' :: rest = '(' :: inner ++ [')'] ++ tail := by simp [← whole]
        simp only [operator, if_true]
        rw [split, ← length, List.take_left]
      · contradiction
    · contradiction
  · contradiction

theorem IsGroup.expression {occurrence : Text} (group : IsGroup occurrence inner) :
    Style.group.expression occurrence = inner := by
  rw [Style.expression, group.spelled, List.cons_append, List.drop_succ_cons, List.drop_zero,
    List.dropLast_concat]

theorem isGroup_of_takenBy {occurrence : Text}
    (taken : Text.TakenBy Style.group.rule left occurrence right) :
    ∃ inner, IsGroup occurrence inner := by
  have found : groupLength (occurrence ++ right) ≠ 0 := by
    intro nothing
    apply taken.nonempty
    rw [← taken.taken]
    exact congrArg (List.take · _) nothing
  have group := isGroup_take found
  have same : (occurrence ++ right).take (groupLength (occurrence ++ right)) = occurrence :=
    taken.taken
  rwa [same] at group

theorem each_cut_group (text : Text) : (text.cut Style.group.rule).Each
    (fun _ occurrence _ => ∃ inner, IsGroup occurrence inner) [] :=
  (Text.each_cut text).imp fun _ _ _ => isGroup_of_takenBy

theorem evaluate_substitute_group {segments : Segments}
    (groups : segments.Each (fun _ occurrence _ => ∃ inner, IsGroup occurrence inner) left)
    (evaluated : evaluate (left ++ segments.join) = .ok total) :
    evaluate (left ++ (substitute .group segments).text) = .ok total := by
  induction segments generalizing left with
  | last gap => exact evaluated
  | found gap occurrence rest ih =>
      obtain ⟨⟨inner, group⟩, groups⟩ := groups
      have later : evaluate (left ++ gap ++ occurrence ++ (substitute .group rest).text) =
          .ok total := by
        apply ih groups
        simpa [Segments.join] using evaluated
      simp only [substitute, group.expression]
      cases own : evaluate inner with
      | error error => simpa using later
      | ok value =>
          have around : left ++ gap ++ occurrence ++ (substitute .group rest).text =
              left ++ gap ++ '(' :: inner ++ ')' :: (substitute .group rest).text := by
            simp [group.spelled]
          rw [around] at later
          simpa using evaluate_exchange_group later group.flat own

theorem evaluate_sweep_group (evaluated : evaluate text = .ok total) :
    evaluate (sweep .group text).text = .ok total := by
  apply @evaluate_substitute_group [] _ _ (each_cut_group text)
  rwa [List.nil_append, Text.join_cut]

theorem evaluate_sweeps_group (limit : Nat) (evaluated : evaluate text = .ok total) :
    evaluate (sweeps .group limit text).text = .ok total := by
  induction limit generalizing text with
  | zero => exact evaluated
  | succ limit ih =>
      have swept := evaluate_sweep_group evaluated
      rw [sweeps]
      split
      · exact swept
      · exact ih swept

/-- Reducing the groups of an expression keeps its value. -/
theorem evaluate_settle_group (evaluated : evaluate text = .ok total) :
    evaluate (settle .group text).text = .ok total :=
  evaluate_sweeps_group _ evaluated

end ProseTree.Expression
