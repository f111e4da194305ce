import Mathlib.Data.List.DropRight
import ProseTree.Proofs.Expression.Passage

namespace ProseTree.Expression

/-! What stands around a bare expression.

Reading a bare expression by itself gives a value that the whole text may not give it:
a sign or a factor beside it belongs to one of its numbers only.  It stands clear when
nothing beside it can do so. -/

def isSign (c : Char) : Bool := c == '+' || c == '-'

def isSignOrGap (c : Char) : Bool := isSign c || isGap c

/-- The character before the signs and gaps at the end of the text. -/
def beforeSigns (text : Text) : Option Char := (text.rdropWhile isSignOrGap).getLast?

/-- The character behind the gaps at the head of the text. -/
def behindGaps (text : Text) : Option Char := (text.dropWhile isGap).head?

/-- A sum has a value of its own where an operand is due that no sign changes, and where
its last term is not multiplied or divided.  A product has one unless it is a divisor or
a factor itself.  A point would belong to the number beside it. -/
structure StandsClear (left occurrence right : Text) : Prop where
  pointBefore : left.getLast? ≠ some '.'
  pointBehind : right.head? ≠ some '.'
  product : occurrence.any isSign = false →
    beforeSigns left ≠ some '*' ∧ beforeSigns left ≠ some '/'
  sumBefore : occurrence.any isSign = true →
    (beforeSigns left = none ∨ beforeSigns left = some '(') ∧
      (left.rtakeWhile isSignOrGap).count '-' % 2 = 0
  sumBehind : occurrence.any isSign = true →
    behindGaps right ≠ some '*' ∧ behindGaps right ≠ some '/'

variable {text left front signs : Text} {spelled : List Terminal} {c : Char}
  {terminal : Terminal} {reading next last : Reading} {groups : List OpenGroup}
  {before : Pending} {sum : Option (Binary64 × SumOp)} {term value : Binary64}

theorem sign_of_ofChar? (found : Terminal.ofChar? c = some terminal)
    (made : isSignOrGap c = true) :
    (c = '+' ∧ terminal = .plus) ∨ (c = '-' ∧ terminal = .minus) := by
  rw [isSignOrGap, not_isGap_of_ofChar? found, Bool.or_false, isSign, Bool.or_eq_true, beq_iff_eq,
    beq_iff_eq] at made
  rcases made with rfl | rfl
  · exact .inl ⟨rfl, (Option.some.inj found).symm⟩
  · exact .inr ⟨rfl, (Option.some.inj found).symm⟩

theorem not_isNumeral_of_isSignOrGap (made : isSignOrGap c = true) : isNumeral c = false := by
  rw [isSignOrGap, Bool.or_eq_true] at made
  rcases made with sign | gap
  · rw [isSign, Bool.or_eq_true, beq_iff_eq, beq_iff_eq] at sign
    rcases sign with rfl | rfl <;> decide
  · exact not_isNumeral_of_isGap gap

theorem odd_succ (count : Nat) : decide ((count + 1) % 2 = 1) = !decide (count % 2 = 1) := by
  rcases Nat.mod_two_eq_zero_or_one count with even | odd
  · have next : (count + 1) % 2 = 1 := by omega
    simp [even, next]
  · have next : (count + 1) % 2 = 0 := by omega
    simp [odd, next]

namespace Reading

theorem follows_signs (lexes : Lexes signs spelled)
    (follows : (operand groups before).Follows spelled next)
    (made : ∀ c ∈ signs, isSignOrGap c = true) :
    next = operand groups
      { before with negative := before.negative ^^ decide (signs.count '-' % 2 = 1) } := by
  induction lexes generalizing before with
  | done =>
      rw [← follows_nil.mp follows]
      simp
  | @gap c text spelled isGap rest ih =>
      have other : c ≠ '-' := by
        rintro rfl
        contradiction
      rw [List.count_cons_of_ne other]
      exact ih follows fun d member => made d (by simp [member])
  | @symbol c text terminal spelled found rest ih =>
      obtain ⟨middle, stepped, follows⟩ := follows_cons.mp follows
      have later := fun d member => made d (List.mem_cons_of_mem c member)
      rcases sign_of_ofChar? found (made c (by simp)) with ⟨rfl, rfl⟩ | ⟨rfl, rfl⟩
      · obtain rfl : operand groups before = middle := Except.ok.inj stepped
        rw [List.count_cons_of_ne (by decide)]
        exact ih follows later
      · obtain rfl : operand groups (before.behind .minus) = middle := Except.ok.inj stepped
        rw [ih follows later, List.count_cons_self, odd_succ]
        simp [Pending.behind]
  | @numeral run text spelled nonempty isRun stops rest ih =>
      obtain ⟨c, run, rfl⟩ := List.exists_cons_of_ne_nil nonempty
      have numeral := isRun c (by simp)
      rw [not_isNumeral_of_isSignOrGap (made c (by simp))] at numeral
      contradiction

/-- No factor waits for the operand to come. -/
def NoFactor (reading : Reading) : Prop :=
  ∀ groups before, reading = operand groups before → before.product = none

theorem noFactor_signs (lexes : Lexes signs spelled) (follows : reading.Follows spelled next)
    (made : ∀ c ∈ signs, isSignOrGap c = true) (noFactor : reading.NoFactor) : next.NoFactor := by
  induction lexes generalizing reading with
  | done =>
      rw [← follows_nil.mp follows]
      exact noFactor
  | gap isGap rest ih => exact ih follows (fun d member => made d (by simp [member])) noFactor
  | @symbol c text terminal spelled found rest ih =>
      obtain ⟨middle, stepped, follows⟩ := follows_cons.mp follows
      refine ih follows (fun d member => made d (List.mem_cons_of_mem c member)) ?_
      obtain ⟨sign, rfl⟩ : ∃ sign : SumOp, terminal = sign.terminal := by
        rcases sign_of_ofChar? found (made c (by simp)) with ⟨-, rfl⟩ | ⟨-, rfl⟩
        · exact ⟨.plus, rfl⟩
        · exact ⟨.minus, rfl⟩
      cases reading with
      | operand groups before =>
          rw [step_sign sign (Terminal.terminal_token _)] at stepped
          obtain rfl := Except.ok.inj stepped
          intro others pending same
          obtain ⟨rfl, rfl⟩ := Reading.operand.inj same
          have none := noFactor groups before rfl
          cases sign <;> exact none
      | operator groups sum term =>
          rw [step_sumOp sign (Terminal.terminal_token _)] at stepped
          obtain rfl := Except.ok.inj stepped
          intro others pending same
          obtain ⟨rfl, rfl⟩ := Reading.operand.inj same
          rfl
  | @numeral run text spelled nonempty isRun stops rest ih =>
      obtain ⟨c, run, rfl⟩ := List.exists_cons_of_ne_nil nonempty
      have numeral := isRun c (by simp)
      rw [not_isNumeral_of_isSignOrGap (made c (by simp))] at numeral
      contradiction

theorem Passes.opened (passes : reading.Passes (front ++ ['(']) next) :
    ∃ groups, next = operand groups .start := by
  obtain ⟨middle, -, passes⟩ := passes.split fun _ => rfl
  obtain ⟨groups, before, -, -, rfl⟩ := step_openParen_iff.mp ((passes_symbol rfl).mp passes)
  exact ⟨_, rfl⟩

theorem Passes.noFactor (passes : reading.Passes (front ++ [c]) next)
    (noSign : isSignOrGap c = false) (notTimes : c ≠ '*') (notOver : c ≠ '/') : next.NoFactor := by
  by_cases numeral : isNumeral c = true
  · obtain ⟨groups, sum, term, rfl⟩ := passes.operator_of_endsNumeral (by simpa using numeral)
    intro others pending same
    contradiction
  · have apart : Apart front [c] := fun _ => by simpa using numeral
    obtain ⟨middle, -, passes⟩ := passes.split apart
    obtain ⟨spelled, lexes, -⟩ := id passes
    rcases lexes.head_cases rfl with gap | isNumeral | ⟨terminal, found⟩
    · rw [isSignOrGap, gap, Bool.or_true] at noSign
      contradiction
    · contradiction
    · have stepped := (passes_symbol found).mp passes
      unfold Terminal.ofChar? at found
      split at found
      · contradiction
      · contradiction
      · contradiction
      · contradiction
      · obtain rfl := Option.some.inj found
        obtain ⟨groups, before, -, -, rfl⟩ := step_openParen_iff.mp stepped
        intro others pending same
        obtain ⟨rfl, rfl⟩ := Reading.operand.inj same
        rfl
      · obtain rfl := Option.some.inj found
        obtain ⟨group, outer, sum, term, -, closed⟩ := step_closeParen_iff.mp stepped
        obtain ⟨term, rfl⟩ := closeOperand_operator closed
        intro others pending same
        contradiction
      · contradiction

/-- The signs and gaps at the end of a text are read behind the text before them. -/
theorem Passes.split_signs (passes : reading.Passes left next) :
    ∃ middle, reading.Passes (left.rdropWhile isSignOrGap) middle ∧
      middle.Passes (left.rtakeWhile isSignOrGap) next := by
  have whole : left.rdropWhile isSignOrGap ++ left.rtakeWhile isSignOrGap = left :=
    List.rdropWhile_append_rtakeWhile
  rw [← whole] at passes
  refine passes.split fun _ => ?_
  cases found : left.rtakeWhile isSignOrGap with
  | nil => rfl
  | cons c signs =>
      have made : isSignOrGap c = true := List.mem_rtakeWhile_imp (by rw [found]; simp)
      exact not_isNumeral_of_isSignOrGap made

theorem Passes.noFactor_of_beforeSigns (passes : start.Passes left next)
    (notTimes : beforeSigns left ≠ some '*') (notOver : beforeSigns left ≠ some '/') :
    next.NoFactor := by
  obtain ⟨middle, toSigns, spelled, lexes, follows⟩ := passes.split_signs
  refine noFactor_signs lexes follows (fun c member => List.mem_rtakeWhile_imp member) ?_
  unfold beforeSigns at notTimes notOver
  by_cases empty : left.rdropWhile isSignOrGap = []
  · rw [empty] at toSigns
    obtain ⟨none, lexes, follows⟩ := toSigns
    obtain rfl := lexes.unique .done
    obtain rfl := follows_nil.mp follows
    intro groups before same
    obtain ⟨rfl, rfl⟩ := Reading.operand.inj same
    rfl
  · have noSign := List.rdropWhile_last_not isSignOrGap left empty
    rw [List.getLast?_eq_some_getLast empty] at notTimes notOver
    rw [← List.dropLast_concat_getLast empty] at toSigns
    exact toSigns.noFactor (by simpa using noSign) (by simpa using notTimes)
      (by simpa using notOver)

theorem Passes.start_of_beforeSigns (passes : start.Passes left (operand groups before))
    (atStart : beforeSigns left = none ∨ beforeSigns left = some '(')
    (even : (left.rtakeWhile isSignOrGap).count '-' % 2 = 0) : before = .start := by
  obtain ⟨middle, toSigns, spelled, lexes, follows⟩ := passes.split_signs
  have begins : ∃ groups, middle = operand groups .start := by
    rcases atStart with none | opened
    · rw [beforeSigns, List.getLast?_eq_none_iff] at none
      rw [none] at toSigns
      obtain ⟨none, lexes, follows⟩ := toSigns
      obtain rfl := lexes.unique .done
      exact ⟨[], (follows_nil.mp follows).symm⟩
    · obtain ⟨front, spelled⟩ := List.getLast?_eq_some_iff.mp opened
      rw [spelled] at toSigns
      exact toSigns.opened
  obtain ⟨others, rfl⟩ := begins
  have signs := follows_signs lexes follows fun c member => List.mem_rtakeWhile_imp member
  obtain ⟨-, rfl⟩ := Reading.operand.inj signs
  simp [Pending.start, even]

end Reading

end ProseTree.Expression
