import ProseTree.Proofs.Binary64.ReadBack
import ProseTree.Proofs.Expression.Acceptance
import ProseTree.Proofs.Expression.Lexing

namespace ProseTree.Expression

/-! Passages: pieces of an expression, each read from where the one before has led to.

A passage can be exchanged for another one that leads to the same reading.  The value of
a passage is written so that it can stand for it. -/

variable {text left right : Text} {spelled : List Terminal} {c : Char} {terminal : Terminal}
  {reading next last : Reading} {groups : List OpenGroup} {before : Pending}
  {sum : Option (Binary64 × SumOp)} {term value : Binary64}

/-- A token of the terminal, at no particular place. -/
def Terminal.token : Terminal → Token
  | .numeral text => ⟨.number, text, 0⟩
  | .plus => ⟨.plus, ['+'], 0⟩
  | .minus => ⟨.minus, ['-'], 0⟩
  | .star => ⟨.star, ['*'], 0⟩
  | .slash => ⟨.slash, ['/'], 0⟩
  | .openParen => ⟨.openParen, ['('], 0⟩
  | .closeParen => ⟨.closeParen, [')'], 0⟩

@[simp] theorem Terminal.terminal_token (terminal : Terminal) :
    terminal.token.terminal = terminal := by
  cases terminal <;> rfl

namespace Reading

def start : Reading := .operand [] .start

/-- The terminals lead from a reading to the next. -/
def Follows (reading : Reading) (spelled : List Terminal) (next : Reading) : Prop :=
  reading.steps (spelled.map Terminal.token) = .ok next

theorem follows_nil : reading.Follows [] next ↔ reading = next := by
  simp [Follows]

theorem follows_cons : reading.Follows (terminal :: spelled) last ↔
    ∃ next, reading.step terminal.token = .ok next ∧ next.Follows spelled last := by
  unfold Follows
  rw [List.map_cons, steps_cons]
  cases reading.step terminal.token with
  | error error => simp
  | ok next => simp

theorem follows_append {front back : List Terminal} : reading.Follows (front ++ back) last ↔
    ∃ next, reading.Follows front next ∧ next.Follows back last := by
  unfold Follows
  rw [List.map_append, steps_append]
  cases reading.steps (front.map Terminal.token) with
  | error error => simp
  | ok next => simp

/-- The text leads from a reading to the next. -/
def Passes (reading : Reading) (text : Text) (next : Reading) : Prop :=
  ∃ spelled, Lexes text spelled ∧ reading.Follows spelled next

theorem Passes.unique (first : reading.Passes text next) (second : reading.Passes text last) :
    next = last := by
  obtain ⟨spelled, lexes, follows⟩ := first
  obtain ⟨others, lexes', follows'⟩ := second
  obtain rfl := lexes.unique lexes'
  exact Except.ok.inj (follows.symm.trans follows')

theorem Passes.append (first : reading.Passes left next) (second : next.Passes right last)
    (apart : Apart left right) : reading.Passes (left ++ right) last := by
  obtain ⟨front, lexes, follows⟩ := first
  obtain ⟨back, lexes', follows'⟩ := second
  exact ⟨front ++ back, lexes.append lexes' apart, follows_append.mpr ⟨next, follows, follows'⟩⟩

theorem Passes.split (passes : reading.Passes (left ++ right) last) (apart : Apart left right) :
    ∃ next, reading.Passes left next ∧ next.Passes right last := by
  obtain ⟨spelled, lexes, follows⟩ := passes
  obtain ⟨front, back, rfl, inLeft, inRight⟩ := lexes.split rfl apart
  obtain ⟨next, first, second⟩ := follows_append.mp follows
  exact ⟨next, ⟨front, inLeft, first⟩, ⟨back, inRight, second⟩⟩

theorem passes_symbol (found : Terminal.ofChar? c = some terminal) :
    reading.Passes [c] next ↔ reading.step terminal.token = .ok next := by
  have lexes : Lexes [c] [terminal] := .symbol found .done
  constructor
  · rintro ⟨spelled, lexes', follows⟩
    obtain rfl := lexes'.unique lexes
    obtain ⟨middle, stepped, rest⟩ := follows_cons.mp follows
    rw [← follows_nil.mp rest]
    exact stepped
  · intro stepped
    exact ⟨[terminal], lexes, follows_cons.mpr ⟨next, stepped, follows_nil.mpr rfl⟩⟩

theorem step_openParen_iff : reading.step Terminal.openParen.token = .ok next ↔
    ∃ groups before, reading = operand groups before ∧ groups.length ≠ maxDepth ∧
      next = operand (⟨0, before⟩ :: groups) .start := by
  cases reading with
  | operand groups before =>
      simp only [step, readOperand, Terminal.token]
      constructor
      · intro read
        split at read
        · contradiction
        · rename_i shallow
          exact ⟨groups, before, rfl, shallow, (Except.ok.inj read).symm⟩
      · rintro ⟨_, _, same, shallow, rfl⟩
        obtain ⟨rfl, rfl⟩ := Reading.operand.inj same
        exact if_neg shallow
  | operator groups sum term => cases groups <;> simp [step, readOperator, Terminal.token]

theorem step_closeParen_iff : reading.step Terminal.closeParen.token = .ok next ↔
    ∃ group outer sum term, reading = operator (group :: outer) sum term ∧
      closeOperand outer group.before (closeSum sum term) = .ok next := by
  cases reading with
  | operand groups before => simp [step, readOperand, Terminal.token]
  | operator groups sum term =>
      cases groups with
      | nil => simp [step, readOperator, Terminal.token]
      | cons group outer =>
          simp only [step, readOperator, Terminal.token]
          constructor
          · exact fun closed => ⟨group, outer, sum, term, rfl, closed⟩
          · rintro ⟨_, _, _, _, same, closed⟩
            obtain ⟨⟨rfl, rfl⟩, rfl, rfl⟩ := by simpa using same
            exact closed

theorem step_numeral_inv (read : reading.step (Terminal.numeral text).token = .ok next) :
    ∃ groups before, reading = operand groups before ∧ IsNumeral text ∧
      closeOperand groups before (numeralValue text) = .ok next := by
  cases reading with
  | operand groups before =>
      rcases step_operand_cases read with ⟨sign, isSign, -⟩ | ⟨isOpen, -⟩ | ⟨text, same, found⟩
      · cases sign <;> simp [SumOp.terminal] at isSign
      · simp at isOpen
      · obtain rfl : _ = text := by simpa using same
        exact ⟨groups, before, rfl, found⟩
  | operator groups sum term => cases groups <;> simp [step, readOperator, Terminal.token] at read

theorem closeOperand_operator (closed : closeOperand groups before value = .ok next) :
    ∃ term, next = operator groups before.sum term := by
  unfold closeOperand at closed
  cases factor : closeFactor before.product (if before.negative then value.neg else value) with
  | error error => simp [factor, Except.map] at closed
  | ok term => exact ⟨term, by simpa [factor, Except.map] using closed.symm⟩

theorem Passes.operand_of_startsNumeral (passes : reading.Passes text last)
    (starts : startsNumeral text = true) : ∃ groups before, reading = operand groups before := by
  obtain ⟨spelled, lexes, follows⟩ := passes
  cases lexes with
  | done => contradiction
  | gap isGap rest =>
      rw [startsNumeral_cons, not_isNumeral_of_isGap isGap] at starts
      contradiction
  | symbol found rest =>
      rw [startsNumeral_cons, not_isNumeral_of_ofChar? found] at starts
      contradiction
  | numeral nonempty made stops rest =>
      obtain ⟨next, stepped, -⟩ := follows_cons.mp follows
      obtain ⟨groups, before, found, -⟩ := step_numeral_inv stepped
      exact ⟨groups, before, found⟩

theorem Passes.operator_of_endsNumeral (passes : reading.Passes text last)
    (ends : endsNumeral text = true) :
    ∃ groups sum term, last = operator groups sum term := by
  obtain ⟨spelled, lexes, follows⟩ := passes
  induction lexes generalizing reading with
  | done => contradiction
  | @gap c text spelled isGap rest ih =>
      refine ih ?_ follows
      cases text with
      | nil => simp [endsNumeral, not_isNumeral_of_isGap isGap] at ends
      | cons d text => exact ends
  | @symbol c text terminal spelled found rest ih =>
      obtain ⟨next, -, follows⟩ := follows_cons.mp follows
      refine ih ?_ follows
      cases text with
      | nil => simp [endsNumeral, not_isNumeral_of_ofChar? found] at ends
      | cons d text => exact ends
  | @numeral run text spelled nonempty made stops rest ih =>
      obtain ⟨next, stepped, follows⟩ := follows_cons.mp follows
      by_cases atEnd : text = []
      · subst atEnd
        obtain rfl := rest.unique .done
        obtain rfl := follows_nil.mp follows
        obtain ⟨groups, before, -, -, closed⟩ := step_numeral_inv stepped
        obtain ⟨term, found⟩ := closeOperand_operator closed
        exact ⟨groups, before.sum, term, found⟩
      · rw [endsNumeral_append atEnd] at ends
        exact ih ends follows

end Reading

/-- A text has a value when it is read as one complete sum. -/
theorem evaluate_eq_ok_iff : evaluate text = .ok value ↔ value.isFinite = true ∧
    ∃ sum term, Reading.start.Passes text (.operator [] sum term) ∧ closeSum sum term = value := by
  have placeless : ∀ found : List Token, valueOfTokens found = .ok value ↔
      valueOfTokens ((found.map Token.terminal).map Terminal.token) = .ok value := by
    intro found
    have same : ((found.map Token.terminal).map Terminal.token).map Token.terminal =
        found.map Token.terminal := by simp
    rw [valueOfTokens_eq_ok_iff, valueOfTokens_eq_ok_iff, same]
  have finishes : ∀ spelled : List Terminal,
      valueOfTokens (spelled.map Terminal.token) = .ok value ↔
        ∃ sum term, Reading.start.Follows spelled (.operator [] sum term) ∧
          closeSum sum term = value := by
    intro spelled
    unfold valueOfTokens Reading.Follows Reading.start
    cases (Reading.operand [] .start).steps (spelled.map Terminal.token) with
    | error error => simp
    | ok reading =>
        rcases reading with ⟨groups, before⟩ | ⟨groups, sum, term⟩
        · simp [Reading.finish]
        · cases groups with
          | cons group outer => simp [Reading.finish]
          | nil =>
              simp only [Reading.finish, Except.ok.injEq, Reading.operator.injEq, true_and]
              constructor
              · exact fun closed => ⟨sum, term, ⟨rfl, rfl⟩, closed⟩
              · rintro ⟨_, _, ⟨rfl, rfl⟩, closed⟩
                exact closed
  constructor
  · intro evaluated
    unfold evaluate at evaluated
    cases read : tokens text with
    | error error => simp [read] at evaluated
    | ok found =>
        cases valued : valueOfTokens found with
        | error error => simp [read, valued] at evaluated
        | ok result =>
            simp only [read, valued] at evaluated
            split at evaluated
            · rename_i finite
              obtain rfl : result = value := by simpa using evaluated
              obtain ⟨sum, term, follows, closed⟩ := (finishes _).mp ((placeless found).mp valued)
              exact ⟨finite, sum, term, ⟨_, .of_tokensFrom read, follows⟩, closed⟩
            · contradiction
  · rintro ⟨finite, sum, term, ⟨spelled, lexes, follows⟩, closed⟩
    obtain ⟨found, read, rfl⟩ := lexes.tokensFrom_eq 0
    have valued := (placeless found).mpr ((finishes _).mpr ⟨sum, term, follows, closed⟩)
    simp only [evaluate, tokens, read, valued, finite, if_true]

end ProseTree.Expression
