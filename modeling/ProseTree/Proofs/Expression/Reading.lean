import ProseTree.Proofs.Expression.Grammar

namespace ProseTree

/-! What one token does to a reading, in terms of the terminals of the grammar. -/

@[simp] theorem Binary64.neg_neg (value : Binary64) : value.neg.neg = value := by
  cases value <;> simp [neg]

namespace Expression

variable {token : Token} {groups outer : List OpenGroup} {group : OpenGroup}
  {before : Pending} {sum : Option (Binary64 × SumOp)} {term value : Binary64}
  {next : Reading} {text : Text}

def Terminal.kind : Terminal → TokenKind
  | .numeral _ => .number
  | .plus => .plus
  | .minus => .minus
  | .star => .star
  | .slash => .slash
  | .openParen => .openParen
  | .closeParen => .closeParen

@[simp] theorem Token.kind_terminal (token : Token) : token.terminal.kind = token.kind := by
  unfold terminal
  split <;> simp [Terminal.kind, *]

theorem Token.kind_of_terminal {terminal : Terminal} (found : token.terminal = terminal) :
    token.kind = terminal.kind := by
  rw [← found, kind_terminal]

theorem Token.slice_of_terminal (found : token.terminal = .numeral text) :
    token.slice = text := by
  unfold terminal at found
  split at found <;> simp_all

@[simp] theorem SumOp.terminal_ne_numeral (op : SumOp) : op.terminal ≠ .numeral text := by
  cases op <;> simp [terminal]

/-- Goes on with more tokens, unless something was wrong before. -/
def resume (reached : Except EvalError Reading) (rest : List Token) : Except EvalError Reading :=
  match reached with
  | .error error => .error error
  | .ok reading => reading.steps rest

@[simp] theorem resume_ok (reading : Reading) (rest : List Token) :
    resume (.ok reading) rest = reading.steps rest := rfl

@[simp] theorem resume_error (error : EvalError) (rest : List Token) :
    resume (.error error) rest = .error error := rfl

@[simp] theorem resume_nil (reached : Except EvalError Reading) : resume reached [] = reached := by
  cases reached <;> rfl

namespace Reading

@[simp] theorem steps_nil (reading : Reading) : reading.steps [] = .ok reading := rfl

theorem steps_cons (reading : Reading) (token : Token) (rest : List Token) :
    reading.steps (token :: rest) = resume (reading.step token) rest := rfl

theorem steps_append (reading : Reading) (left right : List Token) :
    reading.steps (left ++ right) = resume (reading.steps left) right := by
  induction left generalizing reading with
  | nil => rfl
  | cons token rest ih =>
      rw [List.cons_append, steps_cons, steps_cons]
      cases reading.step token with
      | error error => rfl
      | ok next => exact ih next

end Reading

/-- What stands before the operand when one more sign does. -/
def Pending.behind (before : Pending) : SumOp → Pending
  | .plus => before
  | .minus => { before with negative := !before.negative }

theorem closeOperand_behind (sign : SumOp) :
    closeOperand groups (before.behind sign) value =
      closeOperand groups before (sign.sign value) := by
  cases sign with
  | plus => rfl
  | minus =>
      cases negative : before.negative <;>
        simp [closeOperand, Pending.behind, SumOp.sign, negative]

theorem closeFactor_some (left factor : Binary64) (op : ProductOp) :
    closeFactor (some (left, op)) factor =
      match op.compute? left factor with
      | none => .error .divisionByZero
      | some product => .ok product := by
  cases op
  · rfl
  · cases zero : factor.isZero <;> simp [closeFactor, ProductOp.compute?, zero]

@[simp] theorem closeSum_none : closeSum none term = term := rfl

@[simp] theorem closeSum_some (left : Binary64) (op : SumOp) :
    closeSum (some (left, op)) term = op.compute left term := by
  cases op <;> rfl

namespace Reading

theorem step_sign (sign : SumOp) (found : token.terminal = sign.terminal) :
    (operand groups before).step token = .ok (operand groups (before.behind sign)) := by
  have kind := Token.kind_of_terminal found
  cases sign <;> simp [step, readOperand, kind, SumOp.terminal, Terminal.kind, Pending.behind]

theorem step_openParen (shallow : groups.length < maxDepth) (found : token.terminal = .openParen) :
    (operand groups before).step token =
      .ok (operand (⟨token.start, before⟩ :: groups) .start) := by
  have kind := Token.kind_of_terminal found
  have allowed : groups.length ≠ maxDepth := by omega
  simp only [step, readOperand, kind, Terminal.kind, if_neg allowed]

theorem step_numeral (numeral : IsNumeral text) (found : token.terminal = .numeral text) :
    (operand groups before).step token = closeOperand groups before (numeralValue text) := by
  have kind := Token.kind_of_terminal found
  obtain ⟨decimal, read⟩ := Decimal.read?_of_isNumeral numeral
  rw [numeralValue_eq read]
  simp only [step, readOperand, kind, Terminal.kind, Token.slice_of_terminal found, read]

/-- All that can be read where an operand is due. -/
theorem step_operand_cases (read : (operand groups before).step token = .ok next) :
    (∃ sign : SumOp, token.terminal = sign.terminal ∧
      next = operand groups (before.behind sign)) ∨
    (token.terminal = .openParen ∧ groups.length ≠ maxDepth ∧
      next = operand (⟨token.start, before⟩ :: groups) .start) ∨
    (∃ text, token.terminal = .numeral text ∧ IsNumeral text ∧
      closeOperand groups before (numeralValue text) = .ok next) := by
  simp only [step, readOperand] at read
  cases kind : token.kind with
  | plus =>
      refine .inl ⟨.plus, by simp [Token.terminal, kind, SumOp.terminal], ?_⟩
      simpa [kind, Pending.behind] using read.symm
  | minus =>
      refine .inl ⟨.minus, by simp [Token.terminal, kind, SumOp.terminal], ?_⟩
      simpa [kind, Pending.behind] using read.symm
  | openParen =>
      simp only [kind] at read
      split at read
      · contradiction
      · rename_i allowed
        exact .inr (.inl ⟨by simp [Token.terminal, kind], allowed, by simpa using read.symm⟩)
  | number =>
      simp only [kind] at read
      cases found : Decimal.read? token.slice with
      | none => simp [found] at read
      | some decimal =>
          refine .inr (.inr ⟨token.slice, by simp [Token.terminal, kind],
            Decimal.isNumeral_of_read? found, ?_⟩)
          rw [numeralValue_eq found]
          simpa only [kind, found] using read
  | star => simp [kind] at read
  | slash => simp [kind] at read
  | closeParen => simp [kind] at read

theorem step_sumOp (op : SumOp) (found : token.terminal = op.terminal) :
    (operator groups sum term).step token =
      .ok (operand groups ⟨some (closeSum sum term, op), none, false⟩) := by
  have kind := Token.kind_of_terminal found
  cases op <;> simp only [step, readOperator, kind, SumOp.terminal, Terminal.kind]

theorem step_productOp (op : ProductOp) (found : token.terminal = op.terminal) :
    (operator groups sum term).step token =
      .ok (operand groups ⟨sum, some (term, op), false⟩) := by
  have kind := Token.kind_of_terminal found
  cases op <;> simp only [step, readOperator, kind, ProductOp.terminal, Terminal.kind]

theorem step_closeParen (found : token.terminal = .closeParen) :
    (operator (group :: outer) sum term).step token =
      closeOperand outer group.before (closeSum sum term) := by
  have kind := Token.kind_of_terminal found
  simp only [step, readOperator, kind, Terminal.kind]

/-- All that can be read behind a complete operand. -/
theorem step_operator_cases (read : (operator groups sum term).step token = .ok next) :
    (∃ op : SumOp, token.terminal = op.terminal ∧
      next = operand groups ⟨some (closeSum sum term, op), none, false⟩) ∨
    (∃ op : ProductOp, token.terminal = op.terminal ∧
      next = operand groups ⟨sum, some (term, op), false⟩) ∨
    (∃ group outer, token.terminal = .closeParen ∧ groups = group :: outer ∧
      closeOperand outer group.before (closeSum sum term) = .ok next) := by
  simp only [step, readOperator] at read
  cases kind : token.kind with
  | plus =>
      refine .inl ⟨.plus, by simp [Token.terminal, kind, SumOp.terminal], ?_⟩
      simpa [kind] using read.symm
  | minus =>
      refine .inl ⟨.minus, by simp [Token.terminal, kind, SumOp.terminal], ?_⟩
      simpa [kind] using read.symm
  | star =>
      refine .inr (.inl ⟨.times, by simp [Token.terminal, kind, ProductOp.terminal], ?_⟩)
      simpa [kind] using read.symm
  | slash =>
      refine .inr (.inl ⟨.over, by simp [Token.terminal, kind, ProductOp.terminal], ?_⟩)
      simpa [kind] using read.symm
  | closeParen =>
      cases groups with
      | nil => simp [kind] at read
      | cons group outer =>
          refine .inr (.inr ⟨group, outer, by simp [Token.terminal, kind], rfl, ?_⟩)
          simpa [kind] using read
  | openParen => cases groups <;> simp [kind] at read
  | number => cases groups <;> simp [kind] at read

end Reading

end Expression

end ProseTree
