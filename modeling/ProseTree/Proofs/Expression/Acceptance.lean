import ProseTree.Proofs.Expression.Reading

namespace ProseTree.Expression

/-! Evaluation accepts what the grammar spells, and nothing else.

That every tree is read is shown along the tree; that everything read is a tree is shown
along the reading, whose states know the trees of what stands before them. -/

mutual
/-- A sum is read completely, but its last term stays open for another factor. -/
theorem SumTree.steps_yield (groups : List OpenGroup) {found : List Token} (tree : SumTree)
    (spelled : found.map Token.terminal = tree.yield) (written : tree.WellWritten)
    (fits : tree.depth + groups.length ≤ maxDepth) :
    match tree.value with
    | none => (Reading.operand groups .start).steps found = .error .divisionByZero
    | some value => ∃ sum term, closeSum sum term = value ∧
        (Reading.operand groups .start).steps found = .ok (.operator groups sum term) := by
  cases tree with
  | term product =>
      have read := ProductTree.steps_yield groups none product spelled written fits
      simp only [SumTree.value]
      cases computed : product.value with
      | none => simpa [computed, Pending.start] using read
      | some value => exact ⟨none, value, rfl, by simpa [computed, Pending.start] using read⟩
  | join left op product =>
      obtain ⟨leftFound, tail, rfl, leftSpelled, tailSpelled⟩ := List.map_eq_append_iff.mp spelled
      obtain ⟨token, rightFound, rfl, isOp, rightSpelled⟩ := List.map_eq_cons_iff.mp tailSpelled
      simp only [SumTree.depth] at fits
      have leftRead := SumTree.steps_yield groups left leftSpelled written.1 (by omega)
      simp only [SumTree.value]
      rw [Reading.steps_append]
      cases leftValue : left.value with
      | none =>
          simp only [leftValue] at leftRead
          simp only [leftRead, resume_error]
      | some value =>
          simp only [leftValue] at leftRead
          obtain ⟨sum, term, closed, leftRead⟩ := leftRead
          have rightRead := ProductTree.steps_yield groups (some (value, op)) product
            rightSpelled written.2 (by omega)
          simp only [leftRead, resume_ok, Reading.steps_cons, Reading.step_sumOp op isOp, closed]
          cases rightValue : product.value with
          | none => simpa [rightValue] using rightRead
          | some right =>
              exact ⟨some (value, op), right, closeSum_some .., by
                simpa [rightValue] using rightRead⟩

theorem ProductTree.steps_yield (groups : List OpenGroup) {found : List Token}
    (sum : Option (Binary64 × SumOp)) (tree : ProductTree)
    (spelled : found.map Token.terminal = tree.yield) (written : tree.WellWritten)
    (fits : tree.depth + groups.length ≤ maxDepth) :
    (Reading.operand groups ⟨sum, none, false⟩).steps found =
      match tree.value with
      | none => .error .divisionByZero
      | some value => .ok (.operator groups sum value) := by
  cases tree with
  | factor operand =>
      rw [OperandTree.steps_yield groups _ operand spelled written fits]
      simp only [ProductTree.value]
      cases operand.value <;> rfl
  | join left op operand =>
      obtain ⟨leftFound, tail, rfl, leftSpelled, tailSpelled⟩ := List.map_eq_append_iff.mp spelled
      obtain ⟨token, rightFound, rfl, isOp, rightSpelled⟩ := List.map_eq_cons_iff.mp tailSpelled
      simp only [ProductTree.depth] at fits
      rw [Reading.steps_append,
        ProductTree.steps_yield groups _ left leftSpelled written.1 (by omega)]
      simp only [ProductTree.value]
      cases left.value with
      | none => rfl
      | some leftValue =>
          simp only [resume_ok, Reading.steps_cons, Reading.step_productOp op isOp]
          rw [OperandTree.steps_yield groups _ operand rightSpelled written.2 (by omega)]
          cases operand.value with
          | none => rfl
          | some factor =>
              simp only [closeOperand, closeFactor_some, Bool.false_eq_true, if_false]
              cases op.compute? leftValue factor <;> rfl

theorem OperandTree.steps_yield (groups : List OpenGroup) {found : List Token}
    (before : Pending) (tree : OperandTree)
    (spelled : found.map Token.terminal = tree.yield) (written : tree.WellWritten)
    (fits : tree.depth + groups.length ≤ maxDepth) :
    (Reading.operand groups before).steps found =
      match tree.value with
      | none => .error .divisionByZero
      | some value => closeOperand groups before value := by
  cases tree with
  | numeral text =>
      obtain ⟨token, rest, rfl, isNumeral, restSpelled⟩ := List.map_eq_cons_iff.mp spelled
      obtain rfl := List.map_eq_nil_iff.mp restSpelled
      rw [Reading.steps_cons, Reading.step_numeral written isNumeral, resume_nil]
      rfl
  | signed sign operand =>
      obtain ⟨token, rest, rfl, isSign, restSpelled⟩ := List.map_eq_cons_iff.mp spelled
      rw [Reading.steps_cons, Reading.step_sign sign isSign, resume_ok,
        OperandTree.steps_yield groups _ operand restSpelled written fits]
      simp only [OperandTree.value]
      cases operand.value with
      | none => rfl
      | some value => simp only [Option.map_some, closeOperand_behind]
  | group inner =>
      obtain ⟨token, tail, rfl, isOpen, tailSpelled⟩ := List.map_eq_cons_iff.mp spelled
      obtain ⟨innerFound, last, rfl, innerSpelled, lastSpelled⟩ :=
        List.map_eq_append_iff.mp tailSpelled
      obtain ⟨close, rest, rfl, isClose, restSpelled⟩ := List.map_eq_cons_iff.mp lastSpelled
      obtain rfl := List.map_eq_nil_iff.mp restSpelled
      simp only [OperandTree.depth] at fits
      have innerRead := SumTree.steps_yield (⟨token.start, before⟩ :: groups) inner
        innerSpelled written (by simp only [List.length_cons]; omega)
      rw [Reading.steps_cons, Reading.step_openParen (by omega) isOpen, resume_ok,
        Reading.steps_append]
      simp only [OperandTree.value]
      cases innerValue : inner.value with
      | none =>
          simp only [innerValue] at innerRead
          rw [innerRead, resume_error]
      | some value =>
          simp only [innerValue] at innerRead
          obtain ⟨sum, term, closed, innerRead⟩ := innerRead
          rw [innerRead, resume_ok, Reading.steps_cons, Reading.step_closeParen isClose, closed,
            resume_nil]
end

/-- What nests and is written like this can be read within the room, and has the value. -/
structure Readable (depth : Nat) (written : Prop) (computed : Option Binary64)
    (room : Nat) (value : Binary64) : Prop where
  fits : depth ≤ room
  written : written
  computes : computed = some value

abbrev SumTree.Reads (tree : SumTree) : Nat → Binary64 → Prop :=
  Readable tree.depth tree.WellWritten tree.value

abbrev ProductTree.Reads (tree : ProductTree) : Nat → Binary64 → Prop :=
  Readable tree.depth tree.WellWritten tree.value

abbrev OperandTree.Reads (tree : OperandTree) : Nat → Binary64 → Prop :=
  Readable tree.depth tree.WellWritten tree.value

variable {room : Nat} {value term : Binary64} {sum : Option (Binary64 × SumOp)}
  {product : Option (Binary64 × ProductOp)} {spelled outerSpelled : List Terminal}
  {groups : List OpenGroup} {before : Pending} {reading next : Reading} {token : Token}

/-- The terminals of the terms before, with the operator behind them. -/
inductive SumBefore (room : Nat) : Option (Binary64 × SumOp) → List Terminal → Prop where
  | nothing : SumBefore room none []
  | terms {tree : SumTree} {value : Binary64} (op : SumOp) (reads : tree.Reads room value) :
      SumBefore room (some (value, op)) (tree.yield ++ [op.terminal])

inductive ProductBefore (room : Nat) : Option (Binary64 × ProductOp) → List Terminal → Prop where
  | nothing : ProductBefore room none []
  | factors {tree : ProductTree} {value : Binary64} (op : ProductOp)
      (reads : tree.Reads room value) :
      ProductBefore room (some (value, op)) (tree.yield ++ [op.terminal])

/-- Signs before an operand, with what they come to. -/
inductive SignsBefore : Bool → List Terminal → Prop where
  | nothing : SignsBefore false []
  | plus {negative : Bool} {signs : List Terminal} (before : SignsBefore negative signs) :
      SignsBefore negative (signs ++ [.plus])
  | minus {negative : Bool} {signs : List Terminal} (before : SignsBefore negative signs) :
      SignsBefore (!negative) (signs ++ [.minus])

inductive Pending.Spelled (room : Nat) (before : Pending) : List Terminal → Prop where
  | mk {terms factors signs : List Terminal} (sum : SumBefore room before.sum terms)
      (product : ProductBefore room before.product factors)
      (signed : SignsBefore before.negative signs) :
      before.Spelled room (terms ++ factors ++ signs)

/-- The terminals up to the last open parenthesis.  A group has one level less room than
the group around it. -/
inductive GroupsSpelled : List OpenGroup → List Terminal → Prop where
  | nothing : GroupsSpelled [] []
  | opened {outer : List OpenGroup} {outerSpelled spelled : List Terminal} {before : Pending}
      (position : Nat) (around : GroupsSpelled outer outerSpelled)
      (allowed : outer.length < maxDepth)
      (own : before.Spelled (maxDepth - outer.length) spelled) :
      GroupsSpelled (⟨position, before⟩ :: outer) (outerSpelled ++ spelled ++ [.openParen])

/-- The terminals that lead to a reading. -/
inductive Reading.Spelled : Reading → List Terminal → Prop where
  | operand {groups : List OpenGroup} {outer own : List Terminal} {before : Pending}
      (around : GroupsSpelled groups outer)
      (inside : before.Spelled (maxDepth - groups.length) own) :
      (Reading.operand groups before).Spelled (outer ++ own)
  | operator {groups : List OpenGroup} {outer terms : List Terminal}
      {sum : Option (Binary64 × SumOp)} {tree : ProductTree} {term : Binary64}
      (around : GroupsSpelled groups outer)
      (inside : SumBefore (maxDepth - groups.length) sum terms)
      (reads : tree.Reads (maxDepth - groups.length) term) :
      (Reading.operator groups sum term).Spelled (outer ++ terms ++ tree.yield)

theorem GroupsSpelled.length_le (around : GroupsSpelled groups outerSpelled) :
    groups.length ≤ maxDepth := by
  cases around with
  | nothing => exact Nat.zero_le _
  | opened position around allowed own => exact allowed

theorem Pending.spelled_start : Pending.start.Spelled room [] :=
  @Spelled.mk room start [] [] [] .nothing .nothing .nothing

theorem Pending.Spelled.behind (own : before.Spelled room spelled) (sign : SumOp) :
    (before.behind sign).Spelled room (spelled ++ [sign.terminal]) := by
  obtain ⟨sum, product, signed⟩ := own
  rw [List.append_assoc]
  cases sign with
  | plus => exact .mk sum product (.plus signed)
  | minus => exact .mk sum product (.minus signed)

/-- Signs make a signed operand of the operand behind them. -/
theorem SignsBefore.operand {negative : Bool} {signs : List Terminal}
    (signed : SignsBefore negative signs) {tree : OperandTree} (reads : tree.Reads room value) :
    ∃ whole : OperandTree, whole.yield = signs ++ tree.yield ∧
      whole.Reads room (if negative then value.neg else value) := by
  induction signed generalizing tree value with
  | nothing => exact ⟨tree, rfl, reads⟩
  | plus before ih =>
      have inner : (OperandTree.signed .plus tree).Reads room value :=
        ⟨reads.fits, reads.written, by simp [OperandTree.value, reads.computes, SumOp.sign]⟩
      obtain ⟨whole, yields, wholeReads⟩ := ih inner
      exact ⟨whole, by simp [yields, OperandTree.yield, SumOp.terminal], wholeReads⟩
  | @minus negative signs before ih =>
      have inner : (OperandTree.signed .minus tree).Reads room value.neg :=
        ⟨reads.fits, reads.written, by simp [OperandTree.value, reads.computes, SumOp.sign]⟩
      obtain ⟨whole, yields, wholeReads⟩ := ih inner
      refine ⟨whole, by simp [yields, OperandTree.yield, SumOp.terminal], ?_⟩
      cases negative <;> simpa using wholeReads

theorem closeOperand_spelled {own : List Terminal} (around : GroupsSpelled groups outerSpelled)
    (inside : before.Spelled (maxDepth - groups.length) own) {tree : OperandTree}
    (reads : tree.Reads (maxDepth - groups.length) value)
    (closed : closeOperand groups before value = .ok next) :
    next.Spelled (outerSpelled ++ own ++ tree.yield) := by
  obtain ⟨sum, product, negative⟩ := before
  obtain ⟨inSum, inProduct, signed⟩ := inside
  rename_i terms factors signs
  obtain ⟨whole, yields, wholeReads⟩ := signed.operand reads
  have respelled : outerSpelled ++ (terms ++ factors ++ signs) ++ tree.yield =
      outerSpelled ++ terms ++ (factors ++ whole.yield) := by simp [yields]
  rw [respelled]
  simp only [closeOperand] at closed
  generalize (if negative then value.neg else value) = factor at closed wholeReads
  cases inProduct with
  | nothing =>
      obtain rfl : Reading.operator groups sum factor = next := by
        simpa [closeFactor, Except.map] using closed
      exact @Reading.Spelled.operator _ _ _ _ (.factor whole) _ around inSum
        ⟨wholeReads.fits, wholeReads.written, wholeReads.computes⟩
  | factors op leftReads =>
      rename_i left leftValue
      rw [closeFactor_some] at closed
      cases applied : op.compute? leftValue factor with
      | none => simp [applied, Except.map] at closed
      | some result =>
          obtain rfl : Reading.operator groups sum result = next := by
            simpa [applied, Except.map] using closed
          have joined : (ProductTree.join left op whole).Reads (maxDepth - groups.length) result :=
            ⟨Nat.max_le.mpr ⟨leftReads.fits, wholeReads.fits⟩,
              ⟨leftReads.written, wholeReads.written⟩,
              by simp [ProductTree.value, leftReads.computes, wholeReads.computes, applied]⟩
          have yielded : left.yield ++ [op.terminal] ++ whole.yield =
              (ProductTree.join left op whole).yield := by simp [ProductTree.yield]
          rw [yielded]
          exact .operator around inSum joined

theorem SumBefore.close {terms : List Terminal} (inside : SumBefore room sum terms)
    {tree : ProductTree} (reads : tree.Reads room term) :
    ∃ whole : SumTree, whole.yield = terms ++ tree.yield ∧
      whole.Reads room (closeSum sum term) := by
  cases inside with
  | nothing => exact ⟨.term tree, rfl, reads.fits, reads.written, reads.computes⟩
  | terms op leftReads =>
      rename_i left leftValue
      refine ⟨.join left op tree, by simp [SumTree.yield], ?_, ?_, ?_⟩
      · exact Nat.max_le.mpr ⟨leftReads.fits, reads.fits⟩
      · exact ⟨leftReads.written, reads.written⟩
      · simp [SumTree.value, leftReads.computes, reads.computes]

theorem Reading.Spelled.step (known : reading.Spelled spelled)
    (read : reading.step token = .ok next) : next.Spelled (spelled ++ [token.terminal]) := by
  cases known with
  | operand around inside =>
      rename_i groups outer own before
      rcases Reading.step_operand_cases read with
        ⟨sign, isSign, rfl⟩ | ⟨isOpen, allowed, rfl⟩ | ⟨text, isNumeral, numeral, closed⟩
      · rw [isSign, List.append_assoc]
        exact .operand around (inside.behind sign)
      · have shallow : groups.length < maxDepth := by
          have bounded := around.length_le
          omega
        have opened := GroupsSpelled.opened token.start around shallow inside
        simpa [isOpen] using Reading.Spelled.operand opened Pending.spelled_start
      · rw [isNumeral]
        have reads : (OperandTree.numeral text).Reads (maxDepth - groups.length)
            (numeralValue text) := ⟨Nat.zero_le _, numeral, rfl⟩
        exact closeOperand_spelled around inside reads closed
  | operator around inside reads =>
      rename_i groups outer terms sum tree term
      rcases Reading.step_operator_cases read with
        ⟨op, isOp, rfl⟩ | ⟨op, isOp, rfl⟩ | ⟨group, outside, isClose, rfl, closed⟩
      · obtain ⟨whole, yields, wholeReads⟩ := inside.close reads
        have before : Pending.Spelled (maxDepth - groups.length)
            ⟨some (closeSum sum term, op), none, false⟩
            (whole.yield ++ [op.terminal] ++ [] ++ []) :=
          .mk (.terms op wholeReads) .nothing .nothing
        simpa [isOp, yields] using Reading.Spelled.operand around before
      · have before : Pending.Spelled (maxDepth - groups.length)
            ⟨sum, some (term, op), false⟩ (terms ++ (tree.yield ++ [op.terminal]) ++ []) :=
          .mk inside (.factors op reads) .nothing
        simpa [isOp] using Reading.Spelled.operand around before
      · obtain ⟨whole, yields, wholeReads⟩ := inside.close reads
        cases around with
        | opened position around allowed own =>
            have reads : (OperandTree.group whole).Reads (maxDepth - outside.length)
                (closeSum sum term) := by
              have fits := wholeReads.fits
              simp only [List.length_cons] at fits
              exact ⟨by simp only [OperandTree.depth]; omega, wholeReads.written,
                wholeReads.computes⟩
            simpa [isClose, OperandTree.yield, yields] using
              closeOperand_spelled around own reads closed

theorem Reading.Spelled.steps {found : List Token} (known : reading.Spelled spelled)
    (read : reading.steps found = .ok next) :
    next.Spelled (spelled ++ found.map Token.terminal) := by
  induction found generalizing reading spelled with
  | nil =>
      obtain rfl : reading = next := by simpa using read
      simpa using known
  | cons token rest ih =>
      rw [Reading.steps_cons] at read
      cases stepped : reading.step token with
      | error error => simp [stepped] at read
      | ok middle =>
          rw [stepped, resume_ok] at read
          simpa using ih (known.step stepped) read

theorem valueOfTokens_yield {found : List Token} {tree : SumTree}
    (spelled : found.map Token.terminal = tree.yield) (written : tree.WellWritten)
    (fits : tree.depth ≤ maxDepth) :
    valueOfTokens found =
      match tree.value with
      | none => .error .divisionByZero
      | some value => .ok value := by
  have read := SumTree.steps_yield [] tree spelled written (by simpa using fits)
  unfold valueOfTokens
  cases computed : tree.value with
  | none =>
      simp only [computed] at read
      rw [read]
  | some value =>
      simp only [computed] at read
      obtain ⟨sum, term, closed, read⟩ := read
      rw [read]
      exact congrArg Except.ok closed

/-- Tokens have a value exactly when some tree yields them and has it; their places do
not matter. -/
theorem valueOfTokens_eq_ok_iff {found : List Token} :
    valueOfTokens found = .ok value ↔
      ∃ tree : SumTree, found.map Token.terminal = tree.yield ∧ tree.Reads maxDepth value := by
  constructor
  · intro valued
    unfold valueOfTokens at valued
    cases read : (Reading.operand [] .start).steps found with
    | error error => simp [read] at valued
    | ok reading =>
        simp only [read] at valued
        have known : (Reading.operand [] .start).Spelled [] :=
          @Reading.Spelled.operand _ [] _ _ .nothing Pending.spelled_start
        have reached := known.steps read
        rw [List.nil_append] at reached
        -- Only a reading behind an operand, with no group open, has a value at its end.
        generalize found.map Token.terminal = spelled at reached ⊢
        cases reached with
        | operand around inside => simp [Reading.finish] at valued
        | operator around inside reads =>
            rename_i groups outer terms sum tree term
            cases around with
            | opened position around allowed own => simp [Reading.finish] at valued
            | nothing =>
                obtain rfl : closeSum sum term = value := by
                  simpa [Reading.finish] using valued
                obtain ⟨whole, yields, wholeReads⟩ := inside.close reads
                exact ⟨whole, by simp [yields], wholeReads⟩
  · rintro ⟨tree, spelled, reads⟩
    rw [valueOfTokens_yield spelled reads.written reads.fits, reads.computes]

/-- An expression has a value exactly when a tree of the grammar spells it, meets no
divisor that is zero, and comes to a finite number, which then is the value.  A tree
that fails in one of these two ways is answered as such. -/
theorem evaluate_iff_spells (text : Text) :
    (∀ value, evaluate text = .ok value ↔
      ∃ tree : SumTree, tree.Spells text ∧ tree.value = some value ∧ value.isFinite = true) ∧
    (∀ tree : SumTree, tree.Spells text → tree.value = none →
      evaluate text = .error .divisionByZero) ∧
    (∀ (tree : SumTree) (value : Binary64), tree.Spells text → tree.value = some value →
      value.isFinite = false → evaluate text = .error .notFinite) := by
  refine ⟨fun value => ⟨fun evaluated => ?_, ?_⟩, ?_, ?_⟩
  · unfold evaluate at evaluated
    cases found : tokens text with
    | error error => simp [found] at evaluated
    | ok tokenList =>
        cases valued : valueOfTokens tokenList with
        | error error => simp [found, valued] at evaluated
        | ok result =>
            simp only [found, valued] at evaluated
            split at evaluated
            · rename_i finite
              obtain rfl : result = value := by simpa using evaluated
              obtain ⟨tree, spelled, reads⟩ := valueOfTokens_eq_ok_iff.mp valued
              exact ⟨tree, ⟨⟨tokenList, found, spelled⟩, reads.fits, reads.written⟩,
                reads.computes, finite⟩
            · contradiction
  · rintro ⟨tree, ⟨⟨tokenList, found, spelled⟩, fits, written⟩, computes, finite⟩
    have valued := valueOfTokens_yield spelled written fits
    simp only [computes] at valued
    simp only [evaluate, found, valued, finite, if_true]
  · rintro tree ⟨⟨tokenList, found, spelled⟩, fits, written⟩ computes
    have valued := valueOfTokens_yield spelled written fits
    simp only [computes] at valued
    simp only [evaluate, found, valued]
  · rintro tree value ⟨⟨tokenList, found, spelled⟩, fits, written⟩ computes infinite
    have valued := valueOfTokens_yield spelled written fits
    simp only [computes] at valued
    simp only [evaluate, found, valued, infinite, Bool.false_eq_true, if_false]

end ProseTree.Expression
