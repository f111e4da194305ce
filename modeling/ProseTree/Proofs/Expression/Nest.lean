import ProseTree.Proofs.Expression.Exchange

namespace ProseTree.Expression

/-! The groups of an expression, nested in each other.

The groups are found in the text by counting parentheses.  A nest is the same text with
its groups as data; every expression that can be evaluated is the text of one. -/

/-- The text up to the parenthesis that closes the innermost of the groups open before
it, with `depth` groups opened since. -/
def enclosed : Nat → Text → Text
  | _, [] => []
  | depth, '(' :: rest => '(' :: enclosed (depth + 1) rest
  | 0, ')' :: _ => []
  | depth + 1, ')' :: rest => ')' :: enclosed depth rest
  | depth, c :: rest => c :: enclosed depth rest

/-- What each group of the text has between its parentheses. -/
def groupsIn : Text → List Text
  | [] => []
  | '(' :: rest => enclosed 0 rest :: groupsIn rest
  | _ :: rest => groupsIn rest

/-- The text outside its groups, with `depth` groups open before it. -/
def ownLevel : Nat → Text → Text
  | _, [] => []
  | depth, '(' :: rest => ownLevel (depth + 1) rest
  | depth, ')' :: rest => ownLevel (depth - 1) rest
  | 0, c :: rest => c :: ownLevel 0 rest
  | depth + 1, _ :: rest => ownLevel (depth + 1) rest

def hasOwnOperator (text : Text) : Bool := (ownLevel 0 text).any isOperator

/-- Text in which every parenthesis has its counterpart. -/
inductive Nest where
  | done
  | plain (text : Text) (flat : ∀ c ∈ text, isParenthesis c = false) (rest : Nest)
  | group (inner rest : Nest)

namespace Nest

def render : Nest → Text
  | .done => []
  | .plain text _ rest => text ++ rest.render
  | .group inner rest => '(' :: inner.render ++ ')' :: rest.render

def groups : Nest → List Text
  | .done => []
  | .plain _ _ rest => rest.groups
  | .group inner rest => inner.render :: inner.groups ++ rest.groups

def own : Nest → Text
  | .done => []
  | .plain text _ rest => text ++ rest.own
  | .group _ rest => rest.own

end Nest

variable {c : Char} {text tail : Text} {depth : Nat} {nest : Nest}

theorem not_parenthesis (flat : isParenthesis c = false) : c ≠ '(' ∧ c ≠ ')' := by
  constructor
  · rintro rfl
    contradiction
  · rintro rfl
    contradiction

@[simp] theorem groupsIn_close (rest : Text) : groupsIn (')' :: rest) = groupsIn rest :=
  groupsIn.eq_3 ')' rest (by decide)

theorem enclosed_plain (flat : ∀ c ∈ text, isParenthesis c = false) :
    enclosed depth (text ++ tail) = text ++ enclosed depth tail := by
  induction text with
  | nil => rfl
  | cons c text ih =>
      have other := not_parenthesis (flat c (by simp))
      rw [List.cons_append, enclosed.eq_5 depth c _ other.1 (fun _ => other.2) (fun _ _ => other.2),
        ih fun d member => flat d (by simp [member])]
      rfl

theorem groupsIn_plain (flat : ∀ c ∈ text, isParenthesis c = false) :
    groupsIn (text ++ tail) = groupsIn tail := by
  induction text with
  | nil => rfl
  | cons c text ih =>
      have other := not_parenthesis (flat c (by simp))
      rw [List.cons_append, groupsIn.eq_3 c _ other.1]
      exact ih fun d member => flat d (by simp [member])

theorem ownLevel_plain (flat : ∀ c ∈ text, isParenthesis c = false) :
    ownLevel depth (text ++ tail) =
      (if depth = 0 then text else []) ++ ownLevel depth tail := by
  induction text with
  | nil => simp
  | cons c text ih =>
      have other := not_parenthesis (flat c (by simp))
      have rest := ih fun d member => flat d (by simp [member])
      cases depth with
      | zero =>
          rw [List.cons_append, ownLevel.eq_4 c _ other.1 other.2, rest]
          rfl
      | succ depth =>
          rw [List.cons_append, ownLevel.eq_5 depth c _ other.1 other.2, rest]
          rfl

namespace Nest

theorem enclosed_render (nest : Nest) (depth : Nat) (tail : Text) :
    enclosed depth (nest.render ++ tail) = nest.render ++ enclosed depth tail := by
  induction nest generalizing depth tail with
  | done => rfl
  | plain text flat rest ih =>
      rw [render, List.append_assoc, enclosed_plain flat, ih, List.append_assoc]
  | group inner rest innerIH restIH =>
      simp only [render, List.cons_append, List.append_assoc, enclosed, innerIH, restIH]

theorem groupsIn_render (nest : Nest) (tail : Text) :
    groupsIn (nest.render ++ tail) = nest.groups ++ groupsIn tail := by
  induction nest generalizing tail with
  | done => rfl
  | plain text flat rest ih => rw [render, List.append_assoc, groupsIn_plain flat, ih, groups]
  | group inner rest innerIH restIH =>
      simp only [render, List.cons_append, List.append_assoc, groupsIn, groupsIn_close, groups,
        enclosed_render, innerIH, restIH, enclosed, List.append_nil]

theorem ownLevel_render (nest : Nest) (depth : Nat) (tail : Text) :
    ownLevel depth (nest.render ++ tail) =
      (if depth = 0 then nest.own else []) ++ ownLevel depth tail := by
  induction nest generalizing depth tail with
  | done => simp [render, own]
  | plain text flat rest ih =>
      rw [render, List.append_assoc, ownLevel_plain flat, ih]
      split <;> simp [own]
  | group inner rest innerIH restIH =>
      simp only [render, List.cons_append, List.append_assoc, ownLevel, innerIH, restIH, own]
      simp

theorem hasOwnOperator_render (nest : Nest) :
    hasOwnOperator nest.render = nest.own.any isOperator := by
  have level := nest.ownLevel_render 0 []
  rw [List.append_nil, if_pos rfl, ownLevel, List.append_nil] at level
  rw [hasOwnOperator, level]

end Nest

namespace Reading

def openGroups : Reading → List OpenGroup
  | .operand groups _ => groups
  | .operator groups _ _ => groups

variable {reading next : Reading} {token : Token}

theorem openGroups_closeOperand {groups : List OpenGroup} {before : Pending} {value : Binary64}
    (closed : closeOperand groups before value = .ok next) : next.openGroups = groups := by
  obtain ⟨term, rfl⟩ := closeOperand_operator closed
  rfl

theorem openGroups_step (stepped : reading.step token = .ok next)
    (noOpen : token.terminal ≠ .openParen) (noClose : token.terminal ≠ .closeParen) :
    next.openGroups = reading.openGroups := by
  cases reading with
  | operand groups before =>
      rcases step_operand_cases stepped with
        ⟨sign, isSign, rfl⟩ | ⟨isOpen, -⟩ | ⟨text, isNumeral, numeral, closed⟩
      · rfl
      · exact absurd isOpen noOpen
      · exact openGroups_closeOperand closed
  | operator groups sum term =>
      rcases step_operator_cases stepped with
        ⟨op, isOp, rfl⟩ | ⟨op, isOp, rfl⟩ | ⟨group, others, isClose, -, -⟩
      · rfl
      · rfl
      · exact absurd isClose noClose

end Reading

/-- What is read up to the end of its last open group is a nest for each group that was
open before it, and one in front of them. -/
theorem Nest.of_follows {reading last : Reading} {spelled : List Terminal}
    (lexes : Lexes text spelled) (follows : reading.Follows spelled last)
    (closes : last.openGroups = []) :
    ∃ (nest : Nest) (around : List Nest), around.length = reading.openGroups.length ∧
      text = nest.render ++ around.flatMap fun outer => ')' :: outer.render := by
  -- From the right: a closing parenthesis puts what was read behind it to `around`, and an
  -- opening one takes the nearest of these back.
  induction lexes generalizing reading with
  | done =>
      obtain rfl := Reading.follows_nil.mp follows
      exact ⟨.done, [], by simp [closes], rfl⟩
  | @gap c text spelled isGap rest ih =>
      obtain ⟨nest, around, length, rfl⟩ := ih follows
      have flat := not_isParenthesis_of_isGap isGap
      exact ⟨.plain [c] (by simpa using flat) nest, around, length, rfl⟩
  | @symbol c text terminal spelled found rest ih =>
      obtain ⟨next, stepped, follows⟩ := Reading.follows_cons.mp follows
      obtain ⟨nest, around, length, rfl⟩ := ih follows
      rcases ofChar?_cases found with ⟨rfl, rfl⟩ | ⟨rfl, rfl⟩ | ⟨flat, noOpen, noClose⟩
      · obtain ⟨groups, before, rfl, -, rfl⟩ := Reading.step_openParen_iff.mp stepped
        cases around with
        | nil => contradiction
        | cons outer around =>
            refine ⟨.group nest outer, around, Nat.succ.inj length, ?_⟩
            simp [render]
      · obtain ⟨group, outer, sum, term, rfl, closed⟩ := Reading.step_closeParen_iff.mp stepped
        refine ⟨.done, nest :: around, ?_, rfl⟩
        rw [List.length_cons, length, Reading.openGroups_closeOperand closed]
        rfl
      · have kept := Reading.openGroups_step stepped (by simpa using noOpen)
          (by simpa using noClose)
        exact ⟨.plain [c] (by simpa using flat) nest, around, by rw [length, kept], rfl⟩
  | @numeral run text spelled nonempty made stops rest ih =>
      obtain ⟨next, stepped, follows⟩ := Reading.follows_cons.mp follows
      obtain ⟨nest, around, length, rfl⟩ := ih follows
      have kept := Reading.openGroups_step stepped (by simp) (by simp)
      have flat : ∀ d ∈ run, isParenthesis d = false :=
        fun d member => not_isParenthesis_of_isNumeral (made d member)
      refine ⟨.plain run flat nest, around, by rw [length, kept], ?_⟩
      rw [render, List.append_assoc]

theorem Nest.of_evaluate {value : Binary64} (evaluated : evaluate text = .ok value) :
    ∃ nest : Nest, nest.render = text := by
  obtain ⟨-, sum, term, ⟨spelled, lexes, follows⟩, -⟩ := evaluate_eq_ok_iff.mp evaluated
  obtain ⟨nest, around, length, rfl⟩ := Nest.of_follows lexes follows rfl
  obtain rfl := List.length_eq_zero_iff.mp length
  exact ⟨nest, by simp⟩

end ProseTree.Expression
