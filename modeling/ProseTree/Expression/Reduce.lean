import ProseTree.Expression.Evaluate
import ProseTree.Text.WordChar

namespace ProseTree.Expression

/-! Where expressions occur in running text, and replacing them by their values.

There are two styles.  A *group* is a pair of parentheses with an operator and no other
parenthesis between them.  A *bare* expression is a number followed by operators and
numbers, standing apart from the words around it.

Groups are reduced before bare expressions.  A value can make a new expression with
its neighbours, so a style is swept over the text until a sweep replaces nothing.
Expressions without a value stay as they are written. -/

def isOperator (c : Char) : Bool := c == '+' || c == '-' || c == '*' || c == '/'

def isParenthesis (c : Char) : Bool := c == '(' || c == ')'

def groupLength : Text → Nat
  | '(' :: rest =>
      let inner := rest.takeWhile (!isParenthesis ·)
      match rest.drop inner.length with
      | ')' :: _ => if inner.any isOperator then inner.length + 2 else 0
      | _ => 0
  | _ => 0

def wholeLength (text : Text) : Nat := (text.takeWhile Text.isDigit).length

/-- The length of a point with digits behind it at the head of the text. -/
def fractionLength : Text → Nat
  | '.' :: rest => if wholeLength rest = 0 then 0 else wholeLength rest + 1
  | _ => 0

/-- The length of an operator at the head of the text, with the white space around it,
when a digit follows. -/
def joinLength (text : Text) : Nat :=
  let before := (text.takeWhile Text.isBlank).length
  match text.drop before with
  | [] => 0
  | operator :: rest =>
      let after := (rest.takeWhile Text.isBlank).length
      if isOperator operator ∧ wholeLength (rest.drop after) ≠ 0 then before + 1 + after
      else 0

/-- Where an expression can end that goes on with an operator at the head of the text,
longest first.  Each further number gives two ends, behind its fraction and before it;
`passed` characters have been taken already. -/
def endsAfter (passed : Nat) (text : Text) : List Nat :=
  let join := joinLength text
  if _atEnd : join = 0 then []
  else
    let whole := join + wholeLength (text.drop join)
    let fraction := fractionLength (text.drop whole)
    endsAfter (passed + whole + fraction) (text.drop (whole + fraction)) ++
      (if fraction = 0 then [passed + whole]
      else [passed + whole + fraction, passed + whole])
termination_by text.length
decreasing_by
  have nonempty : text ≠ [] := by
    rintro rfl
    exact _atEnd rfl
  have positive := List.length_pos_iff.mpr nonempty
  simp only [List.length_drop]
  omega

/-- Where a bare expression at the head of the text can end, longest first. -/
def bareEnds (text : Text) : List Nat :=
  let whole := wholeLength text
  if whole = 0 then []
  else
    let fraction := fractionLength (text.drop whole)
    endsAfter (whole + fraction) (text.drop (whole + fraction))

def startsWord (text : Text) : Bool :=
  match text with
  | [] => false
  | c :: _ => Text.isWordChar c

/-- The length of a bare expression at the head of the text: the longest one that no
word character follows.  It does not begin inside a word. -/
def bareLength (before : Option Char) (text : Text) : Nat :=
  if before.any Text.isWordChar then 0
  else ((bareEnds text).find? fun stop => !startsWord (text.drop stop)).getD 0

inductive Style where
  | group
  | bare
deriving DecidableEq

namespace Style

def rule : Style → Rule
  | .group => fun _ text => groupLength text
  | .bare => bareLength

/-- The expression inside an occurrence: a group loses its parentheses. -/
def expression : Style → Text → Text
  | .group, occurrence => (occurrence.drop 1).dropLast
  | .bare, occurrence => occurrence

end Style

structure Replacement where
  expression : Text
  value : Binary64
deriving DecidableEq

structure Skipped where
  expression : Text
  error : EvalError
deriving DecidableEq

/-- A reduced text, with what was replaced on the way, in order of replacement, and
what is still in it unevaluated. -/
structure Reduction where
  text : Text
  replaced : List Replacement
  skipped : List Skipped
deriving DecidableEq

/-- Puts the values of the expressions found into a cut text. -/
def substitute (style : Style) : Segments → Reduction
  | .last gap => ⟨gap, [], []⟩
  | .found gap occurrence rest =>
      let later := substitute style rest
      let expression := style.expression occurrence
      match evaluate expression with
      | .ok value =>
          ⟨gap ++ value.text ++ later.text, ⟨expression, value⟩ :: later.replaced,
            later.skipped⟩
      | .error error =>
          ⟨gap ++ occurrence ++ later.text, later.replaced,
            ⟨expression, error⟩ :: later.skipped⟩

def sweep (style : Style) (text : Text) : Reduction :=
  substitute style (text.cut style.rule)

/-- Sweeps until nothing is replaced, at most the given number of times.  Only what
the last sweep left in place is reported as skipped. -/
def sweeps (style : Style) : Nat → Text → Reduction
  | 0, text => ⟨text, [], []⟩
  | limit + 1, text =>
      let swept := sweep style text
      if swept.replaced.isEmpty then swept
      else
        let later := sweeps style limit swept.text
        { later with replaced := swept.replaced ++ later.replaced }

/-- A number of sweeps that is never used up.  A sweep that replaces a group removes an
opening parenthesis.  A sweep that replaces a bare expression joins at least two numbers
into one; a minus sign it may write takes the place of an operator. -/
def sweepLimit : Style → Text → Nat
  | .group, text => text.count '(' + 1
  | .bare, text => text.length + 1

def settle (style : Style) (text : Text) : Reduction :=
  sweeps style (sweepLimit style text) text

/-- Replaces every expression that has a value, groups first. -/
def reduce (text : Text) : Reduction :=
  let groups := settle .group text
  let bare := settle .bare groups.text
  ⟨bare.text, groups.replaced ++ bare.replaced, groups.skipped ++ bare.skipped⟩

end ProseTree.Expression
