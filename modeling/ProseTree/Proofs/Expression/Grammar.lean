import Mathlib.Data.List.TakeWhile
import ProseTree.Expression.Evaluate

namespace ProseTree

/-! Numerals and the grammar of expressions: a sum joins products, a product joins operands, and an
operand is a numeral, a group, or an operand behind a sign.

The runs of digits and points that stand for a number are exactly those that can be read.  A tree
is read without regard to places, so it speaks of terminals instead of tokens.  Its value is
computed along its shape, independently of the reading that finds it. -/

namespace Text

theorem isDigit_point : isDigit '.' = false := by decide

end Text

namespace Expression

/-- A run of digits and points with at least one digit and at most one point. -/
structure IsNumeral (text : Text) : Prop where
  run : ∀ c ∈ text, isNumeral c = true
  digit : ∃ c ∈ text, Text.isDigit c = true
  point : text.count '.' ≤ 1

end Expression

namespace Decimal

open Expression

theorem isNumeral_of_read? {text : Text} {decimal : Decimal}
    (found : read? text = some decimal) : IsNumeral text := by
  have whole : ∀ c ∈ text.takeWhile Text.isDigit, Text.isDigit c = true :=
    fun c member => List.mem_takeWhile_imp member
  have split := List.takeWhile_append_dropWhile (p := Text.isDigit) (l := text)
  unfold read? at found
  generalize text.takeWhile Text.isDigit = front at found whole split
  generalize text.dropWhile Text.isDigit = back at found split
  subst split
  have noPoint : ∀ run : Text, (∀ c ∈ run, Text.isDigit c = true) → run.count '.' = 0 := by
    intro run digits
    refine List.count_eq_zero.mpr fun member => ?_
    simpa [Text.isDigit_point] using digits '.' member
  cases back with
  | nil =>
      have nonempty : front ≠ [] := by
        rintro rfl
        simp at found
      obtain ⟨c, member⟩ := List.exists_mem_of_ne_nil front nonempty
      simp only [List.append_nil]
      exact ⟨fun c member => by simp [isNumeral, whole c member], ⟨c, member, whole c member⟩,
        by simp [noPoint front whole]⟩
  | cons point fraction =>
      simp only at found
      split at found
      · rename_i accepted
        obtain ⟨rfl, digits, nonempty⟩ := accepted
        have digits : ∀ c ∈ fraction, Text.isDigit c = true := List.all_eq_true.mp digits
        refine ⟨?_, ?_, ?_⟩
        · intro c member
          rcases List.mem_append.mp member with inFront | inBack
          · simp [isNumeral, whole c inFront]
          · rcases List.mem_cons.mp inBack with rfl | inFraction
            · simp [isNumeral]
            · simp [isNumeral, digits c inFraction]
        · cases front with
          | cons c rest => exact ⟨c, by simp, whole c (by simp)⟩
          | nil =>
              cases fraction with
              | nil => simp at nonempty
              | cons c rest => exact ⟨c, by simp, digits c (by simp)⟩
        · simp [noPoint front whole, noPoint fraction digits]
      · contradiction

theorem read?_of_isNumeral {text : Text} (numeral : IsNumeral text) :
    ∃ decimal, read? text = some decimal := by
  have stop : ∀ c rest, text.dropWhile Text.isDigit = c :: rest → Text.isDigit c = false := by
    intro c rest found
    have head := List.head?_dropWhile_not Text.isDigit text
    simpa [found] using head
  have split := List.takeWhile_append_dropWhile (p := Text.isDigit) (l := text)
  unfold read?
  generalize text.takeWhile Text.isDigit = front at split
  generalize text.dropWhile Text.isDigit = back at split stop
  subst split
  obtain ⟨run, ⟨digit, member, isDigit⟩, point⟩ := numeral
  cases back with
  | nil =>
      cases front with
      | nil => simp at member
      | cons c rest => exact ⟨⟨Text.ofDigits (c :: rest), 0⟩, rfl⟩
  | cons c fraction =>
      have notDigit := stop c fraction rfl
      have isPoint : c = '.' := by
        have here := run c (by simp)
        simpa [isNumeral, notDigit] using here
      subst isPoint
      have digits : ∀ c ∈ fraction, Text.isDigit c = true := by
        intro c inFraction
        have here := run c (by simp [inFraction])
        rcases Bool.or_eq_true _ _ |>.mp here with found | found
        · exact found
        · have same : c = '.' := by simpa using found
          subst same
          have positive := List.count_pos_iff.mpr inFraction
          simp only [List.count_append, List.count_cons_self] at point
          omega
      have nonempty : ¬(front.isEmpty = true ∧ fraction.isEmpty = true) := by
        rintro ⟨noFront, noFraction⟩
        rw [List.isEmpty_iff] at noFront noFraction
        subst noFront noFraction
        obtain rfl : digit = '.' := by simpa using member
        simp [Text.isDigit_point] at isDigit
      exact ⟨_, if_pos ⟨rfl, List.all_eq_true.mpr digits, nonempty⟩⟩

end Decimal

namespace Expression

/-- What the grammar sees of a token. -/
inductive Terminal where
  | numeral (text : Text)
  | plus
  | minus
  | star
  | slash
  | openParen
  | closeParen
deriving DecidableEq

def Token.terminal (token : Token) : Terminal :=
  match token.kind with
  | .number => .numeral token.slice
  | .plus => .plus
  | .minus => .minus
  | .star => .star
  | .slash => .slash
  | .openParen => .openParen
  | .closeParen => .closeParen

def SumOp.terminal : SumOp → Terminal
  | .plus => .plus
  | .minus => .minus

def ProductOp.terminal : ProductOp → Terminal
  | .times => .star
  | .over => .slash

mutual
/-- `expr := term (('+'|'-') term)*`, joined from the left. -/
inductive SumTree where
  | term (product : ProductTree)
  | join (sum : SumTree) (op : SumOp) (product : ProductTree)

/-- `term := factor (('*'|'/') factor)*`, joined from the left. -/
inductive ProductTree where
  | factor (operand : OperandTree)
  | join (product : ProductTree) (op : ProductOp) (operand : OperandTree)

/-- `factor := NUMBER | '(' expr ')' | '-' factor | '+' factor`. -/
inductive OperandTree where
  | numeral (text : Text)
  | group (inner : SumTree)
  | signed (sign : SumOp) (operand : OperandTree)
end

mutual
/-- The terminals of a tree from left to right. -/
def SumTree.yield : SumTree → List Terminal
  | .term product => product.yield
  | .join sum op product => sum.yield ++ op.terminal :: product.yield

def ProductTree.yield : ProductTree → List Terminal
  | .factor operand => operand.yield
  | .join product op operand => product.yield ++ op.terminal :: operand.yield

def OperandTree.yield : OperandTree → List Terminal
  | .numeral text => [.numeral text]
  | .group inner => .openParen :: inner.yield ++ [.closeParen]
  | .signed sign operand => sign.terminal :: operand.yield
end

mutual
/-- How deep the parentheses of a tree nest. -/
def SumTree.depth : SumTree → Nat
  | .term product => product.depth
  | .join sum _ product => max sum.depth product.depth

def ProductTree.depth : ProductTree → Nat
  | .factor operand => operand.depth
  | .join product _ operand => max product.depth operand.depth

def OperandTree.depth : OperandTree → Nat
  | .numeral _ => 0
  | .group inner => inner.depth + 1
  | .signed _ operand => operand.depth
end

mutual
/-- Every numeral of a tree can be read. -/
def SumTree.WellWritten : SumTree → Prop
  | .term product => product.WellWritten
  | .join sum _ product => sum.WellWritten ∧ product.WellWritten

def ProductTree.WellWritten : ProductTree → Prop
  | .factor operand => operand.WellWritten
  | .join product _ operand => product.WellWritten ∧ operand.WellWritten

def OperandTree.WellWritten : OperandTree → Prop
  | .numeral text => IsNumeral text
  | .group inner => inner.WellWritten
  | .signed _ operand => operand.WellWritten
end

def numeralValue (text : Text) : Binary64 :=
  ((Decimal.read? text).map Decimal.toBinary64).getD .nan

theorem numeralValue_eq {text : Text} {decimal : Decimal}
    (read : Decimal.read? text = some decimal) : numeralValue text = decimal.toBinary64 := by
  rw [numeralValue, read, Option.map_some, Option.getD_some]

def SumOp.compute (left right : Binary64) : SumOp → Binary64
  | .plus => left.add right
  | .minus => left.sub right

/-- There is no quotient by zero, of either sign. -/
def ProductOp.compute? (left right : Binary64) : ProductOp → Option Binary64
  | .times => some (left.mul right)
  | .over => if right.isZero then none else some (left.div right)

def SumOp.sign (value : Binary64) : SumOp → Binary64
  | .plus => value
  | .minus => value.neg

mutual
/-- The value of a tree, or none when a divisor in it is zero. -/
def SumTree.value : SumTree → Option Binary64
  | .term product => product.value
  | .join sum op product =>
      match sum.value, product.value with
      | some left, some right => some (op.compute left right)
      | _, _ => none

def ProductTree.value : ProductTree → Option Binary64
  | .factor operand => operand.value
  | .join product op operand =>
      match product.value, operand.value with
      | some left, some right => op.compute? left right
      | _, _ => none

def OperandTree.value : OperandTree → Option Binary64
  | .numeral text => some (numeralValue text)
  | .group inner => inner.value
  | .signed sign operand => operand.value.map sign.sign
end

/-- The tree spells the text, with groups no deeper than is allowed and numerals that
can be read. -/
structure SumTree.Spells (tree : SumTree) (text : Text) : Prop where
  yields : ∃ found, tokens text = .ok found ∧ found.map Token.terminal = tree.yield
  nests : tree.depth ≤ maxDepth
  wellWritten : tree.WellWritten

end Expression

end ProseTree
