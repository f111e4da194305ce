import ProseTree.Binary64.Basic
import ProseTree.Text.Basic

namespace ProseTree

/-! Decimal text of numbers.

A number is written with the fewest digits that read back as the same number, always
in positional notation and with at least one digit after the point.  What is read may also
have a sign and an exponent. -/

attribute [local instance (high)] instPowNat

/-- The number `coefficient / 10 ^ places`. -/
structure Decimal where
  coefficient : Nat
  places : Nat
deriving DecidableEq

namespace Decimal

open Binary64

def rank (decimal : Decimal) : Nat :=
  nearestRank (decimal.coefficient * one) (10 ^ decimal.places)

def toBinary64 (decimal : Decimal) : Binary64 := ofRank false decimal.rank

/-- Whole part, point and fraction; a decimal without places gets one zero. -/
def text (decimal : Decimal) : Text :=
  let whole := decimal.coefficient / 10 ^ decimal.places
  let fraction := decimal.coefficient % 10 ^ decimal.places
  Text.digits whole ++ '.' ::
    (if decimal.places = 0 then ['0'] else Text.paddedDigits decimal.places fraction)

/-- Reads digits with at most one point among them and at least one digit. -/
def read? (numeral : Text) : Option Decimal :=
  let whole := numeral.takeWhile Text.isDigit
  match numeral.dropWhile Text.isDigit with
  | [] => if whole.isEmpty then none else some ⟨Text.ofDigits whole, 0⟩
  | point :: fraction =>
      if point = '.' ∧ fraction.all Text.isDigit ∧ ¬(whole.isEmpty ∧ fraction.isEmpty) then
        some ⟨Text.ofDigits (whole ++ fraction), fraction.length⟩
      else none

/-- Looks for a decimal of the given rank among the multiples of `scale / 10 ^ places`.
Only the two on either side of the magnitude can have it; of two that do, the nearer
one is taken, and the upper one if they are equally near. -/
def onGrid? (rank scale places : Nat) : Option Decimal :=
  let magnitude := unitsOf rank * 10 ^ places
  let low : Decimal := ⟨magnitude / (one * scale) * scale, places⟩
  let high : Decimal := ⟨low.coefficient + scale, places⟩
  if low.rank = rank then
    if high.rank = rank ∧ (low.coefficient + high.coefficient) * one ≤ 2 * magnitude then
      some high
    else some low
  else if high.rank = rank then some high
  else none

/-- All the digits of a magnitude: a unit is 5 ^ 1074 / 10 ^ 1074. -/
def exact (rank : Nat) : Decimal := ⟨unitsOf rank * 5 ^ (1074 : Nat), 1074⟩

/-- A decimal with the fewest digits that has the given rank.  The grids are tried
from the coarsest: the powers of ten above the magnitude's whole part and down to one,
then tenths, hundredths and so on, as far as the smallest magnitudes need. -/
def shortest (rank : Nat) : Decimal :=
  let wholeDigits := (Text.digits (unitsOf rank / one)).length
  let coarse := (List.range (wholeDigits + 1)).reverse.findSome? fun power =>
    onGrid? rank (10 ^ power) 0
  let fine := (List.range' 1 324).findSome? fun places => onGrid? rank 1 places
  (coarse <|> fine).getD (exact rank)

end Decimal

namespace Binary64

def signText (negative : Bool) : Text := if negative then ['-'] else []

def text : Binary64 → Text
  | .finite negative rank _ => signText negative ++ (Decimal.shortest rank).text
  | .infinite negative => signText negative ++ ['i', 'n', 'f']
  | .nan => ['N', 'a', 'N']

/-- The number with two digits after the point, a tie going to the even digit. -/
def textTwoPlaces : Binary64 → Text
  | .finite negative rank _ =>
      let hundredths := roundHalfEven (unitsOf rank * 100) one
      signText negative ++ (Decimal.mk hundredths 2).text
  | other => other.text

/-- The number nearest to `decimal * 10 ^ exponent`.  Exponents beyond the range of the
format are answered without computing the power: they give infinity or zero. -/
def ofScientific (negative : Bool) (decimal : Decimal) (exponent : Int) : Binary64 :=
  let shift := exponent - decimal.places
  let digits := (Text.digits decimal.coefficient).length
  if decimal.coefficient = 0 then ofRank negative 0
  else if 400 < shift then .infinite negative
  else if shift + digits < -400 then ofRank negative 0
  else if 0 ≤ shift then nearest negative (decimal.coefficient * 10 ^ shift.toNat * one) 1
  else nearest negative (decimal.coefficient * one) (10 ^ (-shift).toNat)

end Binary64

namespace Text

/-- A sign at the head of the text: whether it is a minus, and what follows it. -/
def splitSign : Text → Bool × Text
  | '-' :: rest => (true, rest)
  | '+' :: rest => (false, rest)
  | text => (false, text)

def readInteger? (text : Text) : Option Int :=
  let (negative, run) := splitSign text
  if run.isEmpty ∨ ¬run.all isDigit then none
  else some (if negative then -(ofDigits run : Int) else ofDigits run)

/-- Reads an optional sign, digits with at most one point among them, and an optional
exponent after `e` or `E`. -/
def readScientific? (text : Text) : Option Binary64 :=
  let (negative, unsigned) := splitSign text
  let isMark (c : Char) : Bool := c == 'e' || c == 'E'
  let exponent? :=
    match unsigned.dropWhile (!isMark ·) with
    | [] => some 0
    | _ :: exponent => readInteger? exponent
  match Decimal.read? (unsigned.takeWhile (!isMark ·)), exponent? with
  | some decimal, some exponent => some (Binary64.ofScientific negative decimal exponent)
  | _, _ => none

end Text

end ProseTree
