import ProseTree.Binary64.Decimal

namespace ProseTree.Expression

/-! Tokens of arithmetic expressions, and evaluation: sums of products of numbers, parenthesised
groups and signed operands.

A number token is any run of digits and points; whether it is a numeral is decided when it is
evaluated.  Between tokens stand space, tab, carriage return, line feed and form feed only; other
white space is not part of an expression.

Tokens are taken one by one from the left.  `Reading` is what has been read so far: the
groups still open, the sum and the product begun in the innermost one, and the signs in
front of the operand to come.  Since a product is carried out as soon as its next
factor is complete, a division by zero is found before anything behind it. -/

inductive TokenKind where
  | number
  | plus
  | minus
  | star
  | slash
  | openParen
  | closeParen
deriving DecidableEq, Repr

/-- A token with the text it was read from and its byte position. -/
structure Token where
  kind : TokenKind
  slice : Text
  start : Nat
deriving DecidableEq

def Token.stop (token : Token) : Nat := token.start + token.slice.byteLength

/-- A character that no expression contains, with its byte position. -/
structure UnexpectedCharacter where
  char : Char
  position : Nat
deriving DecidableEq

/-- Space that may stand between tokens. -/
def isGap (c : Char) : Bool :=
  c == ' ' || c == '\t' || c == '\r' || c == '\n' || c.toNat == 0x0C

def isNumeral (c : Char) : Bool := Text.isDigit c || c == '.'

def TokenKind.ofChar? : Char → Option TokenKind
  | '+' => some .plus
  | '-' => some .minus
  | '*' => some .star
  | '/' => some .slash
  | '(' => some .openParen
  | ')' => some .closeParen
  | _ => none

/-- The tokens of a text that begins at a byte position. -/
def tokensFrom (position : Nat) (text : Text) : Except UnexpectedCharacter (List Token) :=
  match text with
  | [] => .ok []
  | c :: rest =>
      if isGap c then tokensFrom (position + c.utf8Size) rest
      else
        match TokenKind.ofChar? c with
        | some kind =>
            (tokensFrom (position + c.utf8Size) rest).map (⟨kind, [c], position⟩ :: ·)
        | none =>
            if isNumeral c then
              let slice : Text := c :: rest.takeWhile isNumeral
              (tokensFrom (position + slice.byteLength) (rest.dropWhile isNumeral)).map
                (⟨.number, slice, position⟩ :: ·)
            else .error ⟨c, position⟩
termination_by text.length
decreasing_by
  all_goals simp only [List.length_cons]
  · omega
  · omega
  · have shorter := (List.dropWhile_suffix isNumeral (l := rest)).length_le
    omega

/-- The tokens of an expression, or the first character that belongs to none. -/
def tokens (text : Text) : Except UnexpectedCharacter (List Token) := tokensFrom 0 text

inductive EvalError where
  | unexpectedCharacter (found : UnexpectedCharacter)
  | unexpectedEnd
  | expectedNumber (found : Token)
  | invalidNumber (numeral : Text)
  | nestedTooDeeply
  /-- The group opened at the position is not closed. -/
  | unclosed (position : Nat)
  | unexpectedToken (found : Token)
  | divisionByZero
  | notFinite
deriving DecidableEq

namespace EvalError

def isParseError : EvalError → Bool
  | .divisionByZero | .notFinite => false
  | _ => true

private def quoted (text : Text) : String := "'" ++ String.ofList text ++ "'"

def message : EvalError → String
  | .unexpectedCharacter found =>
      "parse error: unexpected character " ++ quoted [found.char] ++ " at position " ++
        toString found.position
  | .unexpectedEnd => "parse error: unexpected end of expression"
  | .expectedNumber found =>
      "parse error: expected number at position " ++ toString found.start ++ ", found " ++
        quoted found.slice
  | .invalidNumber numeral => "parse error: invalid number " ++ quoted numeral
  | .nestedTooDeeply => "parse error: expression nested too deeply"
  | .unclosed position =>
      "parse error: missing closing parenthesis for '(' at position " ++ toString position
  | .unexpectedToken found =>
      "parse error: unexpected " ++ quoted found.slice ++ " at position " ++
        toString found.start
  | .divisionByZero => "division by zero"
  | .notFinite => "result is not a finite number"

end EvalError

/-- The deepest nesting of parentheses that is evaluated. -/
def maxDepth : Nat := 256

inductive SumOp where
  | plus
  | minus
deriving DecidableEq

inductive ProductOp where
  | times
  | over
deriving DecidableEq

/-- What stands before an operand that is still to be read. -/
structure Pending where
  /-- The sum of the terms before, with the operator that follows it. -/
  sum : Option (Binary64 × SumOp)
  /-- The product of the factors before, with the operator that follows it. -/
  product : Option (Binary64 × ProductOp)
  /-- Whether an odd number of minus signs stands before the operand. -/
  negative : Bool
deriving DecidableEq

namespace Pending

def start : Pending := ⟨none, none, false⟩

end Pending

structure OpenGroup where
  position : Nat
  before : Pending
deriving DecidableEq

/-- What has been read of an expression; the innermost open group comes first. -/
inductive Reading where
  | operand (groups : List OpenGroup) (before : Pending)
  /-- The term read so far is complete up to its last factor. -/
  | operator (groups : List OpenGroup) (sum : Option (Binary64 × SumOp)) (term : Binary64)
deriving DecidableEq

def closeSum (sum : Option (Binary64 × SumOp)) (term : Binary64) : Binary64 :=
  match sum with
  | none => term
  | some (total, .plus) => total.add term
  | some (total, .minus) => total.sub term

def closeFactor (product : Option (Binary64 × ProductOp)) (factor : Binary64) :
    Except EvalError Binary64 :=
  match product with
  | none => .ok factor
  | some (total, .times) => .ok (total.mul factor)
  | some (total, .over) =>
      if factor.isZero then .error .divisionByZero else .ok (total.div factor)

/-- Takes the value of an operand into what stands before it. -/
def closeOperand (groups : List OpenGroup) (before : Pending) (value : Binary64) :
    Except EvalError Reading :=
  let factor := if before.negative then value.neg else value
  (closeFactor before.product factor).map (.operator groups before.sum)

def readOperand (groups : List OpenGroup) (before : Pending) (token : Token) :
    Except EvalError Reading :=
  match token.kind with
  | .plus => .ok (.operand groups before)
  | .minus => .ok (.operand groups { before with negative := !before.negative })
  | .openParen =>
      if groups.length = maxDepth then .error .nestedTooDeeply
      else .ok (.operand (⟨token.start, before⟩ :: groups) .start)
  | .number =>
      match Decimal.read? token.slice with
      | none => .error (.invalidNumber token.slice)
      | some decimal => closeOperand groups before decimal.toBinary64
  | .star | .slash | .closeParen => .error (.expectedNumber token)

def readOperator (groups : List OpenGroup) (sum : Option (Binary64 × SumOp))
    (term : Binary64) (token : Token) : Except EvalError Reading :=
  match token.kind, groups with
  | .plus, _ => .ok (.operand groups ⟨some (closeSum sum term, .plus), none, false⟩)
  | .minus, _ => .ok (.operand groups ⟨some (closeSum sum term, .minus), none, false⟩)
  | .star, _ => .ok (.operand groups ⟨sum, some (term, .times), false⟩)
  | .slash, _ => .ok (.operand groups ⟨sum, some (term, .over), false⟩)
  | .closeParen, group :: outer => closeOperand outer group.before (closeSum sum term)
  | _, group :: _ => .error (.unclosed group.position)
  | _, [] => .error (.unexpectedToken token)

def Reading.step : Reading → Token → Except EvalError Reading
  | .operand groups before, token => readOperand groups before token
  | .operator groups sum term, token => readOperator groups sum term token

def Reading.finish : Reading → Except EvalError Binary64
  | .operand _ _ => .error .unexpectedEnd
  | .operator (group :: _) _ _ => .error (.unclosed group.position)
  | .operator [] sum term => .ok (closeSum sum term)

def Reading.steps (reading : Reading) : List Token → Except EvalError Reading
  | [] => .ok reading
  | token :: rest =>
      match reading.step token with
      | .error error => .error error
      | .ok next => next.steps rest

/-- The value of a list of tokens, whether finite or not. -/
def valueOfTokens (tokens : List Token) : Except EvalError Binary64 :=
  match (Reading.operand [] .start).steps tokens with
  | .error error => .error error
  | .ok reading => reading.finish

/-- The value of an expression, which has to be finite. -/
def evaluate (text : Text) : Except EvalError Binary64 :=
  match tokens text with
  | .error found => .error (.unexpectedCharacter found)
  | .ok tokens =>
      match valueOfTokens tokens with
      | .error error => .error error
      | .ok value => if value.isFinite then .ok value else .error .notFinite

end ProseTree.Expression
