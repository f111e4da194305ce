import ProseTree.Binary64.Decimal
import ProseTree.Node.Walk

namespace ProseTree

/-! A tree as YAML.  Each node is a block mapping with its kind, its label, its text if
it is a leaf, and its children if it has any; the children are a block sequence at the
indentation of the mapping.

A plain scalar is the text itself.  A text that would be read as something else than a
string, or that the plain style cannot hold, is put into single quotes; if those cannot
hold it either, into double quotes with escapes.  A text with line feeds becomes a
literal block where possible. -/

namespace Yaml

attribute [local instance (high)] instPowNat

inductive Style where
  | plain
  | singleQuoted
  | doubleQuoted
  | literal
deriving DecidableEq

def isHexDigit (c : Char) : Bool :=
  Text.isDigit c || ('a' ≤ c && c ≤ 'f') || ('A' ≤ c && c ≤ 'F')

def hexDigitValue (c : Char) : Nat :=
  if Text.isDigit c then c.toNat - '0'.toNat
  else if c ≤ 'F' then c.toNat - 'A'.toNat + 10
  else c.toNat - 'a'.toNat + 10

def baseOf? : Char → Option Nat
  | 'x' => some 16
  | 'o' => some 8
  | 'b' => some 2
  | _ => none

def readBase? (base : Nat) (run : Text) : Option Nat :=
  if run.isEmpty ∨ ¬run.all (fun c => isHexDigit c && hexDigitValue c < base) then none
  else some (run.foldl (fun value c => value * base + hexDigitValue c) 0)

/-- Whether the text is an integer of up to 128 bits in base sixteen, eight or two,
with a sign or without. -/
def isMarkedInteger (text : Text) : Bool :=
  let (negative, unsigned) := Text.splitSign text
  match unsigned with
  | '0' :: mark :: run =>
      match (baseOf? mark).bind (readBase? · run) with
      | none => false
      | some value => if negative then value ≤ 2 ^ (127 : Nat) else value < 2 ^ (128 : Nat)
  | _ => false

def isFiniteNumber (text : Text) : Bool :=
  match Text.readScientific? text with
  | some number => number.isFinite
  | none => false

/-- Whether the text is digits with a zero before them, which is no number. -/
def hasLeadingZero (text : Text) : Bool :=
  let run := (Text.splitSign text).2
  1 < run.length && run.head? == some '0' && run.all Text.isDigit

/-- The words for no value, for truth values and for special numbers. -/
def reservedWords : List String :=
  ["", "~", "null", "Null", "NULL", "true", "True", "TRUE", "false", "False", "FALSE",
    ".inf", ".Inf", ".INF", "+.inf", "+.Inf", "+.INF", "-.inf", "-.Inf", "-.INF",
    ".nan", ".NaN", ".NAN"]

/-- Whether the plain text would not be read as a string, or only just. -/
def isAmbiguous (text : Text) : Bool :=
  reservedWords.contains (String.ofList text) || isMarkedInteger text ||
    hasLeadingZero text || isFiniteNumber text

def isBreak (c : Char) : Bool :=
  c == '\n' || c == '\r' || c.toNat == 0x85 || c.toNat == 0x2028 || c.toNat == 0x2029

/-- White space, the end of a line, or a null character. -/
def isGap (c : Char) : Bool := c == ' ' || c == '\t' || c.toNat == 0 || isBreak c

/-- Whether a character can stand in a scalar without an escape. -/
def isPrintable (c : Char) : Bool :=
  let code := c.toNat
  c == '\n' || (0x20 ≤ code && code ≤ 0x7E) ||
    (0xA0 ≤ code && code != 0xFEFF && code != 0xFFFE && code != 0xFFFF)

/-- Indicators that a plain scalar does not begin with. -/
def isIndicator (c : Char) : Bool :=
  "#,[]\x7b\x7d&*!|>\"%@".toList.contains c || c.toNat == 0x27 || c.toNat == 0x60

/-- Whether a character, between its neighbours, would end a plain scalar or begin
something else.  The ends of the text count as gaps. -/
def isIndicatorBetween (before after : Option Char) (c : Char) : Bool :=
  let gapAfter := after.all isGap
  match before with
  | none => isIndicator c || ((c == '?' || c == ':' || c == '-') && gapAfter)
  | some before => (c == ':' && gapAfter) || (c == '#' && isGap before)

def hasIndicator (before : Option Char) : Text → Bool
  | [] => false
  | c :: rest => isIndicatorBetween before rest.head? c || hasIndicator (some c) rest

/-- Whether a character of the first class stands directly before one of the second. -/
def hasPair (first second : Char → Bool) : Text → Bool
  | c :: d :: rest => (first c && second d) || hasPair first second (d :: rest)
  | _ => false

def isSpace (c : Char) : Bool := c == ' '

/-- Whether the text holds a character that needs an escape, or a space at the end of
a line. -/
def needsEscapes (text : Text) : Bool :=
  text.any (!isPrintable ·) || hasPair isSpace isBreak text

def plainHolds (text : Text) : Bool :=
  let marker := text.take 3 == ['-', '-', '-'] || text.take 3 == ['.', '.', '.']
  !(marker || hasIndicator none text || needsEscapes text || text.any isBreak ||
    text.head?.any isSpace || text.getLast?.any isSpace)

def singleQuotesHold (text : Text) : Bool :=
  !(needsEscapes text || hasPair isBreak isSpace text)

def literalHolds (text : Text) : Bool :=
  !(text.isEmpty || needsEscapes text || text.getLast?.any isSpace)

def styleOf (text : Text) : Style :=
  if text.contains '\n' then if literalHolds text then .literal else .doubleQuoted
  else if !isAmbiguous text && plainHolds text then .plain
  else if singleQuotesHold text then .singleQuoted
  else .doubleQuoted

def escape (c : Char) : Text :=
  let code := c.toNat
  match code with
  | 0x00 => ['\\', '0']
  | 0x07 => ['\\', 'a']
  | 0x08 => ['\\', 'b']
  | 0x09 => ['\\', 't']
  | 0x0A => ['\\', 'n']
  | 0x0B => ['\\', 'v']
  | 0x0C => ['\\', 'f']
  | 0x0D => ['\\', 'r']
  | 0x1B => ['\\', 'e']
  | 0x22 => ['\\', '"']
  | 0x5C => ['\\', '\\']
  | 0x85 => ['\\', 'N']
  | 0xA0 => ['\\', '_']
  | 0x2028 => ['\\', 'L']
  | 0x2029 => ['\\', 'P']
  | _ =>
      if code ≤ 0xFF then '\\' :: 'x' :: Text.capitalHexDigits 2 code
      else if code ≤ 0xFFFF then '\\' :: 'u' :: Text.capitalHexDigits 4 code
      else '\\' :: 'U' :: Text.capitalHexDigits 8 code

def doubleQuotedChar (c : Char) : Text :=
  if !isPrintable c || isBreak c || c == '"' || c == '\\' then escape c else [c]

/-- The text with every line, the first one apart when `atStart` is false, moved in by
a number of columns.  Lines without characters stay empty. -/
def indentLines (columns : Nat) (atStart : Bool) : Text → Text
  | [] => []
  | c :: rest =>
      if isBreak c then c :: indentLines columns true rest
      else
        (if atStart then List.replicate columns ' ' else []) ++
          c :: indentLines columns false rest

/-- A text between single quotes: a quote inside is written twice, and the text goes on
at the indentation after a line break. -/
def singleQuoted (columns : Nat) (text : Text) : Text :=
  let quote := Char.ofNat 0x27
  let doubled := text.flatMap fun c => if c = quote then [quote, quote] else [c]
  let closing := if text.getLast?.any isBreak then List.replicate columns ' ' else []
  quote :: indentLines columns false doubled ++ closing ++ [quote]

/-- The marks behind the bar of a literal block: the indentation when the text begins
with white space, and what becomes of the line breaks at its end. -/
def literalMarks (text : Text) : Text :=
  let indentation := if text.head?.any fun c => isSpace c || isBreak c then ['2'] else []
  let chomping :=
    match text.reverse with
    | [] => ['-']
    | [last] => if isBreak last then ['+'] else ['-']
    | last :: before :: _ =>
        if !isBreak last then ['-'] else if isBreak before then ['+'] else []
  indentation ++ chomping

/-- A scalar in its style, where a continued line is indented by `columns`. -/
def scalar (columns : Nat) (text : Text) : Text :=
  match styleOf text with
  | .plain => text
  | .singleQuoted => singleQuoted columns text
  | .doubleQuoted => '"' :: text.flatMap doubleQuotedChar ++ ['"']
  | .literal => '|' :: literalMarks text ++ '\n' :: indentLines columns true text

/-- Ends the line that a scalar stands on, unless a literal block has ended it. -/
def endLine (written : Text) : Text :=
  if written.getLast?.any isBreak then written else written ++ ['\n']

/-- An entry of a mapping at an indentation, without the indentation. -/
def entry (columns : Nat) (name : String) (value : Text) : Text :=
  endLine (name.toList ++ ':' :: ' ' :: scalar (columns + 2) value)

mutual
/-- The mapping of a node at an indentation.  Its first line is not indented: the text
before it ends at the right column. -/
def mapping (columns : Nat) : Labelled → Text
  | .mk kind label text children =>
      let margin := List.replicate columns ' '
      entry columns "node_type" kind.tag.toList ++
        margin ++ entry columns "label" label ++
        (match text with
        | none => []
        | some text => margin ++ entry columns "text" text) ++
        (if children.isEmpty then []
        else margin ++ "children:\n".toList ++ sequence columns children)

def sequence (columns : Nat) : List Labelled → Text
  | [] => []
  | child :: rest =>
      List.replicate columns ' ' ++ '-' :: ' ' :: mapping (columns + 2) child ++
        sequence columns rest
end

end Yaml

def Node.yaml (node : Node) : Text := Yaml.mapping 0 node.labelled

end ProseTree
