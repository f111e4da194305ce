import ProseTree.Settings.Basic

namespace ProseTree.Settings.Toml

/-! What stands for a value without parts in a settings file, read from the head of a text.

Strings stand between double quotes with escapes, or between single quotes without, each on one
line or, between three quotes, on several.  Numbers are integers of 64 bits in four bases and
floating-point numbers; a single underscore may stand between two digits.  Dates and times have no
type of their own as settings: they are given as text, in one writing for each moment. -/

/-- Reads something at the head of a text and leaves the rest. -/
abbrev Reader := StateT Text Option

namespace Reader

/-- Reads the longest run of characters of a class. -/
def run (accepts : Char → Bool) : Reader Text := fun text =>
  some (text.takeWhile accepts, text.dropWhile accepts)

def exactly (wanted : Text) : Reader Unit := fun text =>
  if wanted.isPrefixOf text then some ((), text.drop wanted.length) else none

def one (accepts : Char → Bool) : Reader Char := fun text =>
  match text with
  | c :: rest => if accepts c then some (c, rest) else none
  | [] => none

def peek : Reader (Option Char) := fun text => some (text.head?, text)

/-- Reads a number of exactly so many digits that lies between two bounds. -/
def number (width low high : Nat) : Reader Nat := fun text =>
  let run := text.take width
  let value := Text.ofDigits run
  if run.length = width ∧ run.all Text.isDigit ∧ low ≤ value ∧ value ≤ high then
    some (value, text.drop width)
  else none

def maybe {α : Type} (reader : Reader α) : Reader (Option α) :=
  (some <$> reader) <|> pure none

/-- Reads something again and again, so many times at most, until it is not there or
nothing is taken. -/
def upTo {α : Type} (limit : Nat) (reader : Reader α) : Reader (List α) := fun text =>
  match limit with
  | 0 => some ([], text)
  | limit + 1 =>
      match reader text with
      | none => some ([], text)
      | some (item, rest) =>
          if rest.length < text.length then
            (upTo limit reader rest).map fun (items, behind) => (item :: items, behind)
          else some ([], text)

def many {α : Type} (reader : Reader α) : Reader (List α) := fun text =>
  upTo text.length reader text

end Reader

def isSpace (c : Char) : Bool := c == ' ' || c == '\t'

/-- Whether a comment or a string may hold the character: no control but the tab. -/
def isText (c : Char) : Bool := c == '\t' || (0x20 ≤ c.toNat && c.toNat != 0x7F)

def hexDigitValue? (c : Char) : Option Nat :=
  if '0' ≤ c ∧ c ≤ '9' then some (c.toNat - '0'.toNat)
  else if 'a' ≤ c ∧ c ≤ 'f' then some (c.toNat - 'a'.toNat + 10)
  else if 'A' ≤ c ∧ c ≤ 'F' then some (c.toNat - 'A'.toNat + 10)
  else none

def charOfHex? (run : Text) : Option Char :=
  let code := run.foldl
    (fun value c => value.bind fun value => (hexDigitValue? c).map (value * 16 + ·)) (some 0)
  code.bind fun code =>
    if code < 0xD800 ∨ (0xDFFF < code ∧ code < 0x110000) then some (Char.ofNat code) else none

def escaped? : Char → Option Char
  | 'b' => some '\x08'
  | 't' => some '\t'
  | 'n' => some '\n'
  | 'f' => some '\x0c'
  | 'r' => some '\r'
  | '"' => some '"'
  | '\\' => some '\\'
  | _ => none

def prepend (c : Option Char) (rest : Option (Text × Text)) : Option (Text × Text) :=
  match c, rest with
  | some c, some (text, behind) => some (c :: text, behind)
  | _, _ => none

/-- The rest of a string between double quotes, on one line. -/
def basicBody : Text → Option (Text × Text)
  | '"' :: rest => some ([], rest)
  | '\\' :: 'u' :: a :: b :: c :: d :: rest => prepend (charOfHex? [a, b, c, d]) (basicBody rest)
  | '\\' :: 'U' :: a :: b :: c :: d :: e :: f :: g :: h :: rest =>
      prepend (charOfHex? [a, b, c, d, e, f, g, h]) (basicBody rest)
  | '\\' :: mark :: rest => prepend (escaped? mark) (basicBody rest)
  | c :: rest => if isText c ∧ c ≠ '\\' then prepend (some c) (basicBody rest) else none
  | [] => none

/-- Whether a line ends here, space apart. -/
def atLineEnd (text : Text) : Bool :=
  match text.dropWhile isSpace with
  | '\n' :: _ => true
  | '\r' :: '\n' :: _ => true
  | _ => false

/-- The rest of a string between three double quotes.  After a backslash at the end of a
line, `skipping` passes over white space and line ends. -/
def longBasicBody (skipping : Bool) : Text → Option (Text × Text)
  | '"' :: '"' :: '"' :: '"' :: '"' :: rest => some (['"', '"'], rest)
  | '"' :: '"' :: '"' :: '"' :: rest => some (['"'], rest)
  | '"' :: '"' :: '"' :: rest => some ([], rest)
  | '\r' :: '\n' :: rest =>
      if skipping then longBasicBody true rest
      else prepend (some '\n') (longBasicBody false rest)
  | '\\' :: 'u' :: a :: b :: c :: d :: rest =>
      prepend (charOfHex? [a, b, c, d]) (longBasicBody false rest)
  | '\\' :: 'U' :: a :: b :: c :: d :: e :: f :: g :: h :: rest =>
      prepend (charOfHex? [a, b, c, d, e, f, g, h]) (longBasicBody false rest)
  | '\\' :: mark :: rest =>
      if atLineEnd (mark :: rest) then longBasicBody true (mark :: rest)
      else prepend (escaped? mark) (longBasicBody false rest)
  | c :: rest =>
      if skipping ∧ (isSpace c ∨ c = '\n') then longBasicBody true rest
      else if (isText c ∧ c ≠ '\\') ∨ c = '\n' then
        prepend (some c) (longBasicBody false rest)
      else none
  | [] => none

/-- The rest of a string between single quotes, on one line. -/
def literalBody : Text → Option (Text × Text)
  | [] => none
  | c :: rest =>
      if c.toNat = 0x27 then some ([], rest)
      else if isText c then prepend (some c) (literalBody rest)
      else none

/-- The rest of a string between three single quotes, of which `passed` have just been
read. -/
def longLiteralBody (passed : Nat) : Text → Option (Text × Text)
  | [] => if passed = 3 ∨ passed = 4 ∨ passed = 5 then some (quotes (passed - 3), []) else none
  | c :: rest =>
      if c.toNat = 0x27 ∧ passed < 5 then longLiteralBody (passed + 1) rest
      else if 3 ≤ passed then some (quotes (passed - 3), c :: rest)
      else
        let behind :=
          if c = '\n' ∨ isText c then prepend (some c) (longLiteralBody 0 rest)
          else if c = '\r' ∧ rest.head? = some '\n' then longLiteralBody 0 rest
          else none
        behind.map fun (text, rest) => (quotes passed ++ text, rest)
where
  quotes (count : Nat) : Text := List.replicate count (Char.ofNat 0x27)

def dropLineEnd : Text → Text
  | '\n' :: rest => rest
  | '\r' :: '\n' :: rest => rest
  | text => text

def readShortString : Reader Text := fun text =>
  match text with
  | '"' :: rest => basicBody rest
  | c :: rest => if c.toNat = 0x27 then literalBody rest else none
  | [] => none

/-- Reads a string of any of the four forms. -/
def readString : Reader Text := fun text =>
  let single := Char.ofNat 0x27
  if ['"', '"', '"'].isPrefixOf text then longBasicBody false (dropLineEnd (text.drop 3))
  else if [single, single, single].isPrefixOf text then
    longLiteralBody 0 (dropLineEnd (text.drop 3))
  else readShortString text

attribute [local instance (high)] instPowNat

/-- The digits of a run in which single underscores may stand between digits. -/
def digitsOf? (isDigit : Char → Bool) (run : Text) : Option Text :=
  let groups := run.splitOn '_'
  if groups.all fun group => !group.isEmpty && group.all isDigit then some groups.flatten
  else none

/-- Whether a whole part has a zero in front of other digits. -/
def hasLeadingZero (digits : Text) : Bool := 1 < digits.length && digits.head? == some '0'

/-- An integer of 64 bits, with its sign. -/
def inRange (value : Int) : Option Scalar :=
  if -(2 ^ (63 : Nat)) ≤ value ∧ value < 2 ^ (63 : Nat) then some (.integer value) else none

def readBase? (base : Nat) (run : Text) : Option Scalar := do
  let isDigit (c : Char) : Bool := (hexDigitValue? c).any (· < base)
  let digits ← digitsOf? isDigit run
  inRange (digits.foldl (fun value c => value * base + (hexDigitValue? c).getD 0) 0)

def readDecimal? (run : Text) : Option Scalar := do
  let (negative, unsigned) := Text.splitSign run
  let digits ← digitsOf? Text.isDigit unsigned
  if hasLeadingZero digits then none
  else
    let value : Int := Text.ofDigits digits
    inRange (if negative then -value else value)

def readFloat? (run : Text) : Option Scalar := do
  let (negative, unsigned) := Text.splitSign run
  let isMark (c : Char) : Bool := c == 'e' || c == 'E'
  let mantissa := unsigned.takeWhile (!isMark ·)
  let exponent ←
    match unsigned.drop mantissa.length with
    | [] => some 0
    | _ :: exponent =>
        let (down, digits) := Text.splitSign exponent
        (digitsOf? Text.isDigit digits).map fun digits =>
          if down then -(Text.ofDigits digits : Int) else Text.ofDigits digits
  let whole ← digitsOf? Text.isDigit (mantissa.takeWhile (· != '.'))
  let fraction ←
    match mantissa.dropWhile (· != '.') with
    | [] => some []
    | _ :: fraction => digitsOf? Text.isDigit fraction
  let decimal : Decimal := ⟨Text.ofDigits (whole ++ fraction), fraction.length⟩
  let value := Binary64.ofScientific negative decimal exponent
  if unsigned.all (fun c => Text.isDigit c || c == '_') ∨ hasLeadingZero whole ∨
      value = .infinite false then none
  else some (.float value)

def specialNumber? (run : Text) : Option Scalar :=
  let (negative, unsigned) := Text.splitSign run
  if unsigned = ['i', 'n', 'f'] then some (.float (.infinite negative))
  else if unsigned = ['n', 'a', 'n'] then some (.float .nan)
  else none

def readNumber : Reader Scalar := do
  let run ← Reader.run fun c => c.isAlphanum || c == '_' || c == '+' || c == '-' || c == '.'
  match run with
  | '0' :: 'x' :: digits => StateT.lift (readBase? 16 digits)
  | '0' :: 'o' :: digits => StateT.lift (readBase? 8 digits)
  | '0' :: 'b' :: digits => StateT.lift (readBase? 2 digits)
  | _ => StateT.lift (specialNumber? run <|> readDecimal? run <|> readFloat? run)

def isLeapYear (year : Nat) : Bool := year % 4 == 0 && (year % 100 != 0 || year % 400 == 0)

def daysIn (year month : Nat) : Nat :=
  if month = 2 then if isLeapYear year then 29 else 28
  else if [4, 6, 9, 11].contains month then 30
  else 31

def readDate : Reader Text := do
  let year ← Reader.number 4 0 9999
  Reader.exactly ['-']
  let month ← Reader.number 2 1 12
  Reader.exactly ['-']
  let day ← Reader.number 2 1 (daysIn year month)
  pure (Text.paddedDigits 4 year ++ '-' :: Text.paddedDigits 2 month ++
    '-' :: Text.paddedDigits 2 day)

/-- The digits of a second behind the point: nine at most, without zeros at the end. -/
def fractionOfSecond (digits : Text) : Text :=
  let kept := ((digits.take 9).reverse.dropWhile (· == '0')).reverse
  if kept.isEmpty then [] else '.' :: kept

def readTime : Reader Text := do
  let hour ← Reader.number 2 0 23
  Reader.exactly [':']
  let minute ← Reader.number 2 0 59
  Reader.exactly [':']
  let second ← Reader.number 2 0 60
  let fraction ← Reader.maybe do
    Reader.exactly ['.']
    let first ← Reader.one Text.isDigit
    let rest ← Reader.run Text.isDigit
    pure (first :: rest)
  pure (Text.paddedDigits 2 hour ++ ':' :: Text.paddedDigits 2 minute ++
    ':' :: Text.paddedDigits 2 second ++ fractionOfSecond (fraction.getD []))

def readOffset : Reader Text := do
  let mark ← Reader.one fun c => c == 'Z' || c == 'z' || c == '+' || c == '-'
  if mark = 'Z' ∨ mark = 'z' then pure ['Z']
  else
    let hour ← Reader.number 2 0 23
    Reader.exactly [':']
    let minute ← Reader.number 2 0 59
    let sign := if mark = '-' ∧ (hour, minute) ≠ (0, 0) then '-' else '+'
    pure (sign :: Text.paddedDigits 2 hour ++ ':' :: Text.paddedDigits 2 minute)

/-- Reads a date, a time or both, and gives them in their usual writing. -/
def readMoment : Reader Text :=
  (do
    let date ← readDate
    let time ← Reader.maybe do
      let _ ← Reader.one fun c => c == 'T' || c == 't' || c == ' '
      let time ← readTime
      let offset ← Reader.maybe readOffset
      pure (time ++ offset.getD [])
    pure (match time with
      | some time => date ++ 'T' :: time
      | none => date)) <|> readTime

end ProseTree.Settings.Toml
