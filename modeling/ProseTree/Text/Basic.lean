namespace ProseTree

/-! Text as a list of characters: its length in bytes, the blanks at its ends, its digits, and
cutting it at the occurrences of a rule.

A rule looks at one place of a text at a time, so an occurrence is the first one from the left,
and the next is looked for behind it.  The result keeps the text: `join` gives back what was
cut. -/

/-- Text is the list of its characters: cutting and matching go character by
character. -/
abbrev Text := List Char

namespace Text

/-- The length of the text in UTF-8, in bytes. -/
def byteLength : Text → Nat
  | [] => 0
  | c :: rest => c.utf8Size + byteLength rest

@[simp] theorem byteLength_append (left right : Text) :
    byteLength (left ++ right) = byteLength left + byteLength right := by
  induction left with
  | nil => simp [byteLength]
  | cons c rest ih => simp [byteLength, ih, Nat.add_assoc]

/-- White space of every script: the controls U+0009 to U+000D and U+0085, the
spaces, and the line and paragraph separators. -/
def isBlank (c : Char) : Bool :=
  let code := c.toNat
  (0x09 ≤ code && code ≤ 0x0D) || code == 0x20 || code == 0x85 || code == 0xA0 ||
    code == 0x1680 || (0x2000 ≤ code && code ≤ 0x200A) || code == 0x2028 ||
    code == 0x2029 || code == 0x202F || code == 0x205F || code == 0x3000

def isBlankText (text : Text) : Bool := text.all isBlank

def trimStart (text : Text) : Text := text.dropWhile isBlank

def trimEnd (text : Text) : Text := (text.reverse.dropWhile isBlank).reverse

def trim (text : Text) : Text := trimEnd (trimStart text)

/-- A range of code points, both ends included. -/
abbrev Span := Nat × Nat

/-- Whether a range of an ascending list holds the code point.  The search stops at
the first range that begins beyond it. -/
def covers : List Span → Nat → Bool
  | [], _ => false
  | (first, last) :: rest, code =>
      if code < first then false else code ≤ last || covers rest code

def isDigit (c : Char) : Bool := '0' ≤ c && c ≤ '9'

/-- The decimal digits of a number, without leading zeros. -/
def digits (n : Nat) : Text := Nat.toDigits 10 n

def ofDigits (run : Text) : Nat := Nat.ofDigitChars 10 run 0

/-- The digits of a number, with zeros before them up to a width. -/
def paddedDigits (width n : Nat) : Text :=
  List.replicate (width - (digits n).length) '0' ++ digits n

/-- The number in base sixteen with small letters, with zeros before it up to a width. -/
def hexDigits (width n : Nat) : Text :=
  let run := Nat.toDigits 16 n
  List.replicate (width - run.length) '0' ++ run

def capitalHexDigits (width n : Nat) : Text := (hexDigits width n).map Char.toUpper

attribute [local instance (high)] instPowNat

theorem not_isBlank_of_isDigit {c : Char} (digit : isDigit c = true) : isBlank c = false := by
  have bounds : '0' ≤ c ∧ c ≤ '9' := by simpa [isDigit] using digit
  have range : 48 ≤ c.toNat ∧ c.toNat ≤ 57 := ⟨bounds.1, bounds.2⟩
  simp only [isBlank, Bool.or_eq_false_iff, Bool.and_eq_false_iff, decide_eq_false_iff_not,
    beq_eq_false_iff_ne]
  omega

theorem isDigit_of_mem_digits {n : Nat} {c : Char} (member : c ∈ digits n) :
    isDigit c = true := by
  have digit := Nat.isDigit_of_mem_toDigits (by decide) (by decide) member
  simpa [Char.isDigit, isDigit, Char.le_def] using digit

theorem isDigit_of_mem_paddedDigits {width n : Nat} {c : Char}
    (member : c ∈ paddedDigits width n) : isDigit c = true := by
  rcases List.mem_append.mp member with padding | digit
  · obtain rfl := List.eq_of_mem_replicate padding
    decide
  · exact isDigit_of_mem_digits digit

theorem length_paddedDigits {width n : Nat} (positive : 0 < width) (small : n < 10 ^ width) :
    (paddedDigits width n).length = width := by
  have bounded : (digits n).length ≤ width :=
    (Nat.length_toDigits_le_iff (by decide) positive).mpr small
  simp only [paddedDigits, List.length_append, List.length_replicate]
  omega

theorem ofDigits_append (front back : Text) :
    ofDigits (front ++ back) =
      ofDigits front * 10 ^ back.length + ofDigits back := by
  rw [ofDigits, Nat.ofDigitChars_append, Nat.ofDigitChars_eq_ofDigitChars_zero, Nat.mul_comm]
  rfl

theorem ofDigits_digits (n : Nat) : ofDigits (digits n) = n :=
  Nat.ofDigitChars_ten_toDigits

theorem ofDigits_paddedDigits (width n : Nat) : ofDigits (paddedDigits width n) = n := by
  rw [paddedDigits, ofDigits_append, ofDigits_digits, ofDigits,
    Nat.ofDigitChars_replicate_zero]
  simp

end Text

/-- How many characters an occurrence takes at the head of the text, and zero when
there is none.  A rule also sees the character just before that place. -/
abbrev Rule := Option Char → Text → Nat

/-- A cut text: occurrences with the gaps before, between and after them. -/
inductive Segments where
  | last (gap : Text)
  | found (gap occurrence : Text) (rest : Segments)

namespace Segments

def join : Segments → Text
  | .last gap => gap
  | .found gap occurrence rest => gap ++ occurrence ++ rest.join

def gaps : Segments → List Text
  | .last gap => [gap]
  | .found gap _ rest => gap :: rest.gaps

def occurrences : Segments → List Text
  | .last _ => []
  | .found _ occurrence rest => occurrence :: rest.occurrences

def push (c : Char) : Segments → Segments
  | .last gap => .last (c :: gap)
  | .found gap occurrence rest => .found (c :: gap) occurrence rest

/-- The byte ranges of the occurrences when the text begins at an offset. -/
def spansFrom (offset : Nat) : Segments → List (Nat × Nat)
  | .last _ => []
  | .found gap occurrence rest =>
      let start := offset + gap.byteLength
      let stop := start + occurrence.byteLength
      (start, stop) :: rest.spansFrom stop

def spans (segments : Segments) : List (Nat × Nat) := segments.spansFrom 0

@[simp] theorem join_push (c : Char) (segments : Segments) :
    (segments.push c).join = c :: segments.join := by
  cases segments <;> simp [push, join]

end Segments

namespace Text

/-- Cuts the text at the occurrences of a rule, where `before` is the character in
front of it. -/
def cutAfter (rule : Rule) (before : Option Char) (text : Text) : Segments :=
  match text with
  | [] => .last []
  | c :: rest =>
      match rule before (c :: rest) with
      | 0 => (cutAfter rule (some c) rest).push c
      | more + 1 =>
          let occurrence := c :: rest.take more
          .found [] occurrence (cutAfter rule occurrence.getLast? (rest.drop more))
termination_by text.length
decreasing_by all_goals simp only [List.length_cons, List.length_drop]; omega

def cut (rule : Rule) (text : Text) : Segments := cutAfter rule none text

theorem join_cutAfter (rule : Rule) (before : Option Char) (text : Text) :
    (cutAfter rule before text).join = text := by
  fun_induction cutAfter rule before text with
  | case1 => rfl
  | case2 before c rest _ ih => simp [ih]
  | case3 before c rest more _ occurrence ih => simp [Segments.join, occurrence, ih]

/-- Cutting loses nothing. -/
theorem join_cut (rule : Rule) (text : Text) : (cut rule text).join = text :=
  join_cutAfter rule none text

end Text

end ProseTree
