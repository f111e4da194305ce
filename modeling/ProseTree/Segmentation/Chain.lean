import ProseTree.Expression.Reduce
import ProseTree.Node.Basic

namespace ProseTree.Segmentation

/-! Building a tree by cutting a text level by level: between paragraphs, sentences and lexemes,
and around words.

A chain is the list of levels to cut through, the outermost first.  The usual chain
goes from document to lexeme, but any list of levels is a chain. -/

/-- The end of the last line feed in a text, counted from its head; zero when there is
none. -/
def pastLastLineFeed (text : Text) : Nat :=
  text.length - (text.reverse.takeWhile (· != '\n')).length

/-- The separator of paragraphs.  It begins at a line feed.  If the white space behind
that holds another line feed, the separator goes up to the last one; otherwise it is
the line feed with one tab directly behind it, or with all the white space behind it
when that is four characters or more. -/
def paragraphSeparator : Rule := fun _ text =>
  match text with
  | '\n' :: rest =>
      let blanks := rest.takeWhile Text.isBlank
      if blanks.contains '\n' then 1 + pastLastLineFeed blanks
      else if blanks.head? = some '\t' then 2
      else if 4 ≤ blanks.length then 1 + blanks.length
      else 0
  | _ => 0

def isTerminator (c : Char) : Bool := c == '.' || c == '!' || c == '?' || c == '…'

/-- Begins a sentence: a capital letter of the Latin or the Russian alphabet. -/
def isOpener (c : Char) : Bool :=
  ('A' ≤ c && c ≤ 'Z') || ('А' ≤ c && c ≤ 'Я') || c == 'Ё'

/-- The gap between sentences: white space between a terminator and an opener. -/
def sentenceGap : Rule := fun before text =>
  if before.any isTerminator then
    let blanks := text.takeWhile Text.isBlank
    match text.drop blanks.length with
    | [] => 0
    | c :: _ => if isOpener c then blanks.length else 0
  else 0

/-- The gap between sentences together with the terminator and the opener around it. -/
def sentenceBoundary : Rule := fun _ text =>
  match text with
  | [] => 0
  | c :: rest =>
      let gap := sentenceGap (some c) rest
      if gap = 0 then 0 else gap + 2

/-- A lexeme: everything up to the next white space. -/
def lexeme : Rule := fun _ text => (text.takeWhile (!Text.isBlank ·)).length

/-- A word: a decimal with digits on both sides of its point, or a run of word
characters. -/
def word : Rule := fun _ text =>
  let whole := text.takeWhile Text.isDigit
  let decimal :=
    match text.drop whole.length with
    | '.' :: rest => (rest.takeWhile Text.isDigit).length
    | _ => 0
  if whole.length ≠ 0 ∧ decimal ≠ 0 then whole.length + 1 + decimal
  else (text.takeWhile Text.isWordChar).length

def splitParagraphs (text : Text) : List Text := (text.cut paragraphSeparator).gaps

/-- The pieces of a text between the gaps of sentences; a terminator stays with the
sentence before it. -/
def splitSentences (text : Text) : List Text := (text.cut sentenceGap).gaps

def lexemes (text : Text) : List Text := (text.cut lexeme).occurrences

inductive Level where
  | document
  /-- A paragraph, with the expressions in it replaced by their values or not. -/
  | paragraph (evaluates : Bool)
  | sentence
  | lexeme
deriving DecidableEq

/-- The levels to cut through, outermost first. -/
abbrev Chain := List Level

namespace Level

def kind : Level → Kind
  | .document => .document
  | .paragraph _ => .paragraph
  | .sentence => .sentence
  | .lexeme => .lexeme

/-- The pieces that a level cuts a text into.  A lexeme is not cut any further here:
its parts are leaves, see `lexemeLeaves`. -/
def pieces : Level → Text → List Text
  | .document, text => splitParagraphs text
  | .paragraph true, text => splitSentences (Expression.reduce text).text
  | .paragraph false, text => splitSentences text
  | .sentence, text => lexemes text
  | .lexeme, text => [text]

end Level

/-- Punctuation between words, unless it is nothing but white space. -/
def gapLeaf (gap : Text) : List Node :=
  if gap.trim.isEmpty then [] else [.leaf none .punctuation gap]

/-- The words of a lexeme with the punctuation around them. -/
def lexemeLeaves : Segments → List Node
  | .last gap => gapLeaf gap
  | .found gap occurrence rest =>
      gapLeaf gap ++ .leaf none .word occurrence :: lexemeLeaves rest

/-- The pieces worth a node: without the white space at their ends, and not empty. -/
def trimmedPieces (pieces : List Text) : List Text :=
  (pieces.map Text.trim).filter (!·.isEmpty)

namespace Chain

/-- The tree of a text.  A lexeme always ends the chain; a chain that ends before
leaves the nodes of its last level without children; no level at all gives an empty
document. -/
def parse : Chain → Text → Node
  | [], _ => .composite none .document []
  | .lexeme :: _, text => .composite none .lexeme (lexemeLeaves (text.cut word))
  | level :: [], _ => .composite none level.kind []
  | level :: next :: rest, text =>
      .composite none level.kind
        ((trimmedPieces (level.pieces text)).map (parse (next :: rest)))

def parseAll (chain : Chain) (pieces : List Text) : List Node :=
  if chain.isEmpty then [] else (trimmedPieces pieces).map chain.parse

def compose (chain : Chain) (kind : Kind) (pieces : List Text) :
    Except Node.PayloadError Node :=
  Node.ofChildren kind (chain.parseAll pieces)

def full (evaluates : Bool) : Chain :=
  [.document, .paragraph evaluates, .sentence, .lexeme]

/-- The usual chain: from document to lexeme, with expressions evaluated. -/
def standard : Chain := full true

def kinds (chain : Chain) : List Kind := chain.map Level.kind

end Chain

end ProseTree.Segmentation
