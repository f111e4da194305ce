import ProseTree.Analysis.Sentences
import ProseTree.Binary64.Decimal
import ProseTree.Entries
import ProseTree.Text.Lowercase

namespace ProseTree.Analysis

/-! What is counted in the words of a text: the sentences that contain the longest word, the words
that occur more than once, whatever their case, and the vowels and consonants of the Latin and the
Russian alphabet. -/

structure LongestWordMatch where
  sentence : Text
  word : Text
  /-- The length of the word in characters. -/
  length : Nat
deriving DecidableEq

def firstLongest? : List Text → Option Text
  | [] => none
  | word :: rest =>
      match firstLongest? rest with
      | none => some word
      | some later => if word.length < later.length then some later else some word

/-- A sentence with its longest word, the first one if there are several; nothing for
a sentence without words. -/
def longestWordOf? (sentence : Node) : Option LongestWordMatch :=
  let words := (sentence.descendantsOfKind .word).filterMap Node.text?
  (firstLongest? words).map fun word =>
    ⟨sentence.reconstruct, word, word.length⟩

def longestWords (node : Node) : List LongestWordMatch :=
  let candidates := node.sentences.filterMap longestWordOf?
  let greatest := (candidates.map (·.length)).foldl max 0
  candidates.filter (·.length == greatest)

def longestWordEntry (found : LongestWordMatch) : String :=
  "Sentence: " ++ String.ofList found.sentence ++ "\nLongest word: \"" ++
    String.ofList found.word ++ "\" (" ++ toString found.length ++ " characters)\n\n"

def longestWord : Operation where
  name := "longest-word"
  description := "Find the sentences containing the longest word of the text"
  run node :=
    let title := "Sentences with the longest word"
    match longestWords node with
    | [] => .ok { title, body := "No words found.\n" }
    | first :: rest =>
        .ok {
          title
          body := "Longest word length: " ++ toString first.length ++ " characters\n\n" ++
            String.join ((first :: rest).map longestWordEntry) }

attribute [local instance (high)] List.instLE List.decidableLE

def loweredWords (node : Node) : List Text :=
  (node.textsOfKind .word).map Text.lower

/-- Words with their numbers, and the place of each word among them. -/
structure WordTable where
  counts : List (Text × Nat)
  places : Entries Text Nat

namespace WordTable

def empty : WordTable := ⟨[], []⟩

/-- Counts a word once more: at its place if it has one, else behind the others. -/
def count (table : WordTable) (word : Text) : WordTable :=
  match table.places.lookup word with
  | some place =>
      { table with counts := table.counts.modify place fun entry => (entry.1, entry.2 + 1) }
  | none => ⟨table.counts ++ [(word, 1)], table.places.put word table.counts.length⟩

end WordTable

/-- The different words of a list with the number of times each occurs, in the order
of their first occurrence. -/
def tally (words : List Text) : List (Text × Nat) :=
  (words.foldl WordTable.count .empty).counts

/-- Whether an entry goes before another: by greater count, then by the word. -/
def goesBefore (left right : Text × Nat) : Bool :=
  right.2 < left.2 || (left.2 == right.2 && decide (left.1 ≤ right.1))

/-- The words that occur more than once, the most frequent first and words of equal
frequency in alphabetical order. -/
def repeatedWords (node : Node) : List (Text × Nat) :=
  ((tally (loweredWords node)).filter (1 < ·.2)).mergeSort goesBefore

def repeatedWordEntry (entry : Text × Nat) : String :=
  "- \"" ++ String.ofList entry.1 ++ "\": " ++ toString entry.2 ++ " times\n"

def identicalWords : Operation where
  name := "identical-words"
  description := "Count words that appear more than once, ignoring case"
  run node :=
    let title := "Identical words (case-insensitive)"
    let counts := tally (loweredWords node)
    let repeated := repeatedWords node
    if counts.isEmpty then .ok { title, body := "No words found.\n" }
    else
      .ok {
        title
        body :=
          (if repeated.isEmpty then "No repeated words found.\n"
          else "Repeated words:\n" ++ String.join (repeated.map repeatedWordEntry)) ++
          "\nUnique words: " ++ toString counts.length ++
          "\nRepeated words: " ++ toString repeated.length ++ "\n" }

/-- Vowels in lower case; `y` counts as one. -/
def vowels : Text := "аеёиоуыэюяaeiouy".toList

/-- Consonants in lower case, with the hard and the soft sign. -/
def consonants : Text := "бвгджзйклмнпрстфхцчшщъьbcdfghjklmnpqrstvwxz".toList

structure LetterCount where
  vowels : Nat
  consonants : Nat
deriving DecidableEq

namespace LetterCount

def zero : LetterCount := ⟨0, 0⟩

def add (left right : LetterCount) : LetterCount :=
  ⟨left.vowels + right.vowels, left.consonants + right.consonants⟩

end LetterCount

def countLetters (text : Text) : LetterCount :=
  let lowered := text.flatMap Text.lowerChar
  ⟨lowered.countP (vowels.contains ·), lowered.countP (consonants.contains ·)⟩

def countAllLetters (texts : List Text) : LetterCount :=
  texts.foldl (fun total text => total.add (countLetters text)) .zero

def letterEntry (sentence : Text × Nat) : String :=
  let count := countLetters sentence.1
  "Sentence " ++ toString sentence.2 ++ ":\n\"" ++ String.ofList sentence.1 ++
    "\"\nVowels: " ++ toString count.vowels ++ ", consonants: " ++
    toString count.consonants ++ "\n\n"

def average (total count : Nat) : String :=
  String.ofList (Binary64.ofCounts total count).textTwoPlaces

def vowelsConsonants : Operation where
  name := "vowels-consonants"
  description := "Count vowels and consonants in each sentence"
  run node :=
    let title := "Vowels and consonants per sentence"
    let sentences := node.sentences.map Node.reconstruct
    let count := sentences.length
    let total := countAllLetters sentences
    if sentences.isEmpty then .ok { title, body := "No sentences found.\n" }
    else
      .ok {
        title
        body := String.join ((sentences.zipIdx 1).map letterEntry) ++
          "Sentences: " ++ toString count ++
          "\nVowels: " ++ toString total.vowels ++
          "\nConsonants: " ++ toString total.consonants ++
          "\nAverage vowels per sentence: " ++ average total.vowels count ++
          "\nAverage consonants per sentence: " ++ average total.consonants count ++
          "\n" }

end ProseTree.Analysis
