import ProseTree.Analysis.Words
import ProseTree.Proofs.Expression.Foreign
import ProseTree.Proofs.Segmentation.Shape

namespace ProseTree.Analysis

/-! The letters of a text are the letters of its sentences.

Letters are counted character by character, and neither white space nor a character of an
expression is one.  So the letters of a text are those of its ink, which cutting keeps, and
those of its foreign characters, which a reduction keeps. -/

open Text Expression Segmentation

variable {text left right : Text} {c : Char}

namespace LetterCount

theorem zero_add (count : LetterCount) : zero.add count = count := by
  simp [add, zero]

theorem add_assoc (first second third : LetterCount) :
    (first.add second).add third = first.add (second.add third) := by
  simp [add, Nat.add_assoc]

end LetterCount

theorem countLetters_append (left right : Text) :
    countLetters (left ++ right) = (countLetters left).add (countLetters right) := by
  simp [countLetters, LetterCount.add]

theorem countAllLetters_eq (texts : List Text) :
    countAllLetters texts = countLetters texts.flatten := by
  have onTop : ∀ total : LetterCount,
      texts.foldl (fun total text => total.add (countLetters text)) total =
        total.add (countLetters texts.flatten) := by
    induction texts with
    | nil => exact fun total => rfl
    | cons text rest ih =>
        intro total
        rw [List.foldl_cons, ih, List.flatten_cons, countLetters_append, LetterCount.add_assoc]
  rw [countAllLetters, onTop, LetterCount.zero_add]

/-- Pieces that are replaced by others with the same letters have the same letters together. -/
theorem countLetters_flatten_map {pieces : List Text} {replace : Text → Text}
    (same : ∀ piece, countLetters (replace piece) = countLetters piece) :
    countLetters (pieces.map replace).flatten = countLetters pieces.flatten := by
  induction pieces with
  | nil => rfl
  | cons piece rest ih =>
      rw [List.map_cons, List.flatten_cons, List.flatten_cons, countLetters_append,
        countLetters_append, same, ih]

theorem countLetters_filter {keeps : Char → Bool}
    (silent : ∀ c, keeps c = false → countLetters [c] = .zero) (text : Text) :
    countLetters (text.filter keeps) = countLetters text := by
  induction text with
  | nil => rfl
  | cons c rest ih =>
      have split : countLetters (c :: rest) = (countLetters [c]).add (countLetters rest) :=
        countLetters_append [c] rest
      cases kept : keeps c with
      | true =>
          rw [List.filter_cons_of_pos kept, split, ← ih]
          exact countLetters_append [c] _
      | false =>
          rw [List.filter_cons_of_neg (by simp [kept]), split, silent c kept, ih,
            LetterCount.zero_add]

theorem countLetters_blank (blank : isBlank c = true) : countLetters [c] = .zero := by
  have silent : ∀ code ∈ blankCodes, countLetters [Char.ofNat code] = .zero := by decide +kernel
  exact of_isBlank (P := fun c => countLetters [c] = .zero) silent blank

theorem countLetters_not_isForeign (ofExpression : isForeign c = false) :
    countLetters [c] = .zero := by
  have silent : ∀ code < 0x41, countLetters [Char.ofNat code] = .zero := by decide +kernel
  have here := silent _ (toNat_lt_of_not_isForeign ofExpression)
  rwa [Char.ofNat_toNat] at here

theorem countLetters_ink (text : Text) : countLetters (ink text) = countLetters text :=
  countLetters_filter (fun _ blank => countLetters_blank (by simpa using blank)) text

theorem countLetters_congr (same : ink left = ink right) :
    countLetters left = countLetters right := by
  rw [← countLetters_ink left, same, countLetters_ink]

theorem countLetters_foreign (text : Text) : countLetters (foreign text) = countLetters text :=
  countLetters_filter (fun _ => countLetters_not_isForeign) text

theorem countLetters_calculated (evaluates : Bool) (text : Text) :
    countLetters (calculated evaluates text) = countLetters text := by
  cases evaluates with
  | false => rfl
  | true =>
      have kept := foreign_reduce text
      rw [← countLetters_foreign text, ← kept]
      exact (countLetters_foreign _).symm

theorem countLetters_sentence (text : Text) :
    countLetters (Chain.parse [.sentence, .lexeme] text).reconstruct = countLetters text := by
  apply countLetters_congr
  rw [Node.ink_reconstruct]
  exact Chain.ink_leafTexts_parse [.sentence, .lexeme] text (by decide) (by decide)

theorem countLetters_paragraph (evaluates : Bool) (text : Text) :
    countLetters (((trimmedPieces (splitSentences (calculated evaluates text))).map
      fun piece => (Chain.parse [.sentence, .lexeme] piece).reconstruct).flatten) =
      countLetters text := by
  rw [countLetters_flatten_map countLetters_sentence, ← countLetters_calculated evaluates text]
  apply countLetters_congr
  rw [ink_trimmedPieces, ink_splitSentences]

theorem countAllLetters_sentences (evaluates : Bool) (text : Text) :
    countAllLetters (((Chain.full evaluates).parse text).sentences.map Node.reconstruct) =
      countLetters text := by
  have paragraphs : (((Chain.full evaluates).parse text).sentences.map Node.reconstruct).flatten =
      ((paragraphSeparator.pieces text).map fun piece =>
        ((trimmedPieces (splitSentences (calculated evaluates piece))).map
          fun piece => (Chain.parse [.sentence, .lexeme] piece).reconstruct).flatten).flatten := by
    rw [sentences_parse_full, List.map_flatMap]
    simp only [List.map_map, List.flatMap_def, List.flatten_flatten]
    rfl
  rw [countAllLetters_eq, paragraphs, countLetters_flatten_map (countLetters_paragraph evaluates)]
  apply countLetters_congr
  rw [Rule.pieces, ink_trimmedPieces]
  exact ink_splitParagraphs text

/-- The body of a report: what is said of each sentence, and the totals. -/
def letterBody (entries : String) (count : Nat) (total : LetterCount) : String :=
  entries ++ "Sentences: " ++ toString count ++
    "\nVowels: " ++ toString total.vowels ++
    "\nConsonants: " ++ toString total.consonants ++
    "\nAverage vowels per sentence: " ++ average total.vowels count ++
    "\nAverage consonants per sentence: " ++ average total.consonants count ++
    "\n"

theorem run_vowelsConsonants {node : Node} (some : node.sentences ≠ []) :
    vowelsConsonants.run node = .ok {
      title := "Vowels and consonants per sentence"
      body := letterBody
        (String.join (((node.sentences.map Node.reconstruct).zipIdx 1).map letterEntry))
        node.sentences.length (countAllLetters (node.sentences.map Node.reconstruct)) } := by
  have isEmpty : (node.sentences.map Node.reconstruct).isEmpty = false := by simpa using some
  have length : (node.sentences.map Node.reconstruct).length = node.sentences.length :=
    List.length_map _
  rw [vowelsConsonants, letterBody]
  dsimp only
  rw [isEmpty, if_neg Bool.false_ne_true, length]

/-- The sentences of a text have its vowels and its consonants, no more and no fewer, whether
expressions are evaluated or not; a text without a sentence has neither.  The totals of the
report are those of the text. -/
theorem letters_conserved (evaluates : Bool) (text : Text) :
    countAllLetters (((Chain.full evaluates).parse text).sentences.map Node.reconstruct) =
      countLetters text ∧
    (((Chain.full evaluates).parse text).sentences = [] → countLetters text = .zero) ∧
    (((Chain.full evaluates).parse text).sentences ≠ [] →
      vowelsConsonants.run ((Chain.full evaluates).parse text) = .ok {
        title := "Vowels and consonants per sentence"
        body := letterBody
          (String.join (((((Chain.full evaluates).parse text).sentences.map
            Node.reconstruct).zipIdx 1).map letterEntry))
          ((Chain.full evaluates).parse text).sentences.length (countLetters text) }) := by
  have conserved := countAllLetters_sentences evaluates text
  refine ⟨conserved, ?_, ?_⟩
  · intro none
    rw [← conserved, none]
    rfl
  · intro some
    rw [run_vowelsConsonants some, conserved]

end ProseTree.Analysis
