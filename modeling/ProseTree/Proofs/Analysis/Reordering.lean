import Mathlib.Data.List.Perm.Basic
import ProseTree.Proofs.Analysis.Letters
import ProseTree.Proofs.Analysis.ParagraphOrder
import ProseTree.Proofs.Analysis.Regrouping
import ProseTree.Proofs.Analysis.RepeatedWords

namespace ProseTree

/-! Documents of the same paragraphs in another order.

Below a document stands what its children hold, so with its children it is only reordered.  What
the analyses make of it are tables, sums and greatest lengths, and these do not depend on an
order. -/

namespace Node

variable {node other : Node}

theorem descendants_perm (same : other.children.Perm node.children) :
    other.descendants.Perm node.descendants := by
  rw [descendants_eq, descendants_eq, preorderAll_eq, preorderAll_eq]
  exact same.flatMap_right _

theorem descendantsOfKind_perm (same : other.children.Perm node.children) (kind : Kind) :
    (other.descendantsOfKind kind).Perm (node.descendantsOfKind kind) :=
  (descendants_perm same).filter _

/-- A document is no sentence itself. -/
theorem sentences_of_isDocument (isDocument : node.kind = .document) :
    node.sentences = node.descendantsOfKind .sentence :=
  if_neg (isDocument ▸ Kind.noConfusion)

end Node

namespace Analysis

variable {node other : Node} {texts others : List Text} {left right : Text}

theorem countLetters_perm (same : left.Perm right) : countLetters left = countLetters right := by
  have lowered := same.flatMap_right Text.lowerChar
  rw [countLetters, countLetters, lowered.countP_eq, lowered.countP_eq]

theorem countAllLetters_perm (same : texts.Perm others) :
    countAllLetters texts = countAllLetters others := by
  rw [countAllLetters_eq, countAllLetters_eq]
  exact countLetters_perm same.flatten

theorem longestWords_perm (same : other.sentences.Perm node.sentences) :
    (longestWords other).Perm (longestWords node) := by
  have candidates := same.filterMap longestWordOf?
  have greatest : ((other.sentences.filterMap longestWordOf?).map (·.length)).foldl max 0 =
      ((node.sentences.filterMap longestWordOf?).map (·.length)).foldl max 0 :=
    (candidates.map _).foldl_op_eq
  rw [longestWords, longestWords, greatest]
  exact candidates.filter _

/-- A report on the letters of a tree that ends with a number of sentences and their totals. -/
def letterReport (node : Node) (count : Nat) (total : LetterCount) : Report where
  title := "Vowels and consonants per sentence"
  body := letterBody
    (String.join (((node.sentences.map Node.reconstruct).zipIdx 1).map letterEntry)) count total

/-- What is found in two trees is the same; sentences may be reported in another order. -/
structure Agree (node other : Node) : Prop where
  repeated : repeatedWords other = repeatedWords node
  words : other.wordCount = node.wordCount
  sentences : other.sentences.length = node.sentences.length
  letters : countAllLetters (other.sentences.map Node.reconstruct) =
    countAllLetters (node.sentences.map Node.reconstruct)
  /-- Both reports on letters end with the same numbers. -/
  totals : node.sentences ≠ [] → ∀ tree ∈ [node, other],
    vowelsConsonants.run tree = .ok (letterReport tree node.sentences.length
      (countAllLetters (node.sentences.map Node.reconstruct)))
  /-- Without a sentence there is one report. -/
  silent : node.sentences = [] → vowelsConsonants.run other = vowelsConsonants.run node
  longest : (longestWords other).Perm (longestWords node)

theorem agree_of_perm (isDocument : node.kind = .document) (isDocumentToo : other.kind = .document)
    (same : other.children.Perm node.children) : Agree node other := by
  have sentences : other.sentences.Perm node.sentences := by
    rw [Node.sentences_of_isDocument isDocument, Node.sentences_of_isDocument isDocumentToo]
    exact Node.descendantsOfKind_perm same .sentence
  have words : (wordTexts other).Perm (wordTexts node) := by
    have ownKind : ∀ tree : Node, tree.kind = .document →
        wordTexts tree = (tree.descendantsOfKind .word).filterMap Node.text? := by
      intro tree isDocument
      rw [wordTexts, List.filter_cons_of_neg (by simp [isDocument]), Node.descendantsOfKind]
    rw [ownKind node isDocument, ownKind other isDocumentToo]
    exact (Node.descendantsOfKind_perm same .word).filterMap _
  have letters := countAllLetters_perm (sentences.map Node.reconstruct)
  refine ⟨?_, (Node.descendantsOfKind_perm same .word).length_eq, sentences.length_eq, letters,
    fun some tree among => ?_, fun none => ?_, longestWords_perm sentences⟩
  · exact (repeated_repeatedWords other).unique (repeated_repeatedWords node)
      (words.map Text.lower)
  · rcases List.mem_cons.mp among with rfl | among
    · exact run_vowelsConsonants some
    · obtain rfl := List.mem_singleton.mp among
      have someToo : tree.sentences ≠ [] := fun none =>
        some (List.nil_perm.mp (none ▸ sentences))
      rw [run_vowelsConsonants someToo, letters, sentences.length_eq, letterReport]
  · have noneToo : other.sentences = [] := List.perm_nil.mp (none ▸ sentences)
    simp only [vowelsConsonants, none, noneToo]

/-- Sorting the paragraphs of a document leaves what is found in it: the repeated words, the number
of words, the number of sentences, the totals of their vowels and consonants, and the sentences
with the longest words, up to their order. -/
theorem agree_sortParagraphs (isDocument : node.kind = .document) :
    ∃ sorted, sortParagraphs.tree? node = some sorted ∧ Agree node sorted := by
  have children : ((orderParagraphs node).map Prod.fst).Perm node.children := by
    have whole := (ascending_orderParagraphs node).whole.map Prod.fst
    rwa [List.zipIdx_map_fst] at whole
  refine ⟨.composite none .document ((orderParagraphs node).map Prod.fst), ?_,
    agree_of_perm isDocument rfl children⟩
  rw [Operation.tree?, run_sortParagraphs isDocument]
  rfl

/-- A sentence that stands in another, in two paragraphs and between paragraphs, and words that
only differ in case and in length. -/
theorem agree_sortParagraphs_shared :
    let word := Node.leaf (some 0) .word ['a']
    let capital := Node.leaf (some 1) .word ['A']
    let longer := Node.leaf (some 2) .word ['a', 'b']
    let sentence := Node.composite (some 3) .sentence [word, longer]
    let outer := Node.composite (some 4) .sentence [sentence, capital]
    let node := Node.composite (some 5) .document
      [.composite (some 6) .paragraph [outer, sentence, word], sentence,
        .composite (some 7) .paragraph [sentence]]
    node.kind = .document ∧ ∃ sorted, sortParagraphs.tree? node = some sorted ∧
      (['a'], 6) ∈ repeatedWords sorted ∧ sorted.wordCount = 10 ∧ sorted.sentences.length = 5 ∧
      countAllLetters (sorted.sentences.map Node.reconstruct) = ⟨11, 5⟩ ∧
      (longestWords sorted).Perm (⟨"a ab A".toList, ['a', 'b'], 2⟩ ::
        List.replicate 4 ⟨"a ab".toList, ['a', 'b'], 2⟩) := by
  intro word capital longer sentence outer node
  have isDocument : node.kind = .document := rfl
  obtain ⟨sorted, ran, agree⟩ := agree_sortParagraphs isDocument
  refine ⟨isDocument, sorted, ran, ?_, agree.words, agree.sentences, agree.letters, ?_⟩
  · rw [agree.repeated]
    exact ((repeated_repeatedWords node).exact _ _).mpr (by decide)
  · exact agree.longest.trans (by decide)

end Analysis

end ProseTree
