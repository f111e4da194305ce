import Mathlib.Data.List.Forall2
import Mathlib.Order.Bounds.Basic
import ProseTree.Analysis.Words
import ProseTree.Proofs.Node.Walk

namespace ProseTree

/-! The longest words of a text, and the sentences that they are in.

Each sentence is reported with the first of its longest words, so the greatest of these lengths is
the greatest of all, and the sentences that are left are those with a word of that length. -/

namespace Node

variable {node word : Node} {kind : Kind}

/-- The text of a leaf; a composite has none of its own. -/
def ownText (node : Node) : Text := node.text?.getD []

theorem WellFormed.of_mem_sentences (wellFormed : node.WellFormed) :
    ∀ sentence ∈ node.sentences, sentence.WellFormed := by
  unfold sentences
  split
  · exact List.forall_mem_singleton.mpr wellFormed
  · exact fun sentence member =>
      wellFormed_of_mem_descendants node wellFormed sentence (List.mem_filter.mp member).1

/-- A word has text. -/
theorem WellFormed.text?_word (wellFormed : node.WellFormed) :
    ∀ word ∈ node.descendantsOfKind .word, word.text? = some word.ownText := by
  intro word member
  obtain ⟨below, isWord⟩ := List.mem_filter.mp member
  have fits := wellFormed_of_mem_descendants node wellFormed word below
  cases word with
  | leaf id kind text => rfl
  | composite id kind children =>
      obtain rfl : kind = .word := eq_of_beq isWord
      exact absurd fits.1 Bool.noConfusion

end Node

namespace Analysis

variable {words : List Text} {word : Text} {sentence node : Node} {length greatest : Nat}
  {entry : LongestWordMatch}

theorem firstLongest?_eq_none_iff : firstLongest? words = none ↔ words = [] := by
  cases words with
  | nil => exact iff_of_true rfl rfl
  | cons word rest =>
      refine iff_of_false ?_ (List.cons_ne_nil word rest)
      simp only [firstLongest?]
      split
      · exact Option.some_ne_none word
      · split <;> exact Option.some_ne_none _

theorem exists_of_firstLongest? (first : firstLongest? words = some word) :
    ∃ front behind, words = front ++ word :: behind ∧
      (∀ other ∈ front, other.length < word.length) ∧
      ∀ other ∈ behind, other.length ≤ word.length := by
  induction words generalizing word with
  | nil => contradiction
  | cons own rest ih =>
      simp only [firstLongest?] at first
      split at first
      · rename_i nothing
        obtain rfl := Option.some.inj first
        obtain rfl := firstLongest?_eq_none_iff.mp nothing
        exact ⟨[], [], rfl, List.forall_mem_nil _, List.forall_mem_nil _⟩
      · rename_i later found
        obtain ⟨front, behind, rfl, shorter, noLonger⟩ := ih found
        split at first
        · rename_i longer
          obtain rfl := Option.some.inj first
          exact ⟨own :: front, behind, rfl, List.forall_mem_cons.mpr ⟨longer, shorter⟩, noLonger⟩
        · rename_i notLonger
          obtain rfl := Option.some.inj first
          have atMost := Nat.le_of_not_lt notLonger
          refine ⟨[], _, rfl, List.forall_mem_nil _, List.forall_mem_append.mpr ⟨?_, ?_⟩⟩
          · exact fun other member => Nat.le_trans (Nat.le_of_lt (shorter other member)) atMost
          · exact List.forall_mem_cons.mpr
              ⟨atMost, fun other member => Nat.le_trans (noLonger other member) atMost⟩

/-- The entry of a sentence: its text, and the first of its words that have a length. -/
structure Reports (greatest : Nat) (sentence : Node) (entry : LongestWordMatch) : Prop where
  text : entry.sentence = sentence.reconstruct
  length : entry.length = greatest
  word : ∃ front word behind, sentence.descendantsOfKind .word = front ++ word :: behind ∧
    word.text? = some entry.word ∧ entry.word.length = greatest ∧
    ∀ other ∈ front, other.ownText.length ≠ greatest

theorem Reports.length_mem (reports : Reports greatest sentence entry) :
    ∃ word ∈ sentence.descendantsOfKind .word, word.ownText.length = greatest := by
  obtain ⟨front, word, behind, whole, own, length, -⟩ := reports.word
  refine ⟨word, whole ▸ List.mem_append_right front List.mem_cons_self, ?_⟩
  rw [Node.ownText, own, Option.getD_some, length]

theorem filterMap_text?_word (wellFormed : sentence.WellFormed) :
    (sentence.descendantsOfKind .word).filterMap Node.text? =
      (sentence.descendantsOfKind .word).map Node.ownText :=
  List.filterMap_eq_map_iff_forall_eq_some.mpr wellFormed.text?_word

theorem longestWordOf?_eq_none_iff (wellFormed : sentence.WellFormed) :
    longestWordOf? sentence = none ↔ sentence.descendantsOfKind .word = [] := by
  rw [longestWordOf?, Option.map_eq_none_iff, firstLongest?_eq_none_iff,
    filterMap_text?_word wellFormed, List.map_eq_nil_iff]

theorem exists_longestWordOf? (wellFormed : sentence.WellFormed) {word : Node}
    (isWord : word ∈ sentence.descendantsOfKind .word) :
    ∃ entry, longestWordOf? sentence = some entry :=
  Option.ne_none_iff_exists'.mp
    (mt (longestWordOf?_eq_none_iff wellFormed).mp (List.ne_nil_of_mem isWord))

/-- A sentence is reported with a word that no other of its words is longer than. -/
theorem reports_of_longestWordOf? (wellFormed : sentence.WellFormed)
    (found : longestWordOf? sentence = some entry) :
    Reports entry.length sentence entry ∧
      ∀ word ∈ sentence.descendantsOfKind .word, word.ownText.length ≤ entry.length := by
  obtain ⟨text, first, rfl⟩ := Option.map_eq_some_iff.mp found
  obtain ⟨earlier, later, whole, shorter, noLonger⟩ := exists_of_firstLongest? first
  rw [filterMap_text?_word wellFormed, List.map_eq_append_iff] at whole
  obtain ⟨front, others, words, rfl, fromWord⟩ := whole
  obtain ⟨word, behind, rfl, rfl, rfl⟩ := List.map_eq_cons_iff.mp fromWord
  rw [List.forall_mem_map] at shorter noLonger
  have isWord : word ∈ sentence.descendantsOfKind .word :=
    words ▸ List.mem_append_right front List.mem_cons_self
  refine ⟨⟨rfl, rfl, front, word, behind, words, wellFormed.text?_word word isWord, rfl,
    fun other member => Nat.ne_of_lt (shorter other member)⟩, ?_⟩
  rw [words]
  exact List.forall_mem_append.mpr
    ⟨fun other member => Nat.le_of_lt (shorter other member),
      List.forall_mem_cons.mpr ⟨Nat.le_refl _, noLonger⟩⟩

theorem isGreatest_foldl_max {lengths : List Nat} (nonempty : lengths ≠ []) :
    IsGreatest {length | length ∈ lengths} (lengths.foldl max 0) := by
  obtain ⟨member, bounds⟩ := List.max?_eq_some_iff.mp (@List.max?_cons' Nat 0 _ lengths)
  have bound : ∀ length ∈ lengths, length ≤ lengths.foldl max 0 :=
    fun length isLength => bounds length (List.mem_cons_of_mem 0 isLength)
  refine ⟨?_, bound⟩
  change lengths.foldl max 0 ∈ lengths
  rcases List.mem_cons.mp member with zero | isLength
  · -- No length is greater than zero, so the first one is zero as well.
    obtain ⟨first, rest, rfl⟩ := List.exists_cons_of_ne_nil nonempty
    have atMost := bound first List.mem_cons_self
    rw [zero] at atMost ⊢
    rw [← Nat.le_zero.mp atMost]
    exact List.mem_cons_self
  · exact isLength

theorem forall₂_filter_filterMap {α β : Type} {R : α → β → Prop} {keeps : α → Bool}
    {f : α → Option β} {list : List α}
    (kept : ∀ a ∈ list, keeps a = true → ∃ b, f a = some b ∧ R a b)
    (dropped : ∀ a ∈ list, keeps a = false → f a = none) :
    List.Forall₂ R (list.filter keeps) (list.filterMap f) := by
  induction list with
  | nil => exact .nil
  | cons a rest ih =>
      obtain ⟨keptHere, keptLater⟩ := List.forall_mem_cons.mp kept
      obtain ⟨droppedHere, droppedLater⟩ := List.forall_mem_cons.mp dropped
      have later := ih keptLater droppedLater
      cases decision : keeps a with
      | true =>
          obtain ⟨b, found, related⟩ := keptHere decision
          rw [List.filter_cons_of_pos decision, List.filterMap_cons_some found]
          exact .cons related later
      | false =>
          rw [List.filter_cons_of_neg (by simp [decision]),
            List.filterMap_cons_none (droppedHere decision)]
          exact later

/-- The lengths of the words in the sentences of a text. -/
def wordLengths (node : Node) : Set Nat :=
  {length | ∃ sentence ∈ node.sentences, ∃ word ∈ sentence.descendantsOfKind .word,
    word.ownText.length = length}

theorem filterMap_longestWordOf?_eq_nil_iff (wellFormed : node.WellFormed) :
    node.sentences.filterMap longestWordOf? = [] ↔
      ∀ sentence ∈ node.sentences, sentence.descendantsOfKind .word = [] := by
  rw [List.filterMap_eq_nil_iff]
  exact forall₂_congr fun sentence member =>
    longestWordOf?_eq_none_iff (wellFormed.of_mem_sentences sentence member)

/-- The greatest of the lengths that are found is the greatest of all. -/
theorem isGreatest_wordLengths (wellFormed : node.WellFormed)
    (greatestFound : IsGreatest
      {length | length ∈ (node.sentences.filterMap longestWordOf?).map (·.length)} greatest) :
    IsGreatest (wordLengths node) greatest := by
  obtain ⟨attained, bound⟩ := greatestFound
  constructor
  · obtain ⟨entry, isEntry, rfl⟩ := List.mem_map.mp attained
    obtain ⟨sentence, member, found⟩ := List.mem_filterMap.mp isEntry
    have ofSentence := wellFormed.of_mem_sentences sentence member
    exact ⟨sentence, member, (reports_of_longestWordOf? ofSentence found).1.length_mem⟩
  · rintro length ⟨sentence, member, word, isWord, rfl⟩
    have ofSentence := wellFormed.of_mem_sentences sentence member
    obtain ⟨entry, found⟩ := exists_longestWordOf? ofSentence isWord
    have isFound := List.mem_map_of_mem (f := LongestWordMatch.length)
      (List.mem_filterMap.mpr ⟨sentence, member, found⟩)
    exact Nat.le_trans ((reports_of_longestWordOf? ofSentence found).2 word isWord) (bound isFound)

/-- The sentences with a word of the greatest length, each with its entry. -/
theorem forall₂_reports (wellFormed : node.WellFormed)
    (isGreatest : IsGreatest (wordLengths node) greatest) :
    List.Forall₂ (Reports greatest)
      (node.sentences.filter fun sentence =>
        (sentence.descendantsOfKind .word).any (·.ownText.length == greatest))
      ((node.sentences.filterMap longestWordOf?).filter (·.length == greatest)) := by
  rw [List.filter_filterMap]
  refine forall₂_filter_filterMap ?_ ?_
  · intro sentence member hasGreatest
    have ofSentence := wellFormed.of_mem_sentences sentence member
    obtain ⟨word, isWord, length⟩ := List.any_eq_true.mp hasGreatest
    obtain ⟨entry, found⟩ := exists_longestWordOf? ofSentence isWord
    obtain ⟨reports, noLonger⟩ := reports_of_longestWordOf? ofSentence found
    have atMost : entry.length ≤ greatest := isGreatest.2 ⟨sentence, member, reports.length_mem⟩
    obtain rfl : entry.length = greatest :=
      Nat.le_antisymm atMost (eq_of_beq length ▸ noLonger word isWord)
    refine ⟨entry, ?_, reports⟩
    rw [found]
    exact Option.filter_some_pos (beq_self_eq_true entry.length)
  · intro sentence member noGreatest
    have ofSentence := wellFormed.of_mem_sentences sentence member
    cases found : longestWordOf? sentence with
    | none => rfl
    | some entry =>
        obtain ⟨word, isWord, length⟩ := (reports_of_longestWordOf? ofSentence found).1.length_mem
        have notHere := List.any_eq_false.mp noGreatest word isWord
        rw [length] at notHere
        exact Option.filter_some_neg (Bool.eq_false_of_not_eq_true notHere)

/-- Nothing is reported if no sentence has a word.  Otherwise there is a greatest length of the
words in the sentences, and what is reported is, in order, one entry for each sentence with a word
of that length: its text, and the first such word. -/
theorem longestWords_exact (wellFormed : node.WellFormed) :
    (longestWords node = [] ↔
      ∀ sentence ∈ node.sentences, sentence.descendantsOfKind .word = []) ∧
    (longestWords node ≠ [] → ∃ greatest, IsGreatest (wordLengths node) greatest ∧
      List.Forall₂ (Reports greatest)
        (node.sentences.filter fun sentence =>
          (sentence.descendantsOfKind .word).any (·.ownText.length == greatest))
        (longestWords node)) := by
  have found (nonempty : node.sentences.filterMap longestWordOf? ≠ []) :=
    isGreatest_foldl_max (mt (List.map_eq_nil_iff (f := LongestWordMatch.length)).mp nonempty)
  have empty : longestWords node = [] ↔ node.sentences.filterMap longestWordOf? = [] := by
    refine ⟨fun nothing => ?_, fun nothing => by rw [longestWords, nothing]; rfl⟩
    by_contra nonempty
    obtain ⟨entry, isEntry, length⟩ := List.mem_map.mp (found nonempty).1
    exact List.filter_eq_nil_iff.mp nothing entry isEntry (beq_iff_eq.mpr length)
  refine ⟨empty.trans (filterMap_longestWordOf?_eq_nil_iff wellFormed), fun nonempty => ?_⟩
  have greatest := isGreatest_wordLengths wellFormed (found (mt empty.mpr nonempty))
  exact ⟨_, greatest, forall₂_reports wellFormed greatest⟩

/-- A sentence inside another, one without words, and one in which the longest words stand twice;
the length of a word is not that of its encoding. -/
theorem longestWords_exact_nested :
    let word (letters : List Char) := Node.leaf none .word letters
    let inner := Node.composite (some 1) .sentence [word ['ж', 'у', 'к'], word ['e', 'n', 'd']]
    let outer := Node.composite (some 2) .sentence
      [.composite (some 3) .lexeme [word ['o', 'n']], inner, .leaf none .punctuation ['.']]
    let short := Node.composite (some 4) .sentence [word ['д', 'а']]
    let wordless := Node.composite (some 5) .sentence [.leaf none .symbol ['+', '+', '+', '+']]
    let document := Node.composite none .document [.composite (some 6) .paragraph [outer, short],
      wordless, inner]
    document.WellFormed ∧ longestWords document ≠ [] ∧
    (longestWords document).map (·.word) = [['ж', 'у', 'к'], ['ж', 'у', 'к'], ['ж', 'у', 'к']] ∧
    IsGreatest (wordLengths document) 3 ∧
    List.Forall₂ (Reports 3) [outer, inner, inner] (longestWords document) := by
  intro word inner outer short wordless document
  have wellFormed : document.WellFormed := by
    simp [document, outer, inner, short, wordless, word, Node.WellFormed, Node.AllWellFormed,
      Kind.isLeaf]
  have words : (longestWords document).map (·.word) =
      [['ж', 'у', 'к'], ['ж', 'у', 'к'], ['ж', 'у', 'к']] := by decide
  have nonempty : longestWords document ≠ [] := by decide
  obtain ⟨greatest, isGreatest, reports⟩ := (longestWords_exact wellFormed).2 nonempty
  have lengths : ∀ entry ∈ longestWords document, entry.length = 3 := by decide
  obtain rfl : greatest = 3 := by
    obtain ⟨first, rest, entries⟩ := List.exists_cons_of_ne_nil nonempty
    rw [entries] at reports lengths
    obtain ⟨sentence, sentences, report, -⟩ := List.forall₂_cons_right_iff.mp reports
    rw [← report.length, lengths first List.mem_cons_self]
  exact ⟨wellFormed, nonempty, words, isGreatest, reports⟩

end Analysis

end ProseTree
