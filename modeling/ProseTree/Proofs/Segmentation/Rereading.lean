import ProseTree.Proofs.Segmentation.Shape
import ProseTree.Proofs.Segmentation.Tokens

namespace ProseTree

/-! Sentences and lexemes read again from their own texts.

The text of a sentence has one space between lexemes, which have none inside, so the same
lexemes are found in it, and each is cut into the same leaves.  Which piece of the text a node
came from does not matter. -/

namespace Node

variable {node : Node} {own kind : Kind} {behind : List Kind}

/-- The descendants of a kind that no other level has are the nodes at the depth of its level. -/
theorem Layered.descendantsOfKind_eq_atDepth (front : List Kind)
    (layered : node.Layered (own :: (front ++ kind :: behind)))
    (absent : kind ∉ front ++ behind) (composite : kind.isLeaf = false) :
    node.descendantsOfKind kind = node.atDepth (front.length + 1) := by
  have below := layered.of_mem_children
  induction front generalizing node own with
  | nil =>
      have alone : node.atDepth 1 = node.children := List.flatMap_singleton' node.children
      rw [List.length_nil, Nat.zero_add, alone]
      apply descendantsOfKind_eq_children
      intro child member
      have layeredChild := below child member
      exact ⟨layeredChild.kind_eq, layeredChild.descendantsOfKind_eq_nil absent composite⟩
  | cons next front ih =>
      rw [List.cons_append, List.mem_cons, not_or] at absent
      rw [descendantsOfKind_eq_flatMap fun child member =>
        (below child member).kind_eq ▸ Ne.symm absent.1]
      apply List.flatMap_congr
      intro child member
      have layeredChild := below child member
      exact ih layeredChild absent.2 layeredChild.of_mem_children

end Node

namespace Segmentation

open Text

variable {text word : Text} {words : List Text} {node : Node} {evaluates : Bool}

/-- Words with one space between them are the lexemes of their text. -/
theorem lexemes_intercalate (areWords : ∀ word ∈ words, IsWord word) :
    lexemes ([' '].intercalate words) = words := by
  induction words with
  | nil => exact lexemes_blank blank_nil
  | cons word rest ih =>
      obtain ⟨isWord, others⟩ := List.forall_mem_cons.mp areWords
      cases rest with
      | nil =>
          rw [List.intercalate_singleton]
          exact lexemes_word isWord
      | cons next rest =>
          have space : Blank [' '] := by decide
          rw [List.intercalate_cons_cons,
            lexemes_word_blank_append isWord space (List.cons_ne_nil _ _), ih others]

/-- The lexemes of a sentence are those of its text. -/
theorem parse_reconstruct_sentence (text : Text) :
    Chain.parse [.sentence, .lexeme] (Chain.parse [.sentence, .lexeme] text).reconstruct =
      Chain.parse [.sentence, .lexeme] text := by
  have areWords : ∀ word ∈ lexemes text, IsWord word := fun word => isWord_of_mem_lexemes
  rw [parse_sentence text, reconstruct_sentence areWords, parse_sentence,
    lexemes_intercalate areWords]

/-- Nothing is written between the leaves of a lexeme. -/
theorem parse_reconstruct_lexeme (isWord : IsWord word) :
    Chain.parse [.lexeme] (lexemeNode word).reconstruct = lexemeNode word := by
  rw [reconstruct_lexemeNode isWord.2]
  rfl

theorem exists_sentence_of_mem_atDepth
    (member : node ∈ ((Chain.full evaluates).parse text).atDepth 2) :
    ∃ piece, node = Chain.parse [.sentence, .lexeme] piece := by
  have nonempty : Chain.full evaluates ≠ [] := List.cons_ne_nil _ _
  have within : 2 ≤ (Chain.full evaluates).beforeLexeme.length := by cases evaluates <;> decide
  obtain ⟨level, rest, piece, here, rfl, -⟩ :=
    Chain.exists_piece_of_mem_atDepth nonempty within member
  obtain ⟨rfl, rfl⟩ := List.cons.inj here
  exact ⟨piece, rfl⟩

/-- A lexeme of the tree is a lexeme of a sentence, so a word. -/
theorem exists_word_of_mem_atDepth
    (member : node ∈ ((Chain.full evaluates).parse text).atDepth 3) :
    ∃ word, IsWord word ∧ node = lexemeNode word := by
  rw [Node.atDepth_add 2 1] at member
  obtain ⟨sentence, isSentence, below⟩ := List.mem_flatMap.mp member
  obtain ⟨piece, rfl⟩ := exists_sentence_of_mem_atDepth isSentence
  obtain ⟨child, isChild, isNode⟩ := List.mem_flatMap.mp below
  obtain rfl := List.mem_singleton.mp isNode
  rw [parse_sentence] at isChild
  obtain ⟨word, isLexeme, rfl⟩ := List.mem_map.mp isChild
  exact ⟨word, isWord_of_mem_lexemes isLexeme, rfl⟩

/-- Every sentence of a tree, and every lexeme, is the node that is made from its own text. -/
theorem nodes_reread (evaluates : Bool) (text : Text) :
    let tree := (Chain.full evaluates).parse text
    (∀ sentence ∈ tree.descendantsOfKind .sentence,
      Chain.parse [.sentence, .lexeme] sentence.reconstruct = sentence) ∧
    (∀ lexeme ∈ tree.descendantsOfKind .lexeme,
      Chain.parse [.lexeme] lexeme.reconstruct = lexeme) := by
  intro tree
  have layered := (isDocument_parse_full evaluates text).layered
  constructor
  · intro sentence member
    rw [layered.descendantsOfKind_eq_atDepth [.paragraph] (by decide) rfl] at member
    obtain ⟨piece, rfl⟩ := exists_sentence_of_mem_atDepth member
    exact parse_reconstruct_sentence piece
  · intro lexeme member
    rw [layered.descendantsOfKind_eq_atDepth [.paragraph, .sentence] (by decide) rfl] at member
    obtain ⟨word, isWord, rfl⟩ := exists_word_of_mem_atDepth member
    exact parse_reconstruct_lexeme isWord

/-- The white space of the text is not that of the sentence, and the decimal was not in the text;
the point behind it stays punctuation. -/
theorem nodes_reread_decimal :
    let text : Text := ['A', '\t', ' ', '(', '1', '+', '1', ')', '.', '5', 'x', '!', ' ', 'B']
    let tree := (Chain.full true).parse text
    let lexeme := Node.composite none .lexeme [wordLeaf ['2', '.', '0'], punctuationLeaf ['.'],
      wordLeaf ['5', 'x'], punctuationLeaf ['!']]
    let sentence := Node.composite none .sentence [lexemeNode ['A'], lexeme]
    sentence ∈ tree.descendantsOfKind .sentence ∧ lexeme ∈ tree.descendantsOfKind .lexeme ∧
    sentence.reconstruct = ['A', ' ', '2', '.', '0', '.', '5', 'x', '!'] ∧
    Chain.parse [.sentence, .lexeme] sentence.reconstruct = sentence ∧
    Chain.parse [.lexeme] lexeme.reconstruct = lexeme := by
  intro text tree lexeme sentence
  have isSentence : sentence ∈ tree.descendantsOfKind .sentence := by decide +kernel
  have isLexeme : lexeme ∈ tree.descendantsOfKind .lexeme := by decide +kernel
  obtain ⟨sentences, lexemes⟩ := nodes_reread true text
  exact ⟨isSentence, isLexeme, by decide +kernel, sentences sentence isSentence,
    lexemes lexeme isLexeme⟩

end Segmentation

end ProseTree
