import ProseTree.Proofs.Node.Reconstruction
import ProseTree.Proofs.Text.Segments
import ProseTree.Segmentation.Chain

namespace ProseTree

open Text

/-! Cutting a text into a tree keeps its ink: every character that is not white space is
in exactly one leaf, and the leaves come in the order of the text. -/

namespace Segments

variable {segments : Segments}

theorem ink_gaps (blank : ∀ occurrence ∈ segments.occurrences, ink occurrence = []) :
    ink segments.gaps.flatten = ink segments.join := by
  induction segments with
  | last gap => simp [gaps, join]
  | found gap occurrence rest ih =>
      have here : ink occurrence = [] := blank occurrence (by simp [occurrences])
      have later := ih fun other member => blank other (by simp [occurrences, member])
      simp only [gaps, join, List.flatten_cons, ink_append, here, List.append_nil, later]

theorem ink_occurrences (blank : ∀ gap ∈ segments.gaps, ink gap = []) :
    ink segments.occurrences.flatten = ink segments.join := by
  induction segments with
  | last gap =>
      have here : ink gap = [] := blank gap (by simp [gaps])
      simp [occurrences, join, here]
  | found gap occurrence rest ih =>
      have here : ink gap = [] := blank gap (by simp [gaps])
      have later := ih fun other member => blank other (by simp [gaps, member])
      simp only [occurrences, join, List.flatten_cons, ink_append, here, List.nil_append, later]

end Segments

namespace Segmentation

variable {text : Text} {c : Char}

theorem pastLastLineFeed_le (text : Text) : pastLastLineFeed text ≤ text.length :=
  Nat.sub_le _ _

/-- A separator is a line feed and some of the white space behind it. -/
theorem paragraphSeparator_le (before : Option Char) (rest : Text) :
    paragraphSeparator before ('\n' :: rest) ≤ 1 + (rest.takeWhile isBlank).length := by
  simp only [paragraphSeparator]
  split
  · have within := pastLastLineFeed_le (rest.takeWhile isBlank)
    omega
  · split
    · rename_i tab
      have nonempty : rest.takeWhile isBlank ≠ [] := by
        intro empty
        simp [empty] at tab
      have positive := List.length_pos_iff.mpr nonempty
      omega
    · split <;> omega

theorem ink_paragraphSeparator (before : Option Char) (text : Text) :
    ink (text.take (paragraphSeparator before text)) = [] := by
  by_cases lineFeed : text.head? = some '\n'
  · obtain ⟨rest, rfl⟩ := List.head?_eq_some_iff.mp lineFeed
    refine ink_eq_nil fun c member => of_mem_take ?_ member
    have blanks : ('\n' :: rest).takeWhile isBlank = '\n' :: rest.takeWhile isBlank :=
      List.takeWhile_cons_of_pos (by decide)
    have within := paragraphSeparator_le before rest
    rw [blanks, List.length_cons]
    omega
  · have nothing : paragraphSeparator before text = 0 := by
      unfold paragraphSeparator
      split
      · simp at lineFeed
      · rfl
    rw [nothing, List.take_zero, ink_nil]

theorem ink_sentenceGap (before : Option Char) (text : Text) :
    ink (text.take (sentenceGap before text)) = [] := by
  refine ink_eq_nil fun c member => of_mem_take ?_ member
  simp only [sentenceGap]
  split
  · split
    · exact Nat.zero_le _
    · split
      · exact Nat.le_refl _
      · exact Nat.zero_le _
  · exact Nat.zero_le _

theorem isBlank_of_lexeme_eq_zero {before : Option Char} {rest : Text}
    (nothing : lexeme before (c :: rest) = 0) : isBlank c = true := by
  by_contra inked
  simp only [lexeme] at nothing
  rw [List.takeWhile_cons_of_pos (by simpa using inked)] at nothing
  simp at nothing

theorem not_isBlank_of_lexeme (before : Option Char) (text : Text) :
    ∀ c ∈ text.take (lexeme before text), isBlank c = false := by
  intro c member
  have inked : (!isBlank c) = true := of_mem_take (Nat.le_refl _) member
  simpa using inked

theorem ink_splitParagraphs (text : Text) : ink (splitParagraphs text).flatten = ink text := by
  rw [splitParagraphs, Segments.ink_gaps, join_cut]
  exact occurrence_of_cutAfter (fun before text _ => ink_paragraphSeparator before text) none text

theorem ink_splitSentences (text : Text) : ink (splitSentences text).flatten = ink text := by
  rw [splitSentences, Segments.ink_gaps, join_cut]
  exact occurrence_of_cutAfter (fun before text _ => ink_sentenceGap before text) none text

theorem ink_lexemes (text : Text) : ink (lexemes text).flatten = ink text := by
  rw [lexemes, Segments.ink_occurrences, join_cut]
  intro gap isGap
  exact ink_eq_nil (gap_of_cutAfter (fun _ _ _ => isBlank_of_lexeme_eq_zero) none text gap isGap)

theorem ink_pieces {level : Level} (keeps : level ≠ .paragraph true) (text : Text) :
    ink (level.pieces text).flatten = ink text := by
  match level with
  | .document => exact ink_splitParagraphs text
  | .paragraph false => exact ink_splitSentences text
  | .paragraph true => exact absurd rfl keeps
  | .sentence => exact ink_lexemes text
  | .lexeme => simp [Level.pieces]

theorem mem_of_mem_pieces {level : Level} (keeps : level ≠ .paragraph true) {piece : Text}
    (isPiece : piece ∈ level.pieces text) (member : c ∈ piece) : c ∈ text := by
  match level with
  | .document =>
      rw [← join_cut paragraphSeparator text]
      exact Segments.mem_join_of_mem_gaps isPiece member
  | .paragraph false =>
      rw [← join_cut sentenceGap text]
      exact Segments.mem_join_of_mem_gaps isPiece member
  | .paragraph true => exact absurd rfl keeps
  | .sentence =>
      rw [← join_cut lexeme text]
      exact Segments.mem_join_of_mem_occurrences isPiece member
  | .lexeme =>
      obtain rfl : piece = text := by simpa [Level.pieces] using isPiece
      exact member

/-- Trimming drops white space only, and so does leaving out what is then empty. -/
theorem ink_trimmedPieces (pieces : List Text) :
    ink (trimmedPieces pieces).flatten = ink pieces.flatten := by
  induction pieces with
  | nil => rfl
  | cons piece rest ih =>
      rw [trimmedPieces] at ih ⊢
      rw [List.map_cons, List.flatten_cons, ink_append, ← ih, ← ink_trim piece]
      cases empty : (trim piece).isEmpty with
      | false => simp [empty]
      | true => simp [List.isEmpty_iff.mp empty]

theorem mem_trimmedPieces {pieces : List Text} {piece : Text}
    (isPiece : piece ∈ trimmedPieces pieces) : ∃ whole ∈ pieces, piece = trim whole := by
  obtain ⟨inMap, _⟩ := List.mem_filter.mp isPiece
  obtain ⟨whole, member, rfl⟩ := List.mem_map.mp inMap
  exact ⟨whole, member, rfl⟩

theorem leafTextsAll_append (left right : List Node) :
    Node.leafTextsAll (left ++ right) = Node.leafTextsAll left ++ Node.leafTextsAll right := by
  simp [Node.leafTextsAll_eq]

theorem ink_gapLeaf (gap : Text) : ink (Node.leafTextsAll (gapLeaf gap)).flatten = ink gap := by
  cases empty : (trim gap).isEmpty with
  | false => simp [gapLeaf, empty, Node.leafTextsAll, Node.leafTexts]
  | true =>
      rw [← ink_trim gap, List.isEmpty_iff.mp empty]
      simp [gapLeaf, empty, Node.leafTextsAll]

theorem ink_lexemeLeaves (segments : Segments) :
    ink (Node.leafTextsAll (lexemeLeaves segments)).flatten = ink segments.join := by
  induction segments with
  | last gap => exact ink_gapLeaf gap
  | found gap occurrence rest ih =>
      simp only [lexemeLeaves, leafTextsAll_append, Node.leafTextsAll, Node.leafTexts,
        List.flatten_append, List.flatten_cons, List.flatten_nil, ink_append, ink_gapLeaf, ih,
        Segments.join, List.append_nil, List.append_assoc]

theorem mem_of_mem_lexemeLeaves {segments : Segments} {leaf : Text}
    (isLeaf : leaf ∈ Node.leafTextsAll (lexemeLeaves segments)) (member : c ∈ leaf) :
    c ∈ segments.join := by
  have inGap : ∀ gap : Text, leaf ∈ Node.leafTextsAll (gapLeaf gap) → leaf = gap := by
    intro gap isGap
    cases empty : (trim gap).isEmpty <;>
      simp [gapLeaf, empty, Node.leafTextsAll, Node.leafTexts] at isGap
    exact isGap
  induction segments with
  | last gap =>
      rw [inGap gap isLeaf] at member
      exact member
  | found gap occurrence rest ih =>
      simp only [lexemeLeaves, leafTextsAll_append, Node.leafTextsAll, Node.leafTexts,
        List.mem_append, List.mem_singleton] at isLeaf
      simp only [Segments.join, List.mem_append]
      rcases isLeaf with inFront | rfl | later
      · rw [inGap gap inFront] at member
        exact .inl (.inl member)
      · exact .inl (.inr member)
      · exact .inr (ih later)

theorem not_isBlank_of_mem_lexemes {piece : Text} (isPiece : piece ∈ lexemes text)
    (member : c ∈ piece) : isBlank c = false :=
  occurrence_of_cutAfter (P := fun piece => ∀ c ∈ piece, isBlank c = false)
    (fun before text _ => not_isBlank_of_lexeme before text) none text piece isPiece c member

namespace Chain

variable {chain : Chain} {level : Level}

/-- The levels that cut the text before lexemes are made of the pieces.  They settle what the chain
makes of a text. -/
def beforeLexeme (chain : Chain) : List Level := chain.takeWhile (· ≠ .lexeme)

theorem beforeLexeme_cons (cuts : level ≠ .lexeme) :
    beforeLexeme (level :: chain) = level :: chain.beforeLexeme :=
  List.takeWhile_cons_of_pos (by simpa using cuts)

theorem parse_lexeme (rest : Chain) (text : Text) :
    parse (.lexeme :: rest) text = .composite none .lexeme (lexemeLeaves (text.cut word)) := by
  cases rest <;> rfl

theorem parse_cons (cuts : level ≠ .lexeme) (nonempty : chain ≠ []) (text : Text) :
    parse (level :: chain) text =
      .composite none level.kind ((trimmedPieces (level.pieces text)).map chain.parse) := by
  cases chain with
  | nil => exact absurd rfl nonempty
  | cons next rest => cases level <;> first | exact absurd rfl cuts | rfl

theorem ink_leafTextsAll_map {pieces : List Text} {build : Text → Node}
    (keeps : ∀ piece, ink (build piece).leafTexts.flatten = ink piece) :
    ink (Node.leafTextsAll (pieces.map build)).flatten = ink pieces.flatten := by
  induction pieces with
  | nil => rfl
  | cons piece rest ih =>
      simp only [List.map_cons, Node.leafTextsAll, List.flatten_append, List.flatten_cons,
        ink_append, keeps, ih]

theorem ink_leafTexts_parse (chain : Chain) (text : Text) (ends : .lexeme ∈ chain)
    (keeps : .paragraph true ∉ chain.beforeLexeme) :
    ink (chain.parse text).leafTexts.flatten = ink text := by
  induction chain generalizing text with
  | nil => simp at ends
  | cons level rest ih =>
      by_cases isLexeme : level = .lexeme
      · subst isLexeme
        rw [parse_lexeme, Node.leafTexts, ink_lexemeLeaves, join_cut]
      · have endsLater : .lexeme ∈ rest := by simpa [Ne.symm isLexeme] using ends
        rw [beforeLexeme_cons isLexeme, List.mem_cons, not_or] at keeps
        rw [parse_cons isLexeme (List.ne_nil_of_mem endsLater), Node.leafTexts,
          ink_leafTextsAll_map fun piece => ih piece endsLater keeps.2,
          ink_trimmedPieces, ink_pieces (Ne.symm keeps.1)]

/-- The leaves of the children are leaves of what the pieces were built into. -/
theorem exists_piece_of_mem_leafTextsAll {pieces : List Text} {build : Text → Node} {leaf : Text}
    (isLeaf : leaf ∈ Node.leafTextsAll (pieces.map build)) :
    ∃ piece ∈ pieces, leaf ∈ (build piece).leafTexts := by
  rw [Node.leafTextsAll_eq, List.mem_flatMap] at isLeaf
  obtain ⟨node, isNode, isLeaf⟩ := isLeaf
  obtain ⟨piece, isPiece, rfl⟩ := List.mem_map.mp isNode
  exact ⟨piece, isPiece, isLeaf⟩

theorem mem_of_mem_leafTexts_parse (chain : Chain) {leaf : Text}
    (keeps : .paragraph true ∉ chain.beforeLexeme) (isLeaf : leaf ∈ (chain.parse text).leafTexts)
    (member : c ∈ leaf) : c ∈ text := by
  induction chain generalizing text with
  | nil => simp [parse, Node.leafTexts, Node.leafTextsAll] at isLeaf
  | cons level rest ih =>
      by_cases isLexeme : level = .lexeme
      · subst isLexeme
        rw [parse_lexeme] at isLeaf
        rw [← join_cut word text]
        exact mem_of_mem_lexemeLeaves isLeaf member
      · rw [beforeLexeme_cons isLexeme, List.mem_cons, not_or] at keeps
        by_cases empty : rest = []
        · subst empty
          cases level <;> simp [parse, Node.leafTexts, Node.leafTextsAll] at isLeaf isLexeme
        · rw [parse_cons isLexeme empty] at isLeaf
          obtain ⟨piece, isPiece, isLeaf⟩ := exists_piece_of_mem_leafTextsAll isLeaf
          obtain ⟨whole, isWhole, rfl⟩ := mem_trimmedPieces isPiece
          have inPiece := mem_of_mem_trim (ih keeps.2 isLeaf)
          exact mem_of_mem_pieces (Ne.symm keeps.1) isWhole inPiece

theorem not_isBlank_of_sentence (chain : Chain) {leaf : Text}
    (keeps : .paragraph true ∉ chain.beforeLexeme) (sentence : .sentence ∈ chain.beforeLexeme)
    (isLeaf : leaf ∈ (chain.parse text).leafTexts) (member : c ∈ leaf) : isBlank c = false := by
  induction chain generalizing text with
  | nil => simp [beforeLexeme] at sentence
  | cons level rest ih =>
      by_cases isLexeme : level = .lexeme
      · subst isLexeme
        simp [beforeLexeme] at sentence
      · rw [beforeLexeme_cons isLexeme, List.mem_cons, not_or] at keeps
        rw [beforeLexeme_cons isLexeme, List.mem_cons] at sentence
        by_cases empty : rest = []
        · subst empty
          cases level <;> simp [parse, Node.leafTexts, Node.leafTextsAll] at isLeaf isLexeme
        · rw [parse_cons isLexeme empty] at isLeaf
          obtain ⟨piece, isPiece, isLeaf⟩ := exists_piece_of_mem_leafTextsAll isLeaf
          rcases sentence with rfl | later
          · obtain ⟨whole, isWhole, rfl⟩ := mem_trimmedPieces isPiece
            have inPiece := mem_of_mem_trim (mem_of_mem_leafTexts_parse rest keeps.2 isLeaf member)
            exact not_isBlank_of_mem_lexemes isWhole inPiece
          · exact ih keeps.2 later isLeaf

/-- Parsing neither loses, doubles nor moves a character that is not white space, in the
leaves and in the text rebuilt from them.  Leaves below a sentence have no white space. -/
theorem ink_parse (chain : Chain) (text : Text) (ends : .lexeme ∈ chain)
    (keeps : .paragraph true ∉ chain.beforeLexeme) :
    ink (chain.parse text).leafTexts.flatten = ink text ∧
    ink (chain.parse text).reconstruct = ink text ∧
    (.sentence ∈ chain.beforeLexeme →
      ∀ leaf ∈ (chain.parse text).leafTexts, ∀ c ∈ leaf, isBlank c = false) := by
  have leaves := ink_leafTexts_parse chain text ends keeps
  refine ⟨leaves, (Node.ink_reconstruct _).trans leaves, ?_⟩
  intro sentence leaf isLeaf c member
  exact not_isBlank_of_sentence chain keeps sentence isLeaf member

theorem ink_parse_full :
    .lexeme ∈ Chain.full false ∧ .paragraph true ∉ (Chain.full false).beforeLexeme ∧
    ink ((Chain.full false).parse ['O', 'h', ',', ' ', 'n', 'o', '.']).reconstruct =
      ['O', 'h', ',', 'n', 'o', '.'] := by
  have ends : .lexeme ∈ Chain.full false := by decide
  have keeps : .paragraph true ∉ (Chain.full false).beforeLexeme := by decide
  have kept := ink_parse (Chain.full false) ['O', 'h', ',', ' ', 'n', 'o', '.'] ends keeps
  exact ⟨ends, keeps, kept.2.1⟩

end Chain

end Segmentation

end ProseTree
