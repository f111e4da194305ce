import ProseTree.Proofs.Segmentation.Sentences

namespace ProseTree.Segmentation

/-! The text of a tree from the lexemes of the text it was parsed from: one space between
the lexemes of a sentence, none between sentences, a line feed between paragraphs. -/

open Text

variable {text word : Text} {words : List Text}

/-- The text of words that follow one another in a paragraph. -/
def typeset : List Text → Text
  | [] => []
  | [word] => word
  | word :: next :: rest =>
      word ++ (if goesOn word next then [' '] else []) ++ typeset (next :: rest)

theorem typeset_eq (words : List Text) :
    ((words.splitBy goesOn).map [' '].intercalate).flatten = typeset words := by
  induction words with
  | nil => rfl
  | cons word rest ih =>
      cases rest with
      | nil => simp [List.splitBy, List.splitBy.loop, typeset]
      | cons next rest =>
          obtain ⟨group, groups, split⟩ : ∃ group groups,
              (next :: rest).splitBy goesOn = group :: groups :=
            List.exists_cons_of_ne_nil (List.splitBy_ne_nil.mpr (List.cons_ne_nil next rest))
          cases related : goesOn word next with
          | true =>
              obtain ⟨first, group, rfl⟩ : ∃ first more, group = first :: more := by
                apply List.exists_cons_of_ne_nil
                apply List.ne_nil_of_mem_splitBy (r := goesOn) (l := next :: rest)
                simp [split]
              rw [splitBy_cons_cons related split, typeset, related, ← ih, split]
              simp [List.intercalate_cons_cons]
          | false =>
              rw [splitBy_cons_apart related, List.map_cons, List.flatten_cons, ih, typeset,
                related]
              simp

theorem mem_typeset {c : Char} (member : c ∈ typeset words) :
    c = ' ' ∨ ∃ word ∈ words, c ∈ word := by
  induction words with
  | nil => contradiction
  | cons word rest ih =>
      cases rest with
      | nil => exact .inr ⟨word, by simp, member⟩
      | cons next rest =>
          rcases List.mem_append.mp member with here | later
          · rcases List.mem_append.mp here with inWord | space
            · exact .inr ⟨word, by simp, inWord⟩
            · split at space
              · exact .inl (List.mem_singleton.mp space)
              · contradiction
          · rcases ih later with space | ⟨other, isOther, inOther⟩
            · exact .inl space
            · exact .inr ⟨other, List.mem_cons_of_mem word isOther, inOther⟩

theorem inked_typeset (isWord : ∀ word ∈ words, IsWord word) (nonempty : words ≠ []) :
    StartsInked (typeset words) ∧ EndsInked (typeset words) := by
  induction words with
  | nil => contradiction
  | cons word rest ih =>
      obtain ⟨own, others⟩ := List.forall_mem_cons.mp isWord
      cases rest with
      | nil => exact ⟨own.startsInked, own.endsInked⟩
      | cons next rest =>
          obtain ⟨-, ends⟩ := ih others (List.cons_ne_nil next rest)
          rw [typeset]
          exact ⟨(own.startsInked.append _).append _, ends.append _⟩

theorem goesOn_append_left {front next : Text} (nonempty : word ≠ []) :
    goesOn (front ++ word) next = goesOn word next := by
  rw [goesOn, goesOn, endsSentence, endsSentence, List.getLast?_append_of_ne_nil _ nonempty]

theorem beginsSentence_append (nonempty : word ≠ []) (back : Text) :
    beginsSentence (word ++ back) = beginsSentence word := by
  obtain ⟨c, rest, rfl⟩ := List.exists_cons_of_ne_nil nonempty
  rfl

theorem typeset_append_head (nonempty : word ≠ []) (front : Text) (words : List Text) :
    typeset ((front ++ word) :: words) = front ++ typeset (word :: words) := by
  cases words with
  | nil => rfl
  | cons next rest => rw [typeset, typeset, goesOn_append_left nonempty]; simp

/-- What is typeset is cut into lexemes that go on to the end: words that do not go on have grown
together. -/
theorem lexemes_typeset_cons (word : Text) (words : List Text)
    (isWord : ∀ other ∈ word :: words, IsWord other) :
    ∃ first others, lexemes (typeset (word :: words)) = first :: others ∧ first ≠ [] ∧
      beginsSentence first = beginsSentence word ∧
      (first :: others).IsChain (fun word next => goesOn word next = true) ∧
      typeset (first :: others) = typeset (word :: words) := by
  induction words generalizing word with
  | nil =>
      have own := isWord word (by simp)
      exact ⟨word, [], lexemes_word own, own.1, rfl, .singleton word, rfl⟩
  | cons next rest ih =>
      obtain ⟨own, others⟩ := List.forall_mem_cons.mp isWord
      obtain ⟨first, behind, found, nonempty, begins, chain, same⟩ := ih next others
      have starts := (inked_typeset others (List.cons_ne_nil next rest)).1
      have related : goesOn word first = goesOn word next := by rw [goesOn, goesOn, begins]
      cases apart : goesOn word next with
      | true =>
          have space : Blank [' '] := by decide
          refine ⟨word, first :: behind, ?_, own.1, rfl, ?_, ?_⟩
          · rw [typeset, apart, if_pos rfl,
              lexemes_word_blank_append own space (List.cons_ne_nil _ _), found]
          · exact List.isChain_cons_cons.mpr ⟨related.trans apart, chain⟩
          · rw [typeset, typeset, related, same]
      | false =>
          obtain ⟨head, tail, -, found', joined⟩ := lexemes_word_append_inked own starts
          obtain ⟨rfl, rfl⟩ := List.cons.inj (found.symm.trans found')
          refine ⟨word ++ first, behind, ?_, by simp [nonempty], beginsSentence_append own.1 first,
            ?_, ?_⟩
          · rw [typeset, apart, if_neg Bool.false_ne_true, List.append_nil, joined]
          · rw [List.isChain_cons] at chain ⊢
            refine ⟨fun next isNext => ?_, chain.2⟩
            rw [goesOn_append_left nonempty]
            exact chain.1 next isNext
          · rw [typeset_append_head nonempty, same, typeset, apart, if_neg Bool.false_ne_true,
              List.append_nil]

/-- Typesetting again what was typeset changes nothing. -/
theorem typeset_lexemes_typeset (isWord : ∀ word ∈ words, IsWord word) :
    typeset (lexemes (typeset words)) = typeset words := by
  cases words with
  | nil => rw [typeset, lexemes_blank blank_nil, typeset]
  | cons word rest =>
      obtain ⟨first, others, found, -, -, -, same⟩ := lexemes_typeset_cons word rest isWord
      rw [found, same]

/-- What is typeset is one sentence. -/
theorem splitBy_lexemes_typeset (isWord : ∀ word ∈ words, IsWord word) (nonempty : words ≠ []) :
    (lexemes (typeset words)).splitBy goesOn = [lexemes (typeset words)] := by
  obtain ⟨word, rest, rfl⟩ := List.exists_cons_of_ne_nil nonempty
  obtain ⟨first, others, found, -, -, chain, -⟩ := lexemes_typeset_cons word rest isWord
  rw [found]
  exact List.splitBy_of_isChain (List.cons_ne_nil first others) chain

/-- The node of a lexeme, cut into its leaves. -/
def lexemeNode (word : Text) : Node := Chain.parse [.lexeme] word

theorem gapLeaf_of_inked {gap : Text} (nonempty : gap ≠ [])
    (inked : ∀ c ∈ gap, isBlank c = false) : gapLeaf gap = [.leaf none .punctuation gap] := by
  have starts := startsInked_of_inked nonempty inked
  rw [gapLeaf, trim_eq_self starts (endsInked_of_inked nonempty inked),
    if_neg (mt List.isEmpty_iff.mp nonempty)]

theorem reconstruct_lexemeLeaves {segments : Segments}
    (inked : ∀ c ∈ segments.join, isBlank c = false) :
    ((lexemeLeaves segments).map Node.reconstruct).flatten = segments.join := by
  have leaf : ∀ gap : Text, (∀ c ∈ gap, isBlank c = false) →
      ((gapLeaf gap).map Node.reconstruct).flatten = gap := by
    intro gap inked
    by_cases empty : gap = []
    · subst empty
      rfl
    · rw [gapLeaf_of_inked empty inked]
      simp [Node.reconstruct]
  induction segments with
  | last gap => exact leaf gap inked
  | found gap occurrence rest ih =>
      have later := ih fun c member => inked c (by simp [Segments.join, member])
      have here := leaf gap fun c member => inked c (by simp [Segments.join, member])
      simp only [lexemeLeaves, List.map_append, List.map_cons, List.flatten_append, here,
        List.flatten_cons, later, Node.reconstruct, Segments.join, List.append_assoc]

theorem reconstruct_lexemeNode (inked : ∀ c ∈ text, isBlank c = false) :
    (lexemeNode text).reconstruct = text := by
  have whole := join_cut Segmentation.word text
  rw [lexemeNode, Chain.parse_lexeme, Node.reconstruct_of_no_separator fun _ => rfl,
    reconstruct_lexemeLeaves (by rwa [whole]), whole]

theorem trimmedPieces_lexemes (text : Text) : trimmedPieces (lexemes text) = lexemes text := by
  have trimmed : (lexemes text).map trim = lexemes text := by
    refine (List.map_congr_left fun word member => ?_).trans (List.map_id' _)
    have isWord := isWord_of_mem_lexemes member
    exact trim_eq_self isWord.startsInked isWord.endsInked
  rw [trimmedPieces, trimmed, List.filter_eq_self]
  intro word member
  simpa using (isWord_of_mem_lexemes member).1

theorem parse_sentence (text : Text) : Chain.parse [.sentence, .lexeme] text =
    .composite none .sentence ((lexemes text).map lexemeNode) := by
  rw [Chain.parse_cons (by decide) (by decide)]
  exact congrArg (fun pieces => Node.composite none .sentence (pieces.map lexemeNode))
    (trimmedPieces_lexemes text)

theorem parse_paragraph (text : Text) : Chain.parse [.paragraph false, .sentence, .lexeme] text =
    .composite none .paragraph (((lexemes text).splitBy goesOn).map fun words =>
      .composite none .sentence (words.map lexemeNode)) := by
  rw [Chain.parse_cons (by decide) (by decide), ← lexemes_sentences, List.map_map]
  apply congrArg
  exact List.map_congr_left fun piece _ => parse_sentence piece

theorem reconstruct_sentence (isWord : ∀ word ∈ words, IsWord word) :
    (Node.composite none .sentence (words.map lexemeNode)).reconstruct =
      [' '].intercalate words := by
  have spaced : ∀ child ∈ words.map lexemeNode,
      Kind.sentence.separatorBefore child.kind = some ' ' := by
    intro child member
    obtain ⟨word, -, rfl⟩ := List.mem_map.mp member
    rfl
  rw [Node.reconstruct_of_separator spaced, List.map_map]
  apply congrArg
  refine (List.map_congr_left fun word member => ?_).trans (List.map_id' _)
  exact reconstruct_lexemeNode (isWord word member).2

/-- The text of a paragraph is its lexemes typeset. -/
theorem reconstruct_paragraph (text : Text) :
    (Chain.parse [.paragraph false, .sentence, .lexeme] text).reconstruct =
      typeset (lexemes text) := by
  rw [parse_paragraph, Node.reconstruct_of_no_separator fun _ => rfl, List.map_map, ← typeset_eq]
  apply congrArg
  apply List.map_congr_left
  intro words isGroup
  apply reconstruct_sentence
  intro word member
  apply isWord_of_mem_lexemes
  rw [← List.flatten_splitBy goesOn (lexemes text)]
  exact List.mem_flatten_of_mem isGroup member

/-- The text of a paragraph as its sentences are cut: with expressions replaced or not. -/
def calculated (evaluates : Bool) (text : Text) : Text :=
  if evaluates then (Expression.reduce text).text else text

theorem parse_paragraph_calculated (evaluates : Bool) (text : Text) :
    Chain.parse [.paragraph evaluates, .sentence, .lexeme] text =
      Chain.parse [.paragraph false, .sentence, .lexeme] (calculated evaluates text) := by
  cases evaluates <;> rfl

/-- The text of a whole tree. -/
theorem reconstruct_full (evaluates : Bool) (text : Text) :
    ((Chain.full evaluates).parse text).reconstruct =
      ['\n'].intercalate ((paragraphSeparator.pieces text).map fun piece =>
        typeset (lexemes (calculated evaluates piece))) := by
  rw [Chain.full, Chain.parse_cons (by decide) (List.cons_ne_nil _ _)]
  have separated : ∀ child ∈ (paragraphSeparator.pieces text).map
      (Chain.parse [.paragraph evaluates, .sentence, .lexeme]),
      Kind.document.separatorBefore child.kind = some '\n' := fun _ _ => rfl
  have whole := @Node.reconstruct_of_separator none _ _ _ separated
  rw [List.map_map] at whole
  refine whole.trans (congrArg _ (List.map_congr_left fun piece _ => ?_))
  rw [Function.comp_apply, parse_paragraph_calculated, reconstruct_paragraph]

end ProseTree.Segmentation
