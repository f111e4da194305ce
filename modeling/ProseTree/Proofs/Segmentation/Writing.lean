import ProseTree.Proofs.Segmentation.Paragraphs
import ProseTree.Proofs.Segmentation.Typesetting

namespace ProseTree.Segmentation

/-! Parsing gives back what was written down, in whatever white space it was written. -/

open Text

/-- A paragraph written down: white space between its words, none of which breaks. -/
inductive Written : List Text → Text → Prop where
  | last {word : Text} : Written [word] word
  | more {word blanks text : Text} {words : List Text} (blank : Blank blanks)
      (nonempty : blanks ≠ []) (joins : ¬Breaks blanks) (rest : Written words text) :
      Written (word :: words) (word ++ blanks ++ text)

/-- Paragraphs written down, with white space that breaks between them. -/
inductive WrittenApart : List (List Text) → Text → Prop where
  | nothing : WrittenApart [] []
  | last {words : List Text} {text : Text} (written : Written words text) :
      WrittenApart [words] text
  | more {words : List Text} {paragraphs : List (List Text)} {text blanks others : Text}
      (written : Written words text) (blank : Blank blanks) (breaks : Breaks blanks)
      (rest : WrittenApart paragraphs others) :
      WrittenApart (words :: paragraphs) (text ++ blanks ++ others)

/-- Sentences that follow one another as the sentences of a paragraph: each goes on from
word to word, and none goes on into the next. -/
structure IsParagraph (sentences : List (List Text)) : Prop where
  nonempty : sentences ≠ []
  sentencesNonempty : [] ∉ sentences
  words : ∀ sentence ∈ sentences, ∀ word ∈ sentence, IsWord word
  inside : ∀ sentence ∈ sentences, sentence.IsChain fun word next => goesOn word next = true
  between : sentences.IsChain fun sentence next => ∃ isSentence isNext,
    goesOn (sentence.getLast isSentence) (next.head isNext) = false

variable {text : Text} {words : List Text} {sentences : List (List Text)}

/-- A paragraph written down is a text of its words and one piece. -/
theorem Written.pieces_eq (written : Written words text)
    (areWords : ∀ word ∈ words, IsWord word) :
    StartsInked text ∧ EndsInked text ∧ lexemes text = words ∧
      paragraphSeparator.pieces text = [text] := by
  induction written with
  | @last word =>
      have isWord := areWords word (by simp)
      exact ⟨isWord.startsInked, isWord.endsInked, lexemes_word isWord,
        cutsBlanks_paragraphSeparator.pieces_inked isWord.1 isWord.2⟩
  | @more word blanks text words blank nonempty joins rest ih =>
      obtain ⟨isWord, areWords⟩ := List.forall_mem_cons.mp areWords
      obtain ⟨starts, ends, found, piece⟩ := ih areWords
      obtain ⟨front, last, first, others, inWord, inText, together⟩ :=
        paragraphs_together blank joins isWord.endsInked starts
      rw [cutsBlanks_paragraphSeparator.pieces_inked isWord.1 isWord.2] at inWord
      obtain ⟨rfl, own⟩ := List.append_eq_singleton_iff.mp inWord.symm |>.resolve_right (by simp)
      obtain ⟨rfl, -⟩ := List.cons.inj own
      rw [piece] at inText
      obtain ⟨rfl, rfl⟩ := List.cons.inj inText
      refine ⟨?_, ends.append _, ?_, together⟩
      · rw [List.append_assoc]
        exact isWord.startsInked.append _
      · rw [lexemes_word_blank_append isWord blank nonempty, found]

theorem Written.append {others : List Text} {blanks behind : Text} (written : Written words text)
    (blank : Blank blanks) (nonempty : blanks ≠ []) (joins : ¬Breaks blanks)
    (rest : Written others behind) : Written (words ++ others) (text ++ blanks ++ behind) := by
  induction written with
  | last => exact .more blank nonempty joins rest
  | @more word _ _ _ blankInside nonemptyInside joinsInside _ ih =>
      have whole := @Written.more word _ _ _ blankInside nonemptyInside joinsInside ih
      simpa using whole

/-- A line that begins and ends with ink is a paragraph. -/
theorem written_lexemes (starts : StartsInked text) (ends : EndsInked text)
    (noLineFeed : '\n' ∉ text) : Written (lexemes text) text := by
  have written := @words_induction (fun words text => '\n' ∉ text → Written words text)
    (fun _ _ _ => .last) ?_ text starts ends
  · exact written noLineFeed
  · intro word blanks rest isWord blank nonempty startsRest ih noLineFeed
    rw [List.mem_append, List.mem_append, not_or, not_or] at noLineFeed
    obtain ⟨⟨-, noLineFeedInside⟩, noLineFeedBehind⟩ := noLineFeed
    exact .more blank nonempty (not_breaks_of_no_lineFeed noLineFeedInside) (ih noLineFeedBehind)

/-- Lines under one another are one paragraph. -/
theorem written_lines {lines : List Text} (nonempty : lines ≠ [])
    (areLines : ∀ line ∈ lines, StartsInked line ∧ EndsInked line ∧ '\n' ∉ line) :
    ∃ words, (∀ word ∈ words, IsWord word) ∧ Written words (['\n'].intercalate lines) := by
  induction lines with
  | nil => contradiction
  | cons line rest ih =>
      obtain ⟨⟨starts, ends, noLineFeed⟩, others⟩ := List.forall_mem_cons.mp areLines
      have written := written_lexemes starts ends noLineFeed
      have areWords : ∀ word ∈ lexemes line, IsWord word := fun word => isWord_of_mem_lexemes
      cases rest with
      | nil => exact ⟨lexemes line, areWords, by simpa using written⟩
      | cons next rest =>
          obtain ⟨words, areWordsBehind, writtenBehind⟩ := ih (List.cons_ne_nil next rest) others
          refine ⟨lexemes line ++ words, List.forall_mem_append.mpr ⟨areWords, areWordsBehind⟩, ?_⟩
          have whole := @Written.append _ _ _ ['\n'] _ written (by decide) (by decide) (by decide)
            writtenBehind
          rw [List.intercalate_cons_cons]
          exact whole

/-- The paragraphs found are the paragraphs written. -/
theorem WrittenApart.lexemes_pieces {paragraphs : List (List Text)}
    (written : WrittenApart paragraphs text)
    (areWords : ∀ words ∈ paragraphs, ∀ word ∈ words, IsWord word) :
    (paragraphSeparator.pieces text).map lexemes = paragraphs := by
  induction written with
  | nothing => rw [Rule.pieces_blank blank_nil, List.map_nil]
  | @last words text written =>
      obtain ⟨-, -, found, piece⟩ := written.pieces_eq (areWords words (by simp))
      rw [piece, List.map_singleton, found]
  | more written blank breaks rest ih =>
      obtain ⟨isParagraph, areParagraphs⟩ := List.forall_mem_cons.mp areWords
      obtain ⟨-, -, found, piece⟩ := written.pieces_eq isParagraph
      rw [paragraphs_apart blank breaks, List.map_append, piece, List.map_singleton, found,
        ih areParagraphs, List.singleton_append]

/-- The tree of paragraphs of sentences of lexemes. -/
def treeOf (paragraphs : List (List (List Text))) : Node :=
  .composite none .document (paragraphs.map fun sentences =>
    .composite none .paragraph (sentences.map fun words =>
      .composite none .sentence (words.map lexemeNode)))

theorem IsParagraph.splitBy_flatten (isParagraph : IsParagraph sentences) :
    sentences.flatten.splitBy goesOn = sentences :=
  List.splitBy_flatten isParagraph.sentencesNonempty isParagraph.inside isParagraph.between

namespace Chain

/-- Paragraphs of sentences of lexemes, written down with any white space between the
lexemes, are parsed into just these, and each lexeme keeps its text. -/
theorem parse_written (paragraphs : List (List (List Text))) (text : Text)
    (areParagraphs : ∀ sentences ∈ paragraphs, IsParagraph sentences)
    (written : WrittenApart (paragraphs.map List.flatten) text) :
    (full false).parse text = treeOf paragraphs ∧
    ∀ sentences ∈ paragraphs, ∀ words ∈ sentences, ∀ word ∈ words,
      (lexemeNode word).kind = .lexeme ∧ (lexemeNode word).reconstruct = word := by
  constructor
  · have areWords : ∀ words ∈ paragraphs.map List.flatten, ∀ word ∈ words, IsWord word := by
      intro words member word inWords
      obtain ⟨sentences, isParagraph, rfl⟩ := List.mem_map.mp member
      obtain ⟨sentence, isSentence, inSentence⟩ := List.mem_flatten.mp inWords
      exact (areParagraphs sentences isParagraph).words sentence isSentence word inSentence
    have found := written.lexemes_pieces areWords
    rw [full, parse_cons (by decide) (List.cons_ne_nil _ _), treeOf]
    apply congrArg
    calc (paragraphSeparator.pieces text).map (parse [.paragraph false, .sentence, .lexeme])
        = ((paragraphSeparator.pieces text).map lexemes).map fun words =>
            .composite none .paragraph ((words.splitBy goesOn).map fun words =>
              .composite none .sentence (words.map lexemeNode)) := by
          rw [List.map_map]
          exact List.map_congr_left fun piece _ => parse_paragraph piece
      _ = _ := by
          rw [found, List.map_map]
          apply List.map_congr_left
          intro sentences isParagraph
          rw [Function.comp_apply, (areParagraphs sentences isParagraph).splitBy_flatten]
  · intro sentences isParagraph words isSentence word inSentence
    have isWord := (areParagraphs sentences isParagraph).words words isSentence word inSentence
    exact ⟨rfl, reconstruct_lexemeNode isWord.2⟩

/-- A no-break space, a tab and a lone line feed inside a paragraph; between the paragraphs
two line feeds with a carriage return between them. -/
theorem parse_written_mixed :
    let text : Text :=
      ['a', '.', '\u00a0', 'b', '…', '\t', '\n', 'Ж', '!', '\n', '\r', '\n', '1', '+', '1']
    let paragraphs : List (List (List Text)) :=
      [[[['a', '.'], ['b', '…']], [['Ж', '!']]], [[['1', '+', '1']]]]
    (∀ sentences ∈ paragraphs, IsParagraph sentences) ∧
    WrittenApart (paragraphs.map List.flatten) text ∧
    (full false).parse text = treeOf paragraphs := by
  intro text paragraphs
  have areParagraphs : ∀ sentences ∈ paragraphs, IsParagraph sentences := by
    intro sentences member
    rcases List.mem_cons.mp member with rfl | member
    · exact ⟨by decide, by decide, by decide, by decide, by simp; decide⟩
    · obtain rfl := List.mem_singleton.mp member
      exact ⟨by decide, by decide, by decide, by decide, by simp⟩
  have written : WrittenApart (paragraphs.map List.flatten) text := by
    have inside : Written [['a', '.'], ['b', '…'], ['Ж', '!']]
        (['a', '.'] ++ ['\u00a0'] ++ (['b', '…'] ++ ['\t', '\n'] ++ ['Ж', '!'])) :=
      .more (by decide) (by decide) (by decide)
        (.more (by decide) (by decide) (by decide) .last)
    exact @WrittenApart.more _ _ _ ['\n', '\r', '\n'] _ inside (by decide) (by decide)
      (.last .last)
  exact ⟨areParagraphs, written, (parse_written paragraphs text areParagraphs written).1⟩

end Chain

end ProseTree.Segmentation
