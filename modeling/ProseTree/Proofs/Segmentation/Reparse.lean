import Mathlib.Data.Bool.AllAny
import ProseTree.Proofs.Expression.Accounting
import ProseTree.Proofs.Segmentation.RespacedReduction
import ProseTree.Proofs.Segmentation.Writing

namespace ProseTree.Segmentation

/-! Parsing again what was rebuilt.

The first round leaves single spaces between lexemes and single line feeds between
paragraphs, so the second finds one paragraph, and it glues what sentences are left.  The
third finds the same expressions without a value and changes nothing. -/

open Text Expression

variable {text : Text} {c : Char} {evaluates : Bool}

/-- The text of the tree a text is parsed into. -/
def reprint (evaluates : Bool) (text : Text) : Text :=
  ((Chain.full evaluates).parse text).reconstruct

theorem respaced_typeset_cons {word blanks : Text} (isWord : IsWord word) (blank : Blank blanks)
    (nonempty : blanks ≠ []) (starts : StartsInked text)
    (behind : Respaced text (typeset (lexemes text))) :
    Respaced (word ++ blanks ++ text) (typeset (word :: lexemes text)) := by
  obtain ⟨first, rest, rfl, isFirst, stops⟩ := exists_word_front starts
  rw [lexemes_word_append isFirst stops] at behind ⊢
  rw [typeset]
  cases related : goesOn word first with
  | true =>
      have space : Respaced blanks [' '] := .of_blank blank (by decide) (by simpa using nonempty)
      exact ((Respaced.refl word).append space).append behind
  | false =>
      obtain ⟨terminates, opens⟩ := goesOn_eq_false_iff.mp related
      obtain ⟨init, terminator, rfl⟩ := List.eq_nil_or_concat word |>.resolve_left isWord.1
      obtain ⟨opener, more, rfl⟩ := List.exists_cons_of_ne_nil isFirst.1
      rw [List.concat_eq_append] at terminates ⊢
      have isTerminator : isTerminator terminator = true := by simpa [endsSentence] using terminates
      obtain ⟨other, same, tail⟩ := behind.cons_inv_of_not_isTerminator
        (isFirst.2 opener (by simp)) (not_isTerminator_of_isOpener opens)
      have closed := Respaced.closed isTerminator opens blank blank_nil tail
      rw [same]
      simpa using (Respaced.refl init).append closed

theorem respaced_typeset (starts : StartsInked text) (ends : EndsInked text) :
    Respaced text (typeset (lexemes text)) := by
  apply @words_induction fun words text => Respaced text (typeset words)
  · exact fun word _ => .refl word
  · intro word blanks text isWord blank nonempty startsText behind
    exact respaced_typeset_cons isWord blank nonempty startsText behind
  · exact starts
  · exact ends

/-- The text is one paragraph. -/
structure OneParagraph (text : Text) : Prop where
  starts : StartsInked text
  ends : EndsInked text
  alone : paragraphSeparator.pieces text = [text]

theorem oneParagraph_lines {lines : List Text} (nonempty : lines ≠ [])
    (areLines : ∀ line ∈ lines, StartsInked line ∧ EndsInked line ∧ '\n' ∉ line) :
    OneParagraph (['\n'].intercalate lines) := by
  obtain ⟨words, areWords, written⟩ := written_lines nonempty areLines
  obtain ⟨starts, ends, -, alone⟩ := written.pieces_eq areWords
  exact ⟨starts, ends, alone⟩

theorem oneParagraph_line (starts : StartsInked text) (ends : EndsInked text)
    (noLineFeed : '\n' ∉ text) : OneParagraph text := by
  have written := written_lexemes starts ends noLineFeed
  obtain ⟨-, -, -, alone⟩ := written.pieces_eq fun word => isWord_of_mem_lexemes
  exact ⟨starts, ends, alone⟩

theorem inked_calculated (starts : StartsInked text) (ends : EndsInked text) :
    StartsInked (calculated evaluates text) ∧ EndsInked (calculated evaluates text) := by
  cases evaluates with
  | false => exact ⟨starts, ends⟩
  | true => exact ⟨startsInked_reduce starts, endsInked_reduce ends⟩

/-- A text rebuilt from one paragraph is a line. -/
theorem line_typeset (inked : ¬Blank text) :
    StartsInked (typeset (lexemes text)) ∧ EndsInked (typeset (lexemes text)) ∧
      '\n' ∉ typeset (lexemes text) := by
  have areWords : ∀ word ∈ lexemes text, IsWord word := fun word => isWord_of_mem_lexemes
  have some : lexemes text ≠ [] := mt lexemes_eq_nil_iff.mp inked
  obtain ⟨startsSet, endsSet⟩ := inked_typeset areWords some
  refine ⟨startsSet, endsSet, fun member => ?_⟩
  rcases mem_typeset member with space | ⟨word, isWord, inWord⟩
  · contradiction
  · exact absurd ((areWords word isWord).2 _ inWord) (by decide)

theorem reprint_eq (evaluates : Bool) (text : Text) : reprint evaluates text =
    ['\n'].intercalate ((paragraphSeparator.pieces text).map fun piece =>
      typeset (lexemes (calculated evaluates piece))) :=
  reconstruct_full evaluates text

theorem OneParagraph.reprint_eq (one : OneParagraph text) :
    reprint evaluates text = typeset (lexemes (calculated evaluates text)) := by
  rw [Segmentation.reprint_eq, one.alone]
  simp

theorem reprint_blank (blank : Blank text) : reprint evaluates text = [] := by
  rw [reprint_eq, Rule.pieces_blank blank]
  rfl

theorem pieces_ne_nil (inked : ¬Blank text) : paragraphSeparator.pieces text ≠ [] := by
  intro empty
  apply inked
  have kept := ink_trimmedPieces (splitParagraphs text)
  rw [ink_splitParagraphs, show trimmedPieces (splitParagraphs text) = [] from empty] at kept
  exact blank_iff_ink_eq_nil.mpr kept.symm

/-- What is rebuilt is one paragraph. -/
theorem oneParagraph_reprint (inked : ¬Blank text) : OneParagraph (reprint evaluates text) := by
  rw [reprint_eq]
  apply oneParagraph_lines
  · simpa using pieces_ne_nil inked
  · intro line isLine
    obtain ⟨piece, isPiece, rfl⟩ := List.mem_map.mp isLine
    obtain ⟨starts, ends⟩ := inked_of_mem_trimmedPieces isPiece
    exact line_typeset (inked_calculated starts ends).1.not_blank

theorem mem_intercalate {separator : Char} {lines : List Text}
    (member : c ∈ [separator].intercalate lines) : c = separator ∨ ∃ line ∈ lines, c ∈ line := by
  induction lines with
  | nil => contradiction
  | cons line rest ih =>
      cases rest with
      | nil => exact .inr ⟨line, by simp, by simpa using member⟩
      | cons next rest =>
          rw [List.intercalate_cons_cons] at member
          rcases List.mem_append.mp member with here | later
          · rcases List.mem_append.mp here with inLine | own
            · exact .inr ⟨line, by simp, inLine⟩
            · exact .inl (List.mem_singleton.mp own)
          · rcases ih later with own | ⟨other, isLine, inLine⟩
            · exact .inl own
            · exact .inr ⟨other, List.mem_cons_of_mem line isLine, inLine⟩

theorem mem_lexeme {word : Text} (isLexeme : word ∈ lexemes text) (member : c ∈ word) : c ∈ text := by
  rw [← join_cut lexeme text]
  exact Segments.mem_join_of_mem_occurrences isLexeme member

theorem mem_reprint (member : c ∈ reprint evaluates text) :
    c = '\n' ∨ c = ' ' ∨
      isBlank c = false ∧ (c ∈ text ∨ evaluates = true ∧ (isNumeral c = true ∨ c = '-')) := by
  rw [reprint_eq] at member
  rcases mem_intercalate member with lineFeed | ⟨line, isLine, inLine⟩
  · exact .inl lineFeed
  · obtain ⟨piece, isPiece, rfl⟩ := List.mem_map.mp isLine
    rcases mem_typeset inLine with space | ⟨word, isLexeme, inWord⟩
    · exact .inr (.inl space)
    · refine .inr (.inr ⟨(isWord_of_mem_lexemes isLexeme).2 c inWord, ?_⟩)
      obtain ⟨whole, isWhole, rfl⟩ := mem_trimmedPieces isPiece
      have inText : ∀ d ∈ trim whole, d ∈ text := by
        intro d inPiece
        exact @mem_of_mem_pieces _ _ .document (by decide) whole isWhole (mem_of_mem_trim inPiece)
      have inCalculated := mem_lexeme isLexeme inWord
      cases evaluates with
      | false => exact .inl (inText c inCalculated)
      | true =>
          rcases mem_reduce inCalculated with inPiece | written
          · exact .inl (inText c inPiece)
          · exact .inr ⟨rfl, written⟩

theorem gaps_reprint (evaluates : Bool) (text : Text) :
    ∀ c ∈ reprint evaluates text, isBlank c = true → isGap c = true := by
  intro c member blank
  rcases mem_reprint member with rfl | rfl | ⟨inked, -⟩
  · decide
  · decide
  · rw [inked] at blank
    contradiction

theorem plain_reprint (plain : ∀ c ∈ text, isParenthesis c = false) :
    ∀ c ∈ reprint evaluates text, isParenthesis c = false := by
  intro c member
  rcases mem_reprint member with rfl | rfl | ⟨-, inText | ⟨-, numeral | rfl⟩⟩
  · decide
  · decide
  · exact plain c inText
  · exact not_isParenthesis_of_isNumeral numeral
  · decide

namespace OneParagraph

theorem line (one : OneParagraph text) (evaluates : Bool) :
    StartsInked (reprint evaluates text) ∧ EndsInked (reprint evaluates text) ∧
      '\n' ∉ reprint evaluates text := by
  rw [one.reprint_eq]
  exact line_typeset (inked_calculated one.starts one.ends).1.not_blank

theorem again (one : OneParagraph text) (evaluates : Bool) :
    OneParagraph (reprint evaluates text) := by
  obtain ⟨starts, ends, noLineFeed⟩ := one.line evaluates
  exact oneParagraph_line starts ends noLineFeed

theorem respaced_reprint (one : OneParagraph text) (evaluates : Bool) :
    Respaced (calculated evaluates text) (reprint evaluates text) := by
  obtain ⟨starts, ends⟩ := @inked_calculated _ evaluates one.starts one.ends
  rw [one.reprint_eq]
  exact respaced_typeset starts ends

/-- The rebuilt text is rebuilt as it is when no expression in it is replaced. -/
theorem reprint_reprint (one : OneParagraph text)
    (same : calculated evaluates (reprint evaluates text) = reprint evaluates text) :
    reprint evaluates (reprint evaluates text) = reprint evaluates text := by
  rw [(one.again evaluates).reprint_eq, same, one.reprint_eq]
  exact typeset_lexemes_typeset fun word => isWord_of_mem_lexemes

/-- A rebuilt text is parsed into one sentence when no expression in it is replaced. -/
theorem parse_reprint (one : OneParagraph text)
    (same : calculated evaluates (reprint evaluates text) = reprint evaluates text) :
    (Chain.full evaluates).parse (reprint evaluates text) =
      .composite none .document [.composite none .paragraph
        [.composite none .sentence ((lexemes (reprint evaluates text)).map lexemeNode)]] := by
  have paragraph : Chain.parse [.paragraph evaluates, .sentence, .lexeme] (reprint evaluates text) =
      .composite none .paragraph
        [.composite none .sentence ((lexemes (reprint evaluates text)).map lexemeNode)] := by
    have some : lexemes (calculated evaluates text) ≠ [] :=
      mt lexemes_eq_nil_iff.mp (inked_calculated one.starts one.ends).1.not_blank
    rw [parse_paragraph_calculated, same, parse_paragraph, one.reprint_eq,
      splitBy_lexemes_typeset (fun word => isWord_of_mem_lexemes) some]
    rfl
  rw [Chain.full, Chain.parse_cons (by decide) (List.cons_ne_nil _ _), ← paragraph]
  exact congrArg (fun pieces => Node.composite none .document (pieces.map
    (Chain.parse [.paragraph evaluates, .sentence, .lexeme]))) (one.again evaluates).alone

/-- The expressions that are left in a paragraph stay in the rebuilt text unless they have
a value with spaces in them. -/
theorem replaced_eq_nil_iff (one : OneParagraph text)
    (plain : ∀ c ∈ text, isParenthesis c = false) :
    (sweep .bare (reprint true text)).replaced = [] ↔ ∀ skipped ∈ (reduce text).skipped, ∀ value,
      evaluate (spaced skipped.expression) ≠ .ok value := by
  have settled := settled_reduce plain
  have alike : Respaced (reduce text).text (reprint true text) := one.respaced_reprint true
  rw [alike.replaced_eq_nil_iff (gaps_reprint true text) (by rw [settled]), settled]

/-- A replacement makes the load of the text smaller, which typesetting cannot make up. -/
theorem reprint_reprint_iff (one : OneParagraph text)
    (plain : ∀ c ∈ text, isParenthesis c = false) :
    reprint true (reprint true text) = reprint true text ↔
      (sweep .bare (reprint true text)).replaced = [] := by
  have plainAgain := @plain_reprint _ true plain
  constructor
  · intro same
    have alike : Respaced (reduce (reprint true text)).text (reprint true (reprint true text)) :=
      (one.again true).respaced_reprint true
    have load := @Respaced.load_eq _ _ [] [] alike ⟨rfl, rfl⟩
    have smaller := load_settle (reprint true text)
    rw [← reduce_plain plainAgain, load, same] at smaller
    have nothing : (settle .bare (reprint true text)).replaced = [] := by
      rw [← reduce_plain plainAgain]
      exact List.length_eq_zero_iff.mp (by omega)
    exact sweep_replaced_nil nothing
  · intro nothing
    exact one.reprint_reprint (reduce_text_eq_self plainAgain nothing)

end OneParagraph

/-- Expressions that are left have no value with spaces in them either, where all white space
may stand between tokens. -/
theorem skipped_of_gaps (plain : ∀ c ∈ text, isParenthesis c = false)
    (gaps : ∀ c ∈ text, isBlank c = true → isGap c = true) :
    ∀ skipped ∈ (reduce text).skipped, ∀ value, evaluate (spaced skipped.expression) ≠ .ok value := by
  have settled := settled_reduce plain
  have gapsLeft : ∀ c ∈ (reduce text).text, isBlank c = true → isGap c = true :=
    fun c member blank => gaps c (blank_mem_reduce member blank) blank
  have itself := (Respaced.refl (reduce text).text).replaced_eq_nil_iff gapsLeft (by rw [settled])
  rw [settled] at itself
  exact itself.mp rfl

theorem calculated_reprint (one : OneParagraph text)
    (gaps : ∀ c ∈ text, isBlank c = true → isGap c = true)
    (plain : evaluates = true → ∀ c ∈ text, isParenthesis c = false) :
    calculated evaluates (reprint evaluates text) = reprint evaluates text := by
  cases evaluates with
  | false => rfl
  | true =>
      have plainText := plain rfl
      apply reduce_text_eq_self (plain_reprint plainText)
      exact (one.replaced_eq_nil_iff plainText).mpr (skipped_of_gaps plainText gaps)

/-- After two rounds of parsing and rebuilding a text stays as it is, one sentence. -/
theorem reprint_fixpoint (evaluates : Bool) (text : Text)
    (plain : evaluates = true → ∀ c ∈ text, isParenthesis c = false) :
    reprint evaluates (reprint evaluates (reprint evaluates text)) =
        reprint evaluates (reprint evaluates text) ∧
    (¬Blank text → ∃ words, words ≠ [] ∧
      (Chain.full evaluates).parse (reprint evaluates (reprint evaluates text)) =
        .composite none .document [.composite none .paragraph
          [.composite none .sentence (words.map lexemeNode)]]) := by
  by_cases blank : Blank text
  · have once : reprint evaluates text = [] := reprint_blank blank
    have nothing : reprint evaluates [] = [] := reprint_blank blank_nil
    rw [once, nothing, nothing]
    exact ⟨rfl, fun inked => absurd blank inked⟩
  · have one : OneParagraph (reprint evaluates text) := oneParagraph_reprint blank
    have same := calculated_reprint one (gaps_reprint evaluates text) fun on => plain_reprint (plain on)
    have starts := (one.line evaluates).1
    exact ⟨one.reprint_reprint same, fun _ =>
      ⟨_, mt lexemes_eq_nil_iff.mp starts.not_blank, one.parse_reprint same⟩⟩

/-- The paragraphs of the first round make an expression of the second. -/
theorem reprint_fixpoint_merging :
    let text : Text := ['A', '.', ' ', 'B', '\n', '\n', '1', ' ', '+', '\n', '\n', '1']
    (true = true → ∀ c ∈ text, isParenthesis c = false) ∧ ¬Blank text ∧
    reprint true (reprint true (reprint true text)) = reprint true (reprint true text) ∧
    ∃ words, words ≠ [] ∧ (Chain.full true).parse (reprint true (reprint true text)) =
      .composite none .document [.composite none .paragraph
        [.composite none .sentence (words.map lexemeNode)]] := by
  intro text
  have plain : true = true → ∀ c ∈ text, isParenthesis c = false := by simp [text, isParenthesis]
  have inked : ¬Blank text := by decide
  obtain ⟨same, oneSentence⟩ := reprint_fixpoint true text plain
  exact ⟨plain, inked, same, oneSentence inked⟩

theorem reprint_trim (evaluates : Bool) (text : Text) :
    reprint evaluates (trim text) = reprint evaluates text := by
  by_cases blank : Blank text
  · rw [trim_eq_nil_iff.mpr blank, reprint_blank blank, reprint_blank blank_nil]
  · obtain ⟨front, back, whole, blankFront, blankBack, -, -⟩ := exists_trim blank
    have cuts := cutsBlanks_paragraphSeparator
    have pieces : paragraphSeparator.pieces text = paragraphSeparator.pieces (trim text) := by
      conv_lhs => rw [whole]
      rw [cuts.pieces_append_blank blankBack, cuts.pieces_blank_append blankFront]
    rw [reprint_eq, reprint_eq, pieces]

/-- A line is rebuilt as it is from the second round on exactly when no expression that was
skipped in it has a value once its white space is written as spaces.  That is so for every
line whose white space may stand between tokens. -/
theorem reprint_line (text : Text) (noLineFeed : '\n' ∉ text)
    (plain : ∀ c ∈ text, isParenthesis c = false) :
    (reprint true (reprint true text) = reprint true text ↔
      ∀ skipped ∈ (reduce (trim text)).skipped, ∀ value,
        evaluate (spaced skipped.expression) ≠ .ok value) ∧
    ((∀ c ∈ text, isBlank c = true → isGap c = true) →
      reprint true (reprint true text) = reprint true text) := by
  have plainTrim : ∀ c ∈ trim text, isParenthesis c = false :=
    fun c member => plain c (mem_of_mem_trim member)
  have exactly : reprint true (reprint true text) = reprint true text ↔
      ∀ skipped ∈ (reduce (trim text)).skipped, ∀ value,
        evaluate (spaced skipped.expression) ≠ .ok value := by
    rw [← reprint_trim true text]
    by_cases blank : Blank text
    · rw [trim_eq_nil_iff.mpr blank, reprint_blank blank_nil, reprint_blank blank_nil]
      exact ⟨fun _ => skipped_of_gaps (by simp) (by simp), fun _ => rfl⟩
    · obtain ⟨-, -, -, -, -, starts, ends⟩ := exists_trim blank
      have one := oneParagraph_line starts ends fun member => noLineFeed (mem_of_mem_trim member)
      exact (one.reprint_reprint_iff plainTrim).trans (one.replaced_eq_nil_iff plainTrim)
  refine ⟨exactly, fun gaps => exactly.mpr (skipped_of_gaps plainTrim ?_)⟩
  exact fun c member => gaps c (mem_of_mem_trim member)

/-- A sum with a division by zero in it is skipped in every round. -/
theorem reprint_line_skipped :
    let text : Text := ['1', '\t', '/', '0', ' ', ' ', '+', '1', '.', '\r', 'A']
    '\n' ∉ text ∧ (∀ c ∈ text, isParenthesis c = false) ∧
    (∀ c ∈ text, isBlank c = true → isGap c = true) ∧
    reprint true (reprint true text) = reprint true text ∧
    ∀ skipped ∈ (reduce (trim text)).skipped, ∀ value,
      evaluate (spaced skipped.expression) ≠ .ok value := by
  intro text
  have noLineFeed : '\n' ∉ text := by decide
  have plain : ∀ c ∈ text, isParenthesis c = false := by simp [text, isParenthesis]
  have gaps : ∀ c ∈ text, isBlank c = true → isGap c = true := by
    rw [← List.all_iff_forall_prop]
    decide
  obtain ⟨exactly, always⟩ := reprint_line text noLineFeed plain
  exact ⟨noLineFeed, plain, gaps, always gaps, exactly.mp (always gaps)⟩

/-- With a no-break space in it a sum is skipped in the first round, and has a value in the
second, which has a space instead. -/
theorem reprint_line_noBreakSpace : ¬∀ text : Text, '\n' ∉ text →
    (∀ c ∈ text, isParenthesis c = false) →
    reprint true (reprint true text) = reprint true text := by
  intro always
  have same := always ['1', '\u00a0', '+', ' ', '1'] (by decide) (by simp [isParenthesis])
  have once : reprint true ['1', '\u00a0', '+', ' ', '1'] = ['1', ' ', '+', ' ', '1'] := by
    decide +kernel
  have twice : reprint true ['1', ' ', '+', ' ', '1'] = ['2', '.', '0'] := by decide +kernel
  rw [once, twice] at same
  contradiction

end ProseTree.Segmentation
