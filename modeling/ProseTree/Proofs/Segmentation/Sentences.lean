import Mathlib.Data.List.SplitBy
import ProseTree.Proofs.Segmentation.BlankCut
import ProseTree.Proofs.Segmentation.Words

namespace ProseTree.Segmentation

/-! The sentences of a text are the groups of its lexemes: a sentence goes on from lexeme
to lexeme unless the one ends and the next begins a sentence. -/

open Text

def endsSentence (word : Text) : Bool := word.getLast?.any isTerminator

def beginsSentence (word : Text) : Bool := word.head?.any isOpener

/-- Whether the next word belongs to the sentence of the word. -/
def goesOn (word next : Text) : Bool := !(endsSentence word && beginsSentence next)

variable {before : Option Char} {text right blanks word next : Text} {c : Char}

theorem sentenceGap_eq (before : Option Char) (text : Text) :
    sentenceGap before text =
      if before.any isTerminator && (text.dropWhile isBlank).head?.any isOpener then
        (text.takeWhile isBlank).length
      else 0 := by
  have behind : text.drop (text.takeWhile isBlank).length = text.dropWhile isBlank := by
    have dropped := @List.drop_left Char (text.takeWhile isBlank) (text.dropWhile isBlank)
    rwa [List.takeWhile_append_dropWhile] at dropped
  simp only [sentenceGap, behind]
  cases before.any isTerminator with
  | false => rfl
  | true =>
      cases text.dropWhile isBlank with
      | nil => rfl
      | cons c rest => rfl

theorem cutsBlanks_sentenceGap : sentenceGap.CutsBlanks where
  within before text := by
    rw [sentenceGap_eq]
    split
    · exact Nat.le_refl _
    · exact Nat.zero_le _
  sees before text rest inked := by
    obtain ⟨blanks, others, rfl, blank, stops⟩ := exists_blank_front text
    obtain ⟨c, others, rfl, isInk⟩ : StartsInked others := by
      rcases stops with rfl | starts
      · obtain ⟨c, member, isInk⟩ := inked
        rw [List.append_nil] at member
        exact absurd member (blank.not_mem isInk)
      · exact starts
    have notBlank : ¬isBlank c = true := by simp [isInk]
    rw [sentenceGap_eq, sentenceGap_eq, takeWhile_append_of_ink inked, List.append_assoc,
      List.dropWhile_append_of_pos blank, List.dropWhile_append_of_pos blank, List.cons_append,
      List.dropWhile_cons_of_neg notBlank, List.dropWhile_cons_of_neg notBlank]
    rfl

theorem isTerminator_cases (terminates : isTerminator c = true) :
    c = '.' ∨ c = '!' ∨ c = '?' ∨ c = '…' := by
  simpa [isTerminator, or_assoc] using terminates

theorem not_isBlank_of_isTerminator (terminates : isTerminator c = true) : isBlank c = false := by
  rcases isTerminator_cases terminates with rfl | rfl | rfl | rfl <;> decide

theorem not_isTerminator_of_isBlank (blank : isBlank c = true) : isTerminator c = false :=
  apart_comm not_isBlank_of_isTerminator blank

theorem toNat_of_isOpener (opens : isOpener c = true) :
    65 ≤ c.toNat ∧ c.toNat ≤ 90 ∨ 1025 ≤ c.toNat ∧ c.toNat ≤ 1071 := by
  simp only [isOpener, Bool.or_eq_true, Bool.and_eq_true, decide_eq_true_eq, beq_iff_eq] at opens
  rcases opens with (latin | russian) | rfl
  · exact .inl ⟨latin.1, latin.2⟩
  · have bounds : 1040 ≤ c.toNat ∧ c.toNat ≤ 1071 := ⟨russian.1, russian.2⟩
    omega
  · decide

theorem not_isBlank_of_isOpener (opens : isOpener c = true) : isBlank c = false := by
  have code := toNat_of_isOpener opens
  simp only [isBlank, Bool.or_eq_false_iff, Bool.and_eq_false_iff, decide_eq_false_iff_not,
    beq_eq_false_iff_ne]
  omega

theorem not_isOpener_of_isTerminator (terminates : isTerminator c = true) : isOpener c = false := by
  rcases isTerminator_cases terminates with rfl | rfl | rfl | rfl <;> decide

theorem not_isTerminator_of_isOpener (opens : isOpener c = true) : isTerminator c = false :=
  apart_comm not_isOpener_of_isTerminator opens

theorem takesOf_sentenceGap (before : Option Char) (blank : Blank blanks)
    (stops : right = [] ∨ StartsInked right) :
    sentenceGap.TakesOf right before blanks ↔
      blanks ≠ [] ∧ before.any isTerminator = true ∧ right.head?.any isOpener = true := by
  induction blanks generalizing before with
  | nil => simp [Rule.TakesOf]
  | cons c blanks ih =>
      obtain ⟨isBlank, blankRest⟩ := blank_cons.mp blank
      have behind : (c :: (blanks ++ right)).dropWhile Text.isBlank = right := by
        rw [← List.cons_append, List.dropWhile_append_of_pos blank]
        rcases stops with rfl | ⟨d, rest, rfl, inked⟩
        · rfl
        · exact List.dropWhile_cons_of_neg (by simp [inked])
      have some : ((c :: (blanks ++ right)).takeWhile Text.isBlank).length ≠ 0 := by
        rw [List.takeWhile_cons_of_pos isBlank]
        simp
      rw [Rule.TakesOf, ih _ blankRest, sentenceGap_eq, behind, Option.any_some,
        not_isTerminator_of_isBlank isBlank]
      simp [some]

/-- A related element in front of a list joins the first group. -/
theorem splitBy_cons_cons {α : Type} {r : α → α → Bool} {a b : α} {rest group : List α}
    {groups : List (List α)} (related : r a b = true)
    (split : (b :: rest).splitBy r = group :: groups) :
    (a :: b :: rest).splitBy r = (a :: group) :: groups := by
  obtain ⟨whole, nonempty, chains, between⟩ := List.splitBy_eq_iff.mp split
  obtain ⟨c, group, rfl⟩ : ∃ c more, group = c :: more := by
    apply List.exists_cons_of_ne_nil
    rintro rfl
    simp at nonempty
  obtain ⟨rfl, -⟩ := List.cons.inj whole
  obtain ⟨chain, chains⟩ := List.forall_mem_cons.mp chains
  rw [List.isChain_cons] at between
  refine List.splitBy_eq_iff.mpr ⟨?_, ?_, ?_, ?_⟩
  · rw [whole]
    rfl
  · simpa using nonempty
  · exact List.forall_mem_cons.mpr ⟨List.isChain_cons_cons.mpr ⟨related, chain⟩, chains⟩
  · refine List.isChain_cons.mpr ⟨fun other member => ?_, between.2⟩
    obtain ⟨isGroup, isOther, unrelated⟩ := between.1 other member
    exact ⟨List.cons_ne_nil _ _, isOther, by simpa [List.getLast_cons isGroup] using unrelated⟩

/-- An unrelated element in front of a list is a group by itself. -/
theorem splitBy_cons_apart {α : Type} {r : α → α → Bool} {a b : α} (unrelated : r a b = false)
    (rest : List α) : (a :: b :: rest).splitBy r = [a] :: (b :: rest).splitBy r :=
  @List.splitBy_append_cons α r [a] b rest (by simpa using unrelated)

theorem goesOn_eq_false_iff : goesOn word next = false ↔
    endsSentence word = true ∧ beginsSentence next = true := by
  simp [goesOn]

/-- The lexemes of the sentences are the lexemes of the text, grouped. -/
theorem lexemes_sentences (text : Text) :
    (sentenceGap.pieces text).map lexemes = (lexemes text).splitBy goesOn := by
  have cuts := cutsBlanks_sentenceGap
  have spaced := spaced_lexemes text
  generalize lexemes text = words at spaced
  induction spaced with
  | blank blank =>
      rw [Rule.pieces_blank blank]
      rfl
  | @word blanks word text words blank isWord stops rest ih =>
      rw [cuts.pieces_blank_append blank]
      cases rest with
      | blank blankBack =>
          rw [cuts.pieces_append_blank blankBack, cuts.pieces_inked isWord.1 isWord.2,
            List.map_singleton, lexemes_word isWord]
          rfl
      | @word gap next behind words blankGap isNext stopsNext restNext =>
          have apart : gap ≠ [] := by
            rintro rfl
            exact stops (isNext.startsInked.append behind)
          have starts := isNext.startsInked.append behind
          have first : (next ++ behind).head?.any isOpener = beginsSentence next := by
            obtain ⟨c, others, rfl⟩ := List.exists_cons_of_ne_nil isNext.1
            rfl
          have takes := takesOf_sentenceGap word.getLast? blankGap (.inr starts)
          rw [first] at takes
          rw [cuts.pieces_blank_append blankGap] at ih
          rw [← List.append_assoc]
          cases related : goesOn word next with
          | false =>
              have boundary := goesOn_eq_false_iff.mp related
              rw [cuts.pieces_taken isWord.endsInked starts blankGap (takes.mpr ⟨apart, boundary⟩),
                List.map_append, ih, cuts.pieces_inked isWord.1 isWord.2, List.map_singleton,
                lexemes_word isWord]
              exact (splitBy_cons_apart related words).symm
          | true =>
              have untaken : ¬sentenceGap.TakesOf (next ++ behind) word.getLast? gap := by
                rw [takes]
                rintro ⟨-, boundary⟩
                rw [goesOn_eq_false_iff.mpr boundary] at related
                contradiction
              obtain ⟨front, last, first, others, inWord, inNext, together⟩ :=
                cuts.pieces_untaken isWord.endsInked starts untaken
              rw [cuts.pieces_inked isWord.1 isWord.2] at inWord
              obtain ⟨rfl, rfl⟩ : front = [] ∧ last = word := by
                cases front with
                | nil => exact ⟨rfl, (List.cons.inj inWord).1.symm⟩
                | cons piece front => simp at inWord
              rw [inNext, List.map_cons] at ih
              rw [together, List.nil_append, List.map_cons,
                lexemes_word_blank_append isWord blankGap apart]
              exact (splitBy_cons_cons related ih.symm).symm

end ProseTree.Segmentation
