import ProseTree.Proofs.Segmentation.Conservation

namespace ProseTree.Segmentation

/-! The lexemes of a text: its runs of ink, whatever white space is around and between
them. -/

open Text

def IsWord (text : Text) : Prop := text ≠ [] ∧ ∀ c ∈ text, isBlank c = false

instance (text : Text) : Decidable (IsWord text) :=
  decidable_of_iff (text ≠ [] ∧ text.all (!isBlank ·) = true) (by simp [IsWord])

/-- The text is the words in order with white space around them and between them. -/
inductive Spaced : List Text → Text → Prop where
  | blank {blanks : Text} (blank : Blank blanks) : Spaced [] blanks
  | word {blanks word text : Text} {words : List Text} (blank : Blank blanks)
      (isWord : IsWord word) (stops : ¬StartsInked text) (rest : Spaced words text) :
      Spaced (word :: words) (blanks ++ (word ++ text))

variable {text word blanks : Text} {words : List Text} {c : Char}

theorem IsWord.startsInked (isWord : IsWord word) : StartsInked word :=
  startsInked_of_inked isWord.1 isWord.2

theorem IsWord.endsInked (isWord : IsWord word) : EndsInked word :=
  endsInked_of_inked isWord.1 isWord.2

theorem not_startsInked_append (blank : Blank blanks) (nonempty : blanks ≠ []) (text : Text) :
    ¬StartsInked (blanks ++ text) := by
  obtain ⟨c, rest, rfl⟩ := List.exists_cons_of_ne_nil nonempty
  rintro ⟨d, others, cut, inked⟩
  obtain ⟨rfl, -⟩ := List.cons.inj cut
  exact blank.not_mem inked List.mem_cons_self

theorem exists_word_front (starts : StartsInked text) :
    ∃ word rest, text = word ++ rest ∧ IsWord word ∧ ¬StartsInked rest := by
  obtain ⟨c, others, rfl, inked⟩ := starts
  obtain ⟨word, rest, whole, nonempty, holds, stops⟩ :=
    @exists_nonempty_run (c :: others) (!isBlank ·) (by simp [inked])
  refine ⟨word, rest, whole, ⟨nonempty, fun d member => by simpa using holds d member⟩, ?_⟩
  rintro ⟨d, behind, rfl, isInk⟩
  simp [isInk] at stops

theorem cutAfter_lexeme (before : Option Char) (text : Text) :
    cutAfter lexeme before text = cut lexeme text :=
  cutAfter_eq_cut (fun _ _ => rfl) before text

theorem lexemes_cons_blank (isBlank : isBlank c = true) (text : Text) :
    lexemes (c :: text) = lexemes text := by
  have nothing : lexeme none (c :: text) = 0 := by
    simp [lexeme, isBlank]
  rw [lexemes, cut, cutAfter, nothing]
  dsimp only
  rw [Segments.occurrences_push, cutAfter_lexeme, lexemes]

theorem lexemes_blank_append (blank : Blank blanks) (text : Text) :
    lexemes (blanks ++ text) = lexemes text := by
  induction blanks with
  | nil => rfl
  | cons c blanks ih =>
      obtain ⟨isBlank, blankRest⟩ := blank_cons.mp blank
      rw [List.cons_append, lexemes_cons_blank isBlank, ih blankRest]

theorem lexemes_blank (blank : Blank blanks) : lexemes blanks = [] := by
  have nothing := lexemes_blank_append blank []
  rw [List.append_nil] at nothing
  rw [nothing, lexemes, cut, cutAfter]
  rfl

theorem lexemes_word_append (isWord : IsWord word) (stops : ¬StartsInked text) :
    lexemes (word ++ text) = word :: lexemes text := by
  obtain ⟨nonempty, inked⟩ := isWord
  have run : (word ++ text).takeWhile (!isBlank ·) = word := by
    rw [List.takeWhile_append_of_pos fun c member => by simp [inked c member]]
    cases text with
    | nil => exact List.append_nil word
    | cons c rest =>
        have isBlank : isBlank c = true := by
          by_contra isInk
          exact stops ⟨c, rest, rfl, by simpa using isInk⟩
        rw [List.takeWhile_cons_of_neg (by simp [isBlank]), List.append_nil]
  obtain ⟨c, word, rfl⟩ := List.exists_cons_of_ne_nil nonempty
  have taken : lexeme none (c :: (word ++ text)) = word.length + 1 := by
    rw [lexeme, ← List.cons_append, run, List.length_cons]
  rw [lexemes, cut, List.cons_append, cutAfter, taken]
  dsimp only
  rw [Segments.occurrences, List.take_left, List.drop_left, cutAfter_lexeme, lexemes]

theorem Spaced.lexemes_eq (spaced : Spaced words text) : lexemes text = words := by
  induction spaced with
  | blank blank => exact lexemes_blank blank
  | word blank isWord stops rest ih =>
      rw [lexemes_blank_append blank, lexemes_word_append isWord stops, ih]

/-- Every text is its lexemes with white space around and between them. -/
theorem spaced_lexemes (text : Text) : Spaced (lexemes text) text := by
  induction length : text.length using Nat.strong_induction_on generalizing text with
  | h size ih =>
      obtain ⟨blanks, rest, rfl, blank, stops⟩ := exists_blank_front text
      rw [lexemes_blank_append blank]
      rcases stops with rfl | starts
      · rw [lexemes_blank blank_nil, List.append_nil]
        exact .blank blank
      · obtain ⟨word, behind, rfl, isWord, stops⟩ := exists_word_front starts
        rw [lexemes_word_append isWord stops]
        have positive := List.length_pos_iff.mpr isWord.1
        have shorter : behind.length < size := by
          simp only [List.length_append] at length
          omega
        exact .word blank isWord stops (ih behind.length shorter behind rfl)

theorem isWord_of_mem_lexemes (member : word ∈ lexemes text) : IsWord word := by
  have spaced := spaced_lexemes text
  generalize lexemes text = words at member spaced
  induction spaced with
  | blank blank => contradiction
  | word blank isWord stops rest ih =>
      rcases List.mem_cons.mp member with rfl | later
      · exact isWord
      · exact ih later

theorem lexemes_eq_iff : lexemes text = words ↔ Spaced words text :=
  ⟨fun same => same ▸ spaced_lexemes text, Spaced.lexemes_eq⟩

theorem lexemes_eq_nil_iff : lexemes text = [] ↔ Blank text := by
  rw [lexemes_eq_iff]
  constructor
  · rintro ⟨blank⟩
    exact blank
  · exact .blank

theorem lexemes_word (isWord : IsWord word) : lexemes word = [word] := by
  have alone := @lexemes_word_append [] word isWord (by simp [StartsInked])
  rwa [List.append_nil, lexemes_blank blank_nil] at alone

/-- Two words with white space between them are two lexemes. -/
theorem lexemes_word_blank_append (isWord : IsWord word) (blank : Blank blanks)
    (nonempty : blanks ≠ []) (text : Text) :
    lexemes (word ++ blanks ++ text) = word :: lexemes text := by
  rw [List.append_assoc, lexemes_word_append isWord (not_startsInked_append blank nonempty text),
    lexemes_blank_append blank]

/-- A word directly in front of a text grows together with its first word. -/
theorem lexemes_word_append_inked (isWord : IsWord word) (starts : StartsInked text) :
    ∃ first others, IsWord first ∧ lexemes text = first :: others ∧
      lexemes (word ++ text) = (word ++ first) :: others := by
  obtain ⟨first, rest, rfl, isFirst, stops⟩ := exists_word_front starts
  have joined : IsWord (word ++ first) := by
    refine ⟨by simp [isWord.1], fun c member => ?_⟩
    rcases List.mem_append.mp member with front | back
    · exact isWord.2 c front
    · exact isFirst.2 c back
  refine ⟨first, lexemes rest, isFirst, lexemes_word_append isFirst stops, ?_⟩
  rw [← List.append_assoc, lexemes_word_append joined stops]

/-- A text that begins and ends with ink is one word, or a word with white space and such
a text behind it. -/
theorem words_induction {P : List Text → Text → Prop}
    (last : ∀ word, IsWord word → P [word] word)
    (more : ∀ word blanks text, IsWord word → Blank blanks → blanks ≠ [] → StartsInked text →
      P (lexemes text) text → P (word :: lexemes text) (word ++ blanks ++ text))
    (text : Text) (starts : StartsInked text) (ends : EndsInked text) :
    P (lexemes text) text := by
  induction length : text.length using Nat.strong_induction_on generalizing text with
  | h size ih =>
      obtain ⟨word, rest, rfl, isWord, stops⟩ := exists_word_front starts
      obtain ⟨blanks, others, rfl, blank, startsOthers⟩ := exists_blank_front rest
      rcases startsOthers with rfl | startsOthers
      · have noBlanks : blanks = [] := by
          by_contra nonempty
          rw [List.append_nil] at ends
          exact (ends.of_append nonempty).not_blank blank
        rw [noBlanks, List.append_nil, List.append_nil, lexemes_word isWord]
        exact last word isWord
      · have apart : blanks ≠ [] := by
          rintro rfl
          exact stops startsOthers
        obtain ⟨c, behind, cut, -⟩ := id startsOthers
        have endsOthers : EndsInked others := by
          rw [← List.append_assoc] at ends
          exact ends.of_append (by simp [cut])
        have positive := List.length_pos_iff.mpr isWord.1
        have shorter : others.length < size := by
          simp only [List.length_append] at length
          omega
        rw [← List.append_assoc, lexemes_word_blank_append isWord blank apart]
        exact more word blanks others isWord blank apart startsOthers
          (ih others.length shorter others startsOthers endsOthers rfl)

end ProseTree.Segmentation
