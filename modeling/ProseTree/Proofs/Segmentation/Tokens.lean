import ProseTree.Proofs.Expression.Calculation
import ProseTree.Proofs.Segmentation.Typesetting

namespace ProseTree.Segmentation

/-! The leaves of a lexeme.

What the leaves are can be said without the search for words: by what each leaf may hold and
by what may stand next to what.  No other leaves of the same text keep to this, so the leaves
are as long as the rule for words can make them. -/

open Text Expression

/-- Digits with a point between them. -/
def IsDecimal (text : Text) : Prop :=
  ∃ whole fraction, text = whole ++ '.' :: fraction ∧ Digits whole ∧ Digits fraction

/-- Word characters, at least one. -/
structure IsRun (text : Text) : Prop where
  nonempty : text ≠ []
  wordChar : ∀ c ∈ text, isWordChar c = true

/-- No word character, but text. -/
structure IsPunctuation (text : Text) : Prop where
  nonempty : text ≠ []
  noWordChar : ∀ c ∈ text, isWordChar c = false

abbrev wordLeaf (text : Text) : Node := .leaf none .word text

abbrev punctuationLeaf (text : Text) : Node := .leaf none .punctuation text

/-- The leaves of a text without white space: what they are, and what stands next to what. -/
structure Tokenizes (text : Text) (leaves : List Node) : Prop where
  whole : (Node.leafTextsAll leaves).flatten = text
  leaf : ∀ node ∈ leaves, ∃ own, node = wordLeaf own ∨ node = punctuationLeaf own
  punctuation : ∀ own, punctuationLeaf own ∈ leaves → IsPunctuation own
  word : ∀ own, wordLeaf own ∈ leaves → IsDecimal own ∨ IsRun own
  /-- Punctuation is not parted. -/
  apart : ∀ own next, ¬[punctuationLeaf own, punctuationLeaf next] <:+: leaves
  /-- Only a decimal has a word directly behind it, and that goes on with no digit. -/
  adjacent : ∀ own next, [wordLeaf own, wordLeaf next] <:+: leaves →
    IsDecimal own ∧ next.head?.any isDigit = false
  /-- A decimal is not parted at its point. -/
  point : ∀ own next, [wordLeaf own, punctuationLeaf ['.'], wordLeaf next] <:+: leaves →
    Digits own → next.head?.any isDigit = false

/-- A word with what is behind it, so that the search takes the word and no more. -/
inductive TakesWord : Text → Text → Prop where
  | decimal {own rest : Text} (isDecimal : IsDecimal own)
      (stops : rest.head?.any isDigit = false) : TakesWord own rest
  | run {own rest : Text} (isRun : IsRun own) (stops : startsWord rest = false)
      (noFraction : Digits own → fractionLength rest = 0) : TakesWord own rest

/-- A leaf with its text and what is behind it, so that the leaf is the first one. -/
inductive Leads : Node → Text → Text → Prop where
  | word {own rest : Text} (takes : TakesWord own rest) : Leads (wordLeaf own) own rest
  | punctuation {own rest : Text} (isPunctuation : IsPunctuation own)
      (stops : rest = [] ∨ startsWord rest = true) : Leads (punctuationLeaf own) own rest

variable {text own rest run behind gap : Text} {leaf : Node} {leaves : List Node} {c : Char}

theorem isWordChar_point : isWordChar '.' = false := by decide

theorem wholeLength_of_fractionLength (none : fractionLength ('.' :: text) = 0) :
    wholeLength text = 0 := by
  by_contra some
  rw [fractionLength, if_neg some] at none
  contradiction

theorem wholeLength_point (text : Text) : wholeLength ('.' :: text) = 0 :=
  wholeLength_eq_zero_iff.mpr isDigit_point

theorem startsWord_append (nonempty : own ≠ []) (rest : Text) :
    startsWord (own ++ rest) = startsWord own := by
  rw [startsWord_eq, List.head?_append_of_ne_nil own nonempty, startsWord_eq]

theorem isRun_of_digits (digits : Digits run) : IsRun run :=
  ⟨digits.nonempty, fun c member => isWordChar_of_isDigit (digits.digit c member)⟩

theorem IsRun.startsWord (isRun : IsRun own) : startsWord own = true := by
  obtain ⟨c, own, rfl⟩ := List.exists_cons_of_ne_nil isRun.nonempty
  exact isRun.wordChar c List.mem_cons_self

theorem IsRun.takeWhile (isRun : IsRun own) (stops : Expression.startsWord rest = false) :
    (own ++ rest).takeWhile isWordChar = own := by
  rw [List.takeWhile_append_of_pos isRun.wordChar]
  cases rest with
  | nil => exact List.append_nil own
  | cons c rest => rw [List.takeWhile_cons_of_neg (by simpa [Expression.startsWord] using stops),
      List.append_nil]

theorem IsDecimal.point_mem (isDecimal : IsDecimal own) : '.' ∈ own := by
  obtain ⟨whole, fraction, rfl, -, -⟩ := isDecimal
  exact List.mem_append_right whole List.mem_cons_self

theorem IsDecimal.not_isRun (isDecimal : IsDecimal own) : ¬IsRun own := by
  intro isRun
  exact absurd (isRun.wordChar '.' isDecimal.point_mem) (by decide)

theorem IsDecimal.startsWord (isDecimal : IsDecimal own) : startsWord own = true := by
  obtain ⟨whole, fraction, rfl, digits, -⟩ := isDecimal
  rw [startsWord_append digits.nonempty]
  exact (isRun_of_digits digits).startsWord

theorem IsPunctuation.startsWord (isPunctuation : IsPunctuation own) : startsWord own = false := by
  obtain ⟨c, own, rfl⟩ := List.exists_cons_of_ne_nil isPunctuation.nonempty
  exact isPunctuation.noWordChar c List.mem_cons_self

/-- Punctuation in front of a fraction is the point alone. -/
theorem IsPunctuation.eq_point (isPunctuation : IsPunctuation own) (digits : Digits run)
    (whole : own ++ rest = '.' :: (run ++ behind)) : own = ['.'] ∧ rest = run ++ behind := by
  obtain ⟨c, own, rfl⟩ := List.exists_cons_of_ne_nil isPunctuation.nonempty
  obtain ⟨rfl, inner⟩ := List.cons.inj whole
  cases own with
  | nil => exact ⟨rfl, inner⟩
  | cons d own =>
      have noWord := isPunctuation.noWordChar d (by simp)
      have starts := (isRun_of_digits digits).startsWord
      rw [← startsWord_append digits.nonempty behind, ← inner] at starts
      exact absurd (starts.symm.trans noWord) Bool.noConfusion

theorem word_eq (before : Option Char) (text : Text) : word before text =
    if wholeLength text ≠ 0 ∧ fractionLength (text.drop (wholeLength text)) ≠ 0 then
      wholeLength text + fractionLength (text.drop (wholeLength text))
    else (text.takeWhile isWordChar).length := by
  unfold word fractionLength wholeLength
  dsimp only
  generalize text.drop (text.takeWhile isDigit).length = rest
  split
  · rename_i behind
    by_cases none : (behind.takeWhile isDigit).length = 0
    · simp only [none, if_true, ne_eq, not_true_eq_false, and_false, if_false]
    · simp only [none, if_false, ne_eq, Nat.succ_ne_zero, not_false_eq_true, and_true,
        Nat.add_assoc, Nat.add_comm 1]
  · simp only [ne_eq, not_true_eq_false, and_false, if_false]

theorem word_eq_zero (noWord : isWordChar c = false) (before : Option Char) (rest : Text) :
    word before (c :: rest) = 0 := by
  rw [word_eq, if_neg, List.takeWhile_cons_of_neg (by simp [noWord]), List.length_nil]
  exact fun decimal => decimal.1 (wholeLength_of_noWord noWord)

theorem TakesWord.nonempty (takes : TakesWord own rest) : own ≠ [] := by
  cases takes with
  | decimal isDecimal stops => exact List.ne_nil_of_mem isDecimal.point_mem
  | run isRun stops noFraction => exact isRun.nonempty

theorem TakesWord.isDecimal_or_isRun (takes : TakesWord own rest) :
    IsDecimal own ∨ IsRun own := by
  cases takes with
  | decimal isDecimal stops => exact .inl isDecimal
  | run isRun stops noFraction => exact .inr isRun

theorem TakesWord.word_eq (takes : TakesWord own rest) (before : Option Char) :
    word before (own ++ rest) = own.length := by
  cases takes with
  | decimal isDecimal stops =>
      obtain ⟨whole, fraction, rfl, digits, behind⟩ := isDecimal
      have length := wholeLength_append digits.digit (wholeLength_point (fraction ++ rest))
      have fractionLength := fractionLength_point behind (wholeLength_eq_zero_iff.mpr stops)
      have positive := List.length_pos_iff.mpr digits.nonempty
      rw [Segmentation.word_eq, List.append_assoc, List.cons_append, length, List.drop_left,
        fractionLength, if_pos (by omega), List.length_append, List.length_cons]
  | run isRun stops noFraction =>
      rw [Segmentation.word_eq, if_neg, isRun.takeWhile stops]
      rintro ⟨some, more⟩
      obtain ⟨run, behind, whole, digits, noDigit⟩ := exists_digits (own ++ rest)
      rw [whole] at some more
      have isDigits := Digits.of_ne_zero digits noDigit some
      rw [wholeLength_append digits noDigit, List.drop_left] at more
      have pointed : Expression.startsWord behind = false := by
        obtain ⟨fraction, further, rfl, -, -⟩ := exists_fraction more
        exact isWordChar_point
      -- Both are the word characters at the head of the text.
      have same : own = run := by
        rw [← isRun.takeWhile stops, whole, (isRun_of_digits isDigits).takeWhile pointed]
      subst same
      rw [List.append_cancel_left whole] at noFraction
      exact more (noFraction isDigits)

theorem exists_takesWord (starts : startsWord text = true) :
    ∃ own rest, text = own ++ rest ∧ TakesWord own rest := by
  obtain ⟨run, rest, rfl, digits, stops⟩ := exists_digits text
  by_cases decimal : wholeLength (run ++ rest) ≠ 0 ∧ fractionLength rest ≠ 0
  · obtain ⟨fraction, behind, rfl, isFraction, noDigit⟩ := exists_fraction decimal.2
    refine ⟨run ++ '.' :: fraction, behind, by simp, .decimal ?_ ?_⟩
    · exact ⟨run, fraction, rfl, .of_ne_zero digits stops decimal.1, isFraction⟩
    · exact wholeLength_eq_zero_iff.mp noDigit
  · rw [startsWord_eq] at starts
    obtain ⟨own, behind, whole, nonempty, wordChar, noWord⟩ := exists_nonempty_run starts
    rw [← startsWord_eq] at noWord
    refine ⟨own, behind, whole, .run ⟨nonempty, wordChar⟩ noWord fun isDigits => ?_⟩
    -- Where all the word characters are digits, they are the digits there are.
    have length := wholeLength_append isDigits.digit (wholeLength_of_noWord noWord)
    rw [← whole, wholeLength_append digits stops] at length
    obtain ⟨rfl, rfl⟩ := List.append_inj whole length
    by_contra some
    exact decimal ⟨isDigits.ne_zero rest, some⟩

theorem exists_punctuation (nonempty : text ≠ []) (noWord : startsWord text = false) :
    ∃ own rest, text = own ++ rest ∧ IsPunctuation own ∧ (rest = [] ∨ startsWord rest = true) := by
  obtain ⟨c, others, rfl⟩ := List.exists_cons_of_ne_nil nonempty
  have starts : (c :: others).head?.any (!isWordChar ·) = true := by
    simpa [startsWord] using noWord
  obtain ⟨own, rest, whole, some, holds, stops⟩ := exists_nonempty_run starts
  refine ⟨own, rest, whole, ⟨some, fun d member => by simpa using holds d member⟩, ?_⟩
  cases rest with
  | nil => exact .inl rfl
  | cons d rest => exact .inr (by simpa [startsWord] using stops)

theorem exists_leads (nonempty : text ≠ []) :
    ∃ leaf own rest, text = own ++ rest ∧ Leads leaf own rest := by
  cases starts : startsWord text with
  | true =>
      obtain ⟨own, rest, whole, takes⟩ := exists_takesWord starts
      exact ⟨_, own, rest, whole, .word takes⟩
  | false =>
      obtain ⟨own, rest, whole, isPunctuation, stops⟩ := exists_punctuation nonempty starts
      exact ⟨_, own, rest, whole, .punctuation isPunctuation stops⟩

theorem Leads.nonempty (leads : Leads leaf own rest) : own ≠ [] := by
  cases leads with
  | word takes => exact takes.nonempty
  | punctuation isPunctuation stops => exact isPunctuation.nonempty

theorem cutAfter_word (before : Option Char) (text : Text) :
    cutAfter word before text = cut word text :=
  cutAfter_eq_cut (fun _ _ => rfl) before text

theorem cut_word_cons (noWord : isWordChar c = false) (text : Text) :
    cut word (c :: text) = (cut word text).push c := by
  rw [cut, cutAfter, word_eq_zero noWord]
  dsimp only
  rw [cutAfter_word]

theorem cut_word_gap (noWord : ∀ c ∈ gap, isWordChar c = false) : cut word gap = .last gap := by
  induction gap with
  | nil => rw [cut, cutAfter]
  | cons c gap ih =>
      obtain ⟨here, later⟩ := List.forall_mem_cons.mp noWord
      rw [cut_word_cons here, ih later, Segments.push]

theorem cut_word_append (noWord : ∀ c ∈ gap, isWordChar c = false) (takes : TakesWord own rest) :
    cut word (gap ++ (own ++ rest)) = .found gap own (cut word rest) := by
  induction gap with
  | nil =>
      obtain ⟨c, own, rfl⟩ := List.exists_cons_of_ne_nil takes.nonempty
      have taken := takes.word_eq none
      rw [List.cons_append, List.length_cons] at taken
      rw [List.nil_append, cut, List.cons_append, cutAfter, taken]
      dsimp only
      rw [List.take_left, List.drop_left, cutAfter_word]
  | cons c gap ih =>
      obtain ⟨here, later⟩ := List.forall_mem_cons.mp noWord
      rw [List.cons_append, cut_word_cons here, ih later, Segments.push]

theorem lexemeLeaves_word (takes : TakesWord own rest) :
    lexemeLeaves (cut word (own ++ rest)) = wordLeaf own :: lexemeLeaves (cut word rest) := by
  have found := cut_word_append (List.forall_mem_nil _) takes
  rw [List.nil_append] at found
  rw [found]
  rfl

theorem lexemeLeaves_append (leads : Leads leaf own rest)
    (inked : ∀ c ∈ own, isBlank c = false) :
    lexemeLeaves (cut word (own ++ rest)) = leaf :: lexemeLeaves (cut word rest) := by
  cases leads with
  | word takes => exact lexemeLeaves_word takes
  | punctuation isPunctuation stops =>
      have leaf := gapLeaf_of_inked isPunctuation.nonempty inked
      have noWord := isPunctuation.noWordChar
      rcases stops with rfl | starts
      · rw [List.append_nil, cut_word_gap noWord, cut_word_gap (List.forall_mem_nil _),
          lexemeLeaves, leaf]
        rfl
      · obtain ⟨first, behind, rfl, takes⟩ := exists_takesWord starts
        rw [cut_word_append noWord takes, lexemeLeaves_word takes, lexemeLeaves, leaf]
        rfl

theorem infix_cons {first : Node} {others : List Node} :
    first :: others <:+: leaf :: leaves ↔
      (first = leaf ∧ others <+: leaves) ∨ first :: others <:+: leaves := by
  rw [List.infix_cons_iff, List.cons_prefix_cons]

theorem tokenizes_nil : Tokenizes text [] ↔ text = [] := by
  constructor
  · intro tokenizes
    exact tokenizes.whole.symm
  · rintro rfl
    constructor <;> simp [Node.leafTextsAll]

/-- The leaves behind the first one are the leaves of the text behind it. -/
theorem Tokenizes.tail (tokenizes : Tokenizes text (leaf :: leaves)) :
    Tokenizes (Node.leafTextsAll leaves).flatten leaves where
  whole := rfl
  leaf other member := tokenizes.leaf other (List.mem_cons_of_mem leaf member)
  punctuation own member := tokenizes.punctuation own (List.mem_cons_of_mem leaf member)
  word own member := tokenizes.word own (List.mem_cons_of_mem leaf member)
  apart own next within := tokenizes.apart own next (List.infix_cons within)
  adjacent own next within := tokenizes.adjacent own next (List.infix_cons within)
  point own next within := tokenizes.point own next (List.infix_cons within)

theorem Tokenizes.word_head (tokenizes : Tokenizes text (wordLeaf own :: leaves)) :
    startsWord text = true ∧ text.head? = own.head? := by
  have starts : startsWord own = true :=
    (tokenizes.word own List.mem_cons_self).elim (·.startsWord) (·.startsWord)
  have nonempty : own ≠ [] := by
    rintro rfl
    contradiction
  rw [← tokenizes.whole]
  exact ⟨(startsWord_append nonempty _).trans starts, List.head?_append_of_ne_nil own nonempty⟩

theorem Tokenizes.punctuation_head (tokenizes : Tokenizes text (punctuationLeaf own :: leaves)) :
    text ≠ [] ∧ startsWord text = false := by
  have isPunctuation := tokenizes.punctuation own List.mem_cons_self
  rw [← tokenizes.whole]
  refine ⟨List.append_ne_nil_of_left_ne_nil isPunctuation.nonempty _, ?_⟩
  exact (startsWord_append isPunctuation.nonempty _).trans isPunctuation.startsWord

theorem Tokenizes.cases (tokenizes : Tokenizes text leaves) : leaves = [] ∨
    ∃ own more, leaves = wordLeaf own :: more ∨ leaves = punctuationLeaf own :: more := by
  cases leaves with
  | nil => exact .inl rfl
  | cons node more =>
      obtain ⟨own, rfl | rfl⟩ := tokenizes.leaf node List.mem_cons_self
      · exact .inr ⟨own, more, .inl rfl⟩
      · exact .inr ⟨own, more, .inr rfl⟩

/-- Behind a word of digits, punctuation does not begin with the point of a fraction. -/
theorem Tokenizes.fractionLength_behind {mark : Text} (digits : Digits own)
    (tokenizes : Tokenizes text (wordLeaf own :: punctuationLeaf mark :: leaves)) :
    fractionLength (Node.leafTextsAll (punctuationLeaf mark :: leaves)).flatten = 0 := by
  by_contra some
  obtain ⟨fraction, further, pointed, isFraction, -⟩ := exists_fraction some
  have isPunctuation := tokenizes.tail.punctuation mark List.mem_cons_self
  obtain ⟨rfl, behind⟩ := isPunctuation.eq_point isFraction pointed
  have tail : Tokenizes (fraction ++ further) leaves := behind ▸ tokenizes.tail.tail
  obtain rfl | ⟨next, more, rfl | rfl⟩ := tail.cases
  · exact absurd (List.append_eq_nil_iff.mp behind.symm).1 isFraction.nonempty
  · have noDigit := tokenizes.point own next (List.prefix_append _ more).isInfix digits
    rw [← tail.word_head.2] at noDigit
    exact isFraction.ne_zero further (wholeLength_eq_zero_iff.mpr noDigit)
  · exact absurd (List.prefix_append _ more).isInfix (tokenizes.tail.apart _ next)

/-- What the leaves behind a word leave for the search. -/
theorem Tokenizes.takesWord (tokenizes : Tokenizes text (wordLeaf own :: leaves)) :
    TakesWord own (Node.leafTextsAll leaves).flatten := by
  have tail := tokenizes.tail
  rcases tokenizes.word own List.mem_cons_self with isDecimal | isRun
  · refine .decimal isDecimal ?_
    obtain rfl | ⟨next, more, rfl | rfl⟩ := tail.cases
    · rfl
    · rw [tail.word_head.2]
      exact (tokenizes.adjacent own next (List.prefix_append _ more).isInfix).2
    · exact wholeLength_eq_zero_iff.mp (wholeLength_of_noWord tail.punctuation_head.2)
  · obtain rfl | ⟨next, more, rfl | rfl⟩ := tail.cases
    · exact .run isRun rfl fun _ => rfl
    · have adjacent := tokenizes.adjacent own next (List.prefix_append _ more).isInfix
      exact absurd isRun adjacent.1.not_isRun
    · exact .run isRun tail.punctuation_head.2 (tokenizes.fractionLength_behind ·)

theorem Tokenizes.leads (tokenizes : Tokenizes text (leaf :: leaves)) :
    ∃ own rest, text = own ++ rest ∧ Leads leaf own rest ∧ Tokenizes rest leaves := by
  have tail := tokenizes.tail
  obtain ⟨own, rfl | rfl⟩ := tokenizes.leaf leaf List.mem_cons_self
  · exact ⟨own, _, tokenizes.whole.symm, .word tokenizes.takesWord, tail⟩
  · have isPunctuation := tokenizes.punctuation own List.mem_cons_self
    refine ⟨own, _, tokenizes.whole.symm, .punctuation isPunctuation ?_, tail⟩
    obtain rfl | ⟨next, more, rfl | rfl⟩ := tail.cases
    · exact .inl rfl
    · exact .inr tail.word_head.1
    · exact absurd (List.prefix_append _ more).isInfix (tokenizes.apart own next)

theorem Leads.tokenizes (leads : Leads leaf own rest) (tokenizes : Tokenizes rest leaves) :
    Tokenizes (own ++ rest) (leaf :: leaves) := by
  constructor
  case whole => cases leads <;> exact congrArg (own ++ ·) tokenizes.whole
  case leaf =>
    refine List.forall_mem_cons.mpr ⟨?_, tokenizes.leaf⟩
    cases leads with
    | word takes => exact ⟨own, .inl rfl⟩
    | punctuation isPunctuation stops => exact ⟨own, .inr rfl⟩
  case punctuation =>
    intro other member
    rcases List.mem_cons.mp member with rfl | later
    · cases leads with
      | punctuation isPunctuation stops => exact isPunctuation
    · exact tokenizes.punctuation other later
  case word =>
    intro other member
    rcases List.mem_cons.mp member with rfl | later
    · cases leads with
      | word takes => exact takes.isDecimal_or_isRun
    · exact tokenizes.word other later
  case apart =>
    intro other next within
    rcases infix_cons.mp within with ⟨rfl, more, rfl⟩ | later
    · cases leads with
      | punctuation isPunctuation stops =>
          obtain ⟨nonempty, noWord⟩ := tokenizes.punctuation_head
          simp [nonempty, noWord] at stops
    · exact tokenizes.apart other next later
  case adjacent =>
    intro other next within
    rcases infix_cons.mp within with ⟨rfl, more, rfl⟩ | later
    · cases leads with
      | word takes =>
          obtain ⟨starts, head⟩ := tokenizes.word_head
          cases takes with
          | decimal isDecimal stops => exact ⟨isDecimal, head ▸ stops⟩
          | run isRun stops noFraction => exact absurd (starts.symm.trans stops) Bool.noConfusion
    · exact tokenizes.adjacent other next later
  case point =>
    intro other next within digits
    rcases infix_cons.mp within with ⟨rfl, more, rfl⟩ | later
    · cases leads with
      | word takes =>
          cases takes with
          | decimal isDecimal stops => exact absurd (isRun_of_digits digits) isDecimal.not_isRun
          | run isRun stops noFraction =>
              have none := noFraction digits
              rw [← tokenizes.whole] at none
              have noDigit := wholeLength_of_fractionLength none
              rw [← tokenizes.tail.word_head.2]
              exact wholeLength_eq_zero_iff.mp noDigit
    · exact tokenizes.point other next later digits

theorem tokenizes_lexemeLeaves (text : Text) (inked : ∀ c ∈ text, isBlank c = false) :
    Tokenizes text (lexemeLeaves (text.cut word)) := by
  induction length : text.length using Nat.strong_induction_on generalizing text with
  | h size ih =>
      by_cases nonempty : text = []
      · subst nonempty
        rw [cut_word_gap (List.forall_mem_nil _)]
        exact tokenizes_nil.mpr rfl
      · obtain ⟨leaf, own, rest, rfl, leads⟩ := exists_leads nonempty
        have positive := List.length_pos_iff.mpr leads.nonempty
        rw [List.length_append] at length
        obtain ⟨here, behind⟩ := List.forall_mem_append.mp inked
        rw [lexemeLeaves_append leads here]
        exact leads.tokenizes (ih rest.length (by omega) rest behind rfl)

theorem Tokenizes.eq_lexemeLeaves (tokenizes : Tokenizes text leaves)
    (inked : ∀ c ∈ text, isBlank c = false) :
    leaves = lexemeLeaves (cut Segmentation.word text) := by
  induction leaves generalizing text with
  | nil =>
      obtain rfl := tokenizes_nil.mp tokenizes
      rw [cut_word_gap (List.forall_mem_nil _)]
      rfl
  | cons leaf leaves ih =>
      obtain ⟨own, rest, rfl, leads, later⟩ := tokenizes.leads
      obtain ⟨here, behind⟩ := List.forall_mem_append.mp inked
      rw [lexemeLeaves_append leads here, ih later behind]

/-- A lexeme has the leaves that its text determines. -/
theorem parse_lexeme_tokenizes (inked : ∀ c ∈ text, isBlank c = false) (rest : Chain) :
    ∃ leaves, Chain.parse (.lexeme :: rest) text = .composite none .lexeme leaves ∧
      Tokenizes text leaves ∧ ∀ others, Tokenizes text others → others = leaves :=
  ⟨lexemeLeaves (text.cut word), Chain.parse_lexeme rest text, tokenizes_lexemeLeaves text inked,
    fun _ tokenizes => tokenizes.eq_lexemeLeaves inked⟩

/-- The decimal is taken as far as it goes, and what goes on behind it is a word of its own. -/
theorem parse_lexeme_tokenizes_decimal :
    let text : Text := ['1', '.', '2', 'x']
    (∀ c ∈ text, isBlank c = false) ∧
    Tokenizes text [wordLeaf ['1', '.', '2'], wordLeaf ['x']] ∧
    ¬Tokenizes text [wordLeaf ['1'], punctuationLeaf ['.'], wordLeaf ['2', 'x']] := by
  intro text
  have inked : ∀ c ∈ text, isBlank c = false := by simp [text, isBlank]
  have parts : Chain.parse [.lexeme] text =
      .composite none .lexeme [wordLeaf ['1', '.', '2'], wordLeaf ['x']] := by decide +kernel
  obtain ⟨leaves, parsed, tokenizes, only⟩ := parse_lexeme_tokenizes inked []
  rw [parts] at parsed
  cases parsed
  exact ⟨inked, tokenizes, fun other => absurd (only _ other) (by simp)⟩

end ProseTree.Segmentation
