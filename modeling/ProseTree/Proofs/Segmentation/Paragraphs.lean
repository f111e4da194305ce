import Mathlib.Data.List.Infix
import ProseTree.Proofs.Segmentation.BlankCut
import ProseTree.Proofs.Segmentation.Conservation

namespace ProseTree.Segmentation

/-! Where paragraphs are apart: at white space that breaks, and nowhere else. -/

open Text

/-- White space that separates paragraphs: a line feed with another one behind it, with a
tab directly behind it, or with at least four blanks behind it. -/
def Breaks (blanks : Text) : Prop :=
  ∃ front back, blanks = front ++ '\n' :: back ∧
    ('\n' ∈ back ∨ back.head? = some '\t' ∨ 4 ≤ back.length)

variable {before : Option Char} {text left right blanks front back : Text} {c : Char}

theorem breaks_iff : Breaks blanks ↔ ∃ tail ∈ blanks.tails, tail.head? = some '\n' ∧
    ('\n' ∈ tail.tail ∨ tail.tail.head? = some '\t' ∨ 4 ≤ tail.tail.length) := by
  constructor
  · rintro ⟨front, back, rfl, separates⟩
    exact ⟨'\n' :: back, (List.mem_tails _ _).mpr (List.suffix_append _ _), rfl, separates⟩
  · rintro ⟨tail, isTail, lineFeed, separates⟩
    obtain ⟨front, rfl⟩ := (List.mem_tails _ _).mp isTail
    obtain ⟨back, rfl⟩ := List.head?_eq_some_iff.mp lineFeed
    exact ⟨front, back, rfl, separates⟩

instance (blanks : Text) : Decidable (Breaks blanks) := decidable_of_iff _ breaks_iff.symm

theorem Breaks.around (breaks : Breaks blanks) (front back : Text) :
    Breaks (front ++ blanks ++ back) := by
  obtain ⟨inner, outer, rfl, separates⟩ := breaks
  refine ⟨front ++ inner, outer ++ back, by simp, ?_⟩
  rcases separates with lineFeed | tab | indented
  · exact .inl (List.mem_append_left back lineFeed)
  · obtain ⟨rest, rfl⟩ := List.head?_eq_some_iff.mp tab
    exact .inr (.inl rfl)
  · refine .inr (.inr ?_)
    rw [List.length_append]
    omega

theorem not_breaks_of_no_lineFeed (noLineFeed : '\n' ∉ blanks) : ¬Breaks blanks := by
  rintro ⟨front, back, rfl, -⟩
  simp at noLineFeed

theorem paragraphSeparator_other (other : c ≠ '\n') (rest : Text) :
    paragraphSeparator before (c :: rest) = 0 := by
  unfold paragraphSeparator
  split
  · rename_i found
    exact absurd (List.cons.inj found).1 other
  · rfl

theorem paragraphSeparator_ne_zero_iff (blank : Blank blanks)
    (stops : right = [] ∨ StartsInked right) :
    paragraphSeparator before (c :: (blanks ++ right)) ≠ 0 ↔
      c = '\n' ∧ ('\n' ∈ blanks ∨ blanks.head? = some '\t' ∨ 4 ≤ blanks.length) := by
  by_cases lineFeed : c = '\n'
  · subst lineFeed
    simp only [paragraphSeparator, takeWhile_isBlank blank stops, List.contains_iff_mem, true_and]
    by_cases another : '\n' ∈ blanks
    · simp [another]
    · by_cases tab : blanks.head? = some '\t'
      · simp [another, tab]
      · by_cases indented : 4 ≤ blanks.length
        · simp [another, tab, indented]
        · simp [another, tab, indented]
  · rw [paragraphSeparator_other lineFeed]
    simp [lineFeed]

theorem cutsBlanks_paragraphSeparator : paragraphSeparator.CutsBlanks where
  within before text := by
    cases text with
    | nil => exact Nat.zero_le _
    | cons c rest =>
        by_cases lineFeed : c = '\n'
        · subst lineFeed
          have bound := paragraphSeparator_le before rest
          rw [List.takeWhile_cons_of_pos (by decide), List.length_cons]
          omega
        · rw [paragraphSeparator_other lineFeed]
          exact Nat.zero_le _
  sees before text rest inked := by
    obtain ⟨d, member, isInk⟩ := inked
    obtain ⟨c, others, rfl⟩ := List.exists_cons_of_ne_nil (List.ne_nil_of_mem member)
    by_cases lineFeed : c = '\n'
    · subst lineFeed
      have later : ∃ c ∈ others, isBlank c = false := by
        rcases List.mem_cons.mp member with rfl | later
        · exact absurd isInk (by decide)
        · exact ⟨d, later, isInk⟩
      simp only [List.cons_append, paragraphSeparator, takeWhile_append_of_ink later]
    · rw [List.cons_append, paragraphSeparator_other lineFeed, paragraphSeparator_other lineFeed]

theorem takesOf_paragraphSeparator (before : Option Char) (blank : Blank blanks)
    (stops : right = [] ∨ StartsInked right) :
    paragraphSeparator.TakesOf right before blanks ↔ Breaks blanks := by
  induction blanks generalizing before with
  | nil => simp [Rule.TakesOf, Breaks]
  | cons c blanks ih =>
      have blankRest := (blank_cons.mp blank).2
      rw [Rule.TakesOf, paragraphSeparator_ne_zero_iff blankRest stops, ih _ blankRest]
      constructor
      · rintro (⟨rfl, separates⟩ | later)
        · exact ⟨[], blanks, rfl, separates⟩
        · simpa using later.around [c] []
      · rintro ⟨front, back, cut, separates⟩
        cases front with
        | nil =>
            obtain ⟨rfl, rfl⟩ := List.cons.inj cut
            exact .inl ⟨rfl, separates⟩
        | cons d front => exact .inr ⟨front, back, (List.cons.inj cut).2, separates⟩

theorem paragraphs_apart (blank : Blank blanks) (breaks : Breaks blanks) (left right : Text) :
    paragraphSeparator.pieces (left ++ blanks ++ right) =
      paragraphSeparator.pieces left ++ paragraphSeparator.pieces right := by
  have cuts := cutsBlanks_paragraphSeparator
  obtain ⟨left, back, rfl, blankBack, ends⟩ := exists_blank_back left
  obtain ⟨front, right, rfl, blankFront, starts⟩ := exists_blank_front right
  have whole : left ++ back ++ blanks ++ (front ++ right) =
      left ++ (back ++ blanks ++ front) ++ right := by simp
  have blankAll : Blank (back ++ blanks ++ front) :=
    blank_append.mpr ⟨blank_append.mpr ⟨blankBack, blank⟩, blankFront⟩
  rw [whole, cuts.pieces_append_blank blankBack, cuts.pieces_blank_append blankFront]
  rcases ends with rfl | ends
  · rw [List.nil_append, cuts.pieces_blank_append blankAll, Rule.pieces_blank blank_nil,
      List.nil_append]
  · rcases starts with rfl | starts
    · rw [List.append_nil, cuts.pieces_append_blank blankAll, Rule.pieces_blank blank_nil,
        List.append_nil]
    · have takes := (takesOf_paragraphSeparator left.getLast? blankAll (.inr starts)).mpr
        (breaks.around back front)
      exact cuts.pieces_taken ends starts blankAll takes

theorem paragraphs_together (blank : Blank blanks) (joins : ¬Breaks blanks)
    (ends : EndsInked left) (starts : StartsInked right) :
    ∃ front last first others, paragraphSeparator.pieces left = front ++ [last] ∧
      paragraphSeparator.pieces right = first :: others ∧
      paragraphSeparator.pieces (left ++ blanks ++ right) =
        front ++ (last ++ blanks ++ first) :: others := by
  apply cutsBlanks_paragraphSeparator.pieces_untaken ends starts
  rwa [takesOf_paragraphSeparator _ blank (.inr starts)]

namespace Chain

theorem children_parse_full (evaluates : Bool) (text : Text) :
    ((full evaluates).parse text).children = (paragraphSeparator.pieces text).map
      (parse [.paragraph evaluates, .sentence, .lexeme]) := rfl

/-- White space that breaks keeps what stands before it and what stands behind it apart,
and every paragraph is parsed as it would be in its own text.  Other white space between
ink makes one paragraph of two. -/
theorem children_parse_append (evaluates : Bool) (left blanks right : Text)
    (blank : Blank blanks) :
    (Breaks blanks → ((full evaluates).parse (left ++ blanks ++ right)).children =
      ((full evaluates).parse left).children ++ ((full evaluates).parse right).children) ∧
    (¬Breaks blanks → EndsInked left → StartsInked right →
      ((full evaluates).parse (left ++ blanks ++ right)).children.length =
        ((full evaluates).parse left).children.length +
          ((full evaluates).parse right).children.length - 1 ∧
      ∃ front last joined first others,
        ((full evaluates).parse left).children = front ++ [last] ∧
        ((full evaluates).parse right).children = first :: others ∧
        ((full evaluates).parse (left ++ blanks ++ right)).children =
          front ++ joined :: others) := by
  simp only [children_parse_full]
  constructor
  · intro breaks
    rw [paragraphs_apart blank breaks, List.map_append]
  · intro joins ends starts
    obtain ⟨front, last, first, others, inLeft, inRight, together⟩ :=
      paragraphs_together blank joins ends starts
    simp only [inLeft, inRight, together, List.map_append, List.map_cons, List.map_nil]
    refine ⟨?_, _, _, _, _, _, rfl, rfl, rfl⟩
    simp only [List.length_append, List.length_cons, List.length_nil]
    omega

theorem children_parse_append_indented :
    let left : Text := ['1', '+']
    let right : Text := ['1']
    let indent : Text := ['\n', ' ', '\t', ' ', ' ']
    let wrap : Text := [' ', '\n', ' ']
    Blank indent ∧ Breaks indent ∧
    ((full true).parse (left ++ indent ++ right)).children =
      ((full true).parse left).children ++ ((full true).parse right).children ∧
    Blank wrap ∧ ¬Breaks wrap ∧ EndsInked left ∧ StartsInked right ∧
    ((full true).parse (left ++ wrap ++ right)).children.length =
      ((full true).parse left).children.length + ((full true).parse right).children.length - 1 := by
  intro left right indent wrap
  have blankIndent : Blank indent := by decide
  have breaks : Breaks indent := by decide
  have blankWrap : Blank wrap := by decide
  have joins : ¬Breaks wrap := by decide
  have ends : EndsInked left := ⟨['1'], '+', rfl, by decide⟩
  have starts : StartsInked right := ⟨'1', [], rfl, by decide⟩
  exact ⟨blankIndent, breaks, (children_parse_append true left indent right blankIndent).1 breaks,
    blankWrap, joins, ends, starts,
    ((children_parse_append true left wrap right blankWrap).2 joins ends starts).1⟩

end Chain

end ProseTree.Segmentation
