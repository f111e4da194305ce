import Mathlib.Data.List.Sort
import ProseTree.Proofs.Segmentation.Sentences

namespace ProseTree.Segmentation

/-! The boundaries between sentences.

What a boundary is can be said by what stands around it, without a search from the left.  The
search finds every boundary, whether it takes the white space alone or the terminator and the
opener with it: no terminator is an opener, so what it takes for one boundary is never missing
for the next. -/

open Text

/-- A run of white space that goes on to neither side. -/
structure IsBlankRun (site : Site) : Prop where
  nonempty : site.occurrence ≠ []
  blank : Blank site.occurrence
  before : site.left.getLast?.any isBlank = false
  behind : site.right.head?.any isBlank = false

/-- A run of white space with a terminator before it and an opener behind it. -/
structure IsBoundary (site : Site) : Prop extends IsBlankRun site where
  terminated : site.left.getLast?.any isTerminator = true
  opened : site.right.head?.any isOpener = true

variable {text left right occurrence : Text} {site : Site} {c : Char} {rule : Rule}
  {before : Option Char}

theorem exists_opener (opened : right.head?.any isOpener = true) :
    ∃ opener rest, right = opener :: rest ∧ isOpener opener = true := by
  cases right with
  | nil => contradiction
  | cons opener rest => exact ⟨opener, rest, rfl, opened⟩

theorem exists_terminator (terminated : left.getLast?.any isTerminator = true) :
    ∃ front terminator, left = front ++ [terminator] ∧ isTerminator terminator = true := by
  rcases List.eq_nil_or_concat' left with rfl | ⟨front, terminator, rfl⟩
  · contradiction
  · exact ⟨front, terminator, rfl, by simpa using terminated⟩

theorem sentenceGap_boundary (boundary : IsBoundary site) :
    sentenceGap site.left.getLast? (site.occurrence ++ site.right) = site.occurrence.length := by
  obtain ⟨opener, rest, begins, opens⟩ := exists_opener boundary.opened
  have inked := not_isBlank_of_isOpener opens
  have run := takeWhile_isBlank boundary.blank (.inr ⟨opener, rest, begins, inked⟩)
  have behind : (site.occurrence ++ site.right).dropWhile isBlank = site.right := by
    rw [List.dropWhile_append_of_pos boundary.blank, begins,
      List.dropWhile_cons_of_neg (by simp [inked])]
  rw [sentenceGap_eq, run, behind, boundary.terminated, boundary.opened]
  rfl

theorem isBoundary_of_sentenceGap (gap : sentenceGap left.getLast? text ≠ 0) :
    IsBoundary ⟨left, text.takeWhile isBlank, text.dropWhile isBlank⟩ ∧
      sentenceGap left.getLast? text = (text.takeWhile isBlank).length := by
  rw [sentenceGap_eq] at gap ⊢
  split at gap
  · rename_i around
    rw [if_pos around]
    obtain ⟨terminated, opened⟩ := Bool.and_eq_true_iff.mp around
    obtain ⟨opener, rest, begins, opens⟩ := exists_opener opened
    obtain ⟨front, terminator, rfl, terminates⟩ := exists_terminator terminated
    refine ⟨⟨⟨List.ne_nil_of_length_pos (Nat.pos_of_ne_zero gap), blank_takeWhile text, ?_, ?_⟩,
      terminated, opened⟩, rfl⟩
    · simpa using not_isBlank_of_isTerminator terminates
    · simpa [begins] using not_isBlank_of_isOpener opens
  · contradiction

/-- The gap is taken at the boundaries and nowhere else. -/
theorem takenBy_sentenceGap_iff :
    TakenBy sentenceGap site.left site.occurrence site.right ↔ IsBoundary site := by
  constructor
  · rintro ⟨nonempty, taken⟩
    have gap : sentenceGap site.left.getLast? (site.occurrence ++ site.right) ≠ 0 := by
      intro nothing
      rw [nothing] at taken
      exact nonempty taken.symm
    obtain ⟨boundary, length⟩ := isBoundary_of_sentenceGap gap
    have whole := @List.takeWhile_append_dropWhile _ isBlank (site.occurrence ++ site.right)
    rw [length, ← List.prefix_iff_eq_take.mp (List.takeWhile_prefix isBlank)] at taken
    rw [taken] at boundary whole
    rwa [List.append_cancel_left whole] at boundary
  · intro boundary
    exact ⟨boundary.nonempty, by rw [sentenceGap_boundary boundary, List.take_left]⟩

theorem separate_sentenceGap : sentenceGap.Separate := by
  intro front back occurrence right nonempty taken
  have boundary : IsBoundary ⟨front ++ back, occurrence, right⟩ := takenBy_sentenceGap_iff.mp taken
  obtain ⟨init, terminator, ends, terminates⟩ := exists_terminator boundary.terminated
  have endsInked : EndsInked back :=
    EndsInked.of_append ⟨init, terminator, ends, not_isBlank_of_isTerminator terminates⟩ nonempty
  have within := cutsBlanks_sentenceGap.within front.getLast? (back ++ (occurrence ++ right))
  rw [takeWhile_append_of_ink endsInked.exists_ink] at within
  exact within.trans (List.takeWhile_prefix isBlank).length_le

theorem takenBy_sentenceBoundary_iff : TakenBy sentenceBoundary left occurrence right ↔
    ∃ terminator run opener, occurrence = terminator :: (run ++ [opener]) ∧
      IsBoundary ⟨left ++ [terminator], run, opener :: right⟩ := by
  constructor
  · rintro ⟨nonempty, taken⟩
    obtain ⟨terminator, more, rfl⟩ := List.exists_cons_of_ne_nil nonempty
    simp only [List.cons_append, sentenceBoundary] at taken
    split at taken
    · contradiction
    · rename_i gap
      rw [← @List.getLast?_concat _ left terminator] at gap taken
      obtain ⟨boundary, length⟩ := isBoundary_of_sentenceGap gap
      obtain ⟨opener, rest, begins, -⟩ := exists_opener boundary.opened
      have whole := @List.takeWhile_append_dropWhile _ isBlank (more ++ right)
      dsimp only at begins
      rw [begins] at boundary whole
      generalize (more ++ right).takeWhile isBlank = run at boundary whole length
      have own : run ++ [opener] = more := by
        have inner := (List.cons.inj taken).2
        rw [length, ← whole] at inner
        simpa [List.take_append, List.take_of_length_le (Nat.le_succ run.length)] using inner
      obtain rfl : rest = right := by
        rw [← own, List.append_assoc] at whole
        exact (List.cons.inj (List.append_cancel_left whole)).2
      exact ⟨terminator, run, opener, by rw [own], boundary⟩
  · rintro ⟨terminator, run, opener, rfl, boundary⟩
    have gap := sentenceGap_boundary boundary
    have some : run.length ≠ 0 := fun empty => boundary.nonempty (List.length_eq_zero_iff.mp empty)
    rw [List.getLast?_concat] at gap
    dsimp only at gap
    refine ⟨List.cons_ne_nil _ _, ?_⟩
    simp only [List.cons_append, List.append_assoc, List.nil_append, sentenceBoundary, gap,
      if_neg some]
    simp [List.take_append, List.take_of_length_le (Nat.le_succ run.length)]

theorem separate_sentenceBoundary : sentenceBoundary.Separate := by
  intro front back occurrence right nonempty taken
  obtain ⟨terminator, run, opener, rfl, boundary⟩ := takenBy_sentenceBoundary_iff.mp taken
  have terminates : isTerminator terminator = true := by
    simpa using boundary.terminated
  obtain ⟨c, rest, rfl⟩ := List.exists_cons_of_ne_nil nonempty
  simp only [List.cons_append, sentenceBoundary]
  split
  · exact Nat.zero_le _
  · rename_i gap
    rw [← @List.getLast?_singleton _ c] at gap ⊢
    obtain ⟨first, length⟩ := isBoundary_of_sentenceGap gap
    by_cases inked : ∃ d ∈ rest, isBlank d = false
    · have within := length_takeWhile_lt inked
      rw [takeWhile_append_of_ink inked] at length
      rw [length, List.length_cons]
      omega
    · have blank : Blank rest := by simpa [Blank] using inked
      have opened := first.opened
      dsimp only at opened
      rw [List.dropWhile_append_of_pos blank,
        List.dropWhile_cons_of_neg (by simp [not_isBlank_of_isTerminator terminates])] at opened
      rw [List.head?_cons, Option.any_some, not_isOpener_of_isTerminator terminates] at opened
      contradiction

/-- What is left of a site when the occurrence gives its first and its last character to the text
around it. -/
def inside (site : Site) : Site :=
  ⟨site.left ++ site.occurrence.take 1, site.occurrence.tail.dropLast,
    site.occurrence.getLast?.toList ++ site.right⟩

theorem inside_enclosed (left run right : Text) (first last : Char) :
    inside ⟨left, first :: (run ++ [last]), right⟩ = ⟨left ++ [first], run, last :: right⟩ := by
  simp [inside, List.getLast?_cons]

theorem length_inside (nonempty : site.occurrence ≠ []) :
    (inside site).left.length = site.left.length + 1 := by
  have positive := List.length_pos_iff.mpr nonempty
  simp only [inside, List.length_append, List.length_take]
  omega

theorem map_inside_sites (text : Text) : ((text.cut sentenceBoundary).sitesFrom []).map inside =
    (text.cut sentenceGap).sitesFrom [] := by
  refine List.Pairwise.eq_of_mem_iff (r := Site.Before) ?_ (pairwise_sites_cut _ text) ?_
  · refine List.pairwise_map.mpr ((pairwise_sites_cut _ text).imp_of_mem ?_)
    intro site other isSite isOther ordered
    have first := (separate_sentenceBoundary.mem_sites_iff.mp isSite).2.nonempty
    have second := (separate_sentenceBoundary.mem_sites_iff.mp isOther).2.nonempty
    rw [Site.Before, length_inside first, length_inside second]
    exact Nat.succ_lt_succ ordered
  · intro site
    rw [separate_sentenceGap.mem_sites_iff, takenBy_sentenceGap_iff, List.mem_map]
    constructor
    · rintro ⟨outer, isSite, rfl⟩
      obtain ⟨whole, taken⟩ := separate_sentenceBoundary.mem_sites_iff.mp isSite
      obtain ⟨terminator, run, opener, spelled, boundary⟩ := takenBy_sentenceBoundary_iff.mp taken
      obtain ⟨left, occurrence, right⟩ := outer
      dsimp only at spelled whole boundary
      subst spelled
      rw [inside_enclosed]
      exact ⟨by simpa using whole, boundary⟩
    · rintro ⟨whole, boundary⟩
      obtain ⟨left, run, right⟩ := site
      obtain ⟨front, terminator, rfl, -⟩ := exists_terminator boundary.terminated
      obtain ⟨opener, rest, rfl, -⟩ := exists_opener boundary.opened
      refine ⟨⟨front, terminator :: (run ++ [opener]), rest⟩, ?_, inside_enclosed ..⟩
      rw [separate_sentenceBoundary.mem_sites_iff, takenBy_sentenceBoundary_iff]
      exact ⟨by simpa using whole, terminator, run, opener, rfl, boundary⟩

/-- Pieces with the runs between them. -/
def interleave : List Text → List Text → Text
  | piece :: pieces, run :: runs => piece ++ run ++ interleave pieces runs
  | pieces, _ => pieces.flatten

theorem interleave_gaps (segments : Segments) :
    interleave segments.gaps segments.occurrences = segments.join := by
  induction segments with
  | last gap => simp [interleave, Segments.gaps, Segments.occurrences, Segments.join]
  | found gap occurrence rest ih =>
      rw [Segments.gaps, Segments.occurrences, interleave, ih, Segments.join]

theorem length_gaps (segments : Segments) :
    segments.gaps.length = segments.occurrences.length + 1 := by
  induction segments with
  | last gap => rfl
  | found gap occurrence rest ih =>
      rw [Segments.gaps, Segments.occurrences, List.length_cons, List.length_cons, ih]

/-- A piece of a cut is not cut again by a rule that takes nothing from the front part of a text
where it takes nothing from the text. -/
theorem exists_gaps_alone (stays : ∀ {before text right},
    rule before (text ++ right) = 0 → rule before text = 0) (before : Option Char) (text : Text) :
    ∃ first others, (cutAfter rule before text).gaps = first :: others ∧ first <+: text ∧
      (cutAfter rule before first).gaps = [first] ∧
      ∀ piece ∈ others, ∃ earlier, (cutAfter rule earlier piece).gaps = [piece] := by
  fun_induction cutAfter rule before text with
  | case1 => exact ⟨[], [], rfl, List.prefix_rfl, gaps_cutAfter_nil, List.forall_mem_nil _⟩
  | case2 before c rest nothing ih =>
      obtain ⟨first, others, gaps, ⟨behind, rfl⟩, alone, each⟩ := ih
      refine ⟨c :: first, others, Segments.gaps_push_of_gaps gaps c, ⟨behind, rfl⟩, ?_, each⟩
      exact gaps_cutAfter_of_eq_zero (stays nothing) alone
  | case3 before c rest more taken occurrence ih =>
      obtain ⟨first, others, gaps, -, alone, each⟩ := ih
      refine ⟨[], first :: others, by rw [Segments.gaps, gaps], List.nil_prefix,
        gaps_cutAfter_nil, ?_⟩
      exact List.forall_mem_cons.mpr ⟨⟨_, alone⟩, each⟩

theorem sentenceGap_append (nothing : sentenceGap before (text ++ right) = 0) :
    sentenceGap before text = 0 := by
  by_cases inked : ∃ c ∈ text, isBlank c = false
  · rwa [cutsBlanks_sentenceGap.sees before text right inked] at nothing
  · have blank : Blank text := by simpa [Blank] using inked
    rw [sentenceGap_eq, List.dropWhile_eq_nil_iff.mpr blank]
    simp

/-- Without a character before it, the beginning of a text is no gap. -/
theorem gaps_cut_of_alone (alone : (cutAfter sentenceGap before text).gaps = [text]) :
    (text.cut sentenceGap).gaps = [text] := by
  cases text with
  | nil => exact gaps_cutAfter_nil
  | cons c rest =>
      apply gaps_cutAfter_of_eq_zero (sentenceGap_eq none (c :: rest))
      cases taken : sentenceGap before (c :: rest) with
      | zero =>
          obtain ⟨first, others, gaps⟩ := (cutAfter sentenceGap (some c) rest).exists_gaps
          rw [gaps_cutAfter_of_eq_zero taken gaps] at alone
          obtain ⟨same, rfl⟩ := List.cons.inj alone
          rw [gaps, (List.cons.inj same).2]
      | succ more =>
          rw [gaps_cutAfter_of_eq_succ taken] at alone
          exact absurd (List.cons.inj alone).1 (List.cons_ne_nil c rest).symm

theorem splitSentences_piece {piece : Text} (isPiece : piece ∈ splitSentences text) :
    splitSentences piece = [piece] := by
  obtain ⟨first, others, gaps, -, alone, each⟩ := exists_gaps_alone sentenceGap_append none text
  rw [splitSentences, cut, gaps] at isPiece
  rcases List.mem_cons.mp isPiece with rfl | later
  · exact alone
  · obtain ⟨earlier, alone⟩ := each piece later
    exact gaps_cut_of_alone alone

/-- The boundaries of a text, from left to right: there is one piece more than there are
boundaries, the pieces with the boundaries between them are the text, and no piece is cut again.
Looking for the terminator, the gap and the opener together finds the same boundaries. -/
theorem splitSentences_boundaries (text : Text) : ∃ boundaries : List Site,
    (∀ site, site ∈ boundaries ↔
      site.left ++ site.occurrence ++ site.right = text ∧ IsBoundary site) ∧
    boundaries.Pairwise Site.Before ∧
    (splitSentences text).length = boundaries.length + 1 ∧
    interleave (splitSentences text) (boundaries.map Site.occurrence) = text ∧
    (∀ piece ∈ splitSentences text, splitSentences piece = [piece]) ∧
    ((text.cut sentenceBoundary).sitesFrom []).map inside = boundaries := by
  refine ⟨(text.cut sentenceGap).sitesFrom [], ?_, pairwise_sites_cut _ text, ?_, ?_,
    fun piece => splitSentences_piece, map_inside_sites text⟩
  · intro site
    rw [separate_sentenceGap.mem_sites_iff, takenBy_sentenceGap_iff]
  · rw [splitSentences, length_gaps, ← Segments.map_sitesFrom _ [], List.length_map]
  · rw [splitSentences, Segments.map_sitesFrom, interleave_gaps, join_cut]

end ProseTree.Segmentation
