import ProseTree.Proofs.Text.Blank
import ProseTree.Proofs.Text.Segments
import ProseTree.Segmentation.Chain

namespace ProseTree

/-! Cutting a text at some of its white space.

A rule that takes nothing but white space, and looks no farther than to the next ink,
cuts what is on the left of a blank run as it would cut it alone, and so what is on the
right.  Of two texts around white space the pieces are those of the one and of the other,
or the two pieces beside the white space are one. -/

open Text

/-- The rule takes white space only and sees no farther than to the next ink. -/
structure Rule.CutsBlanks (rule : Rule) : Prop where
  within (before : Option Char) (text : Text) :
    rule before text ≤ (text.takeWhile isBlank).length
  sees (before : Option Char) (text rest : Text) (inked : ∃ c ∈ text, isBlank c = false) :
    rule before (text ++ rest) = rule before text

variable {rule : Rule} {before : Option Char} {text left right blanks : Text} {c : Char}

namespace Rule.CutsBlanks

theorem rule_inked (cuts : rule.CutsBlanks) (inked : isBlank c = false) (rest : Text) :
    rule before (c :: rest) = 0 := by
  have within := cuts.within before (c :: rest)
  rw [List.takeWhile_cons_of_neg (by simp [inked])] at within
  exact Nat.le_zero.mp within

end Rule.CutsBlanks

theorem Segments.exists_gaps (segments : Segments) :
    ∃ first others, segments.gaps = first :: others := by
  cases segments with
  | last gap => exact ⟨gap, [], rfl⟩
  | found gap occurrence rest => exact ⟨gap, rest.gaps, rfl⟩

theorem Segments.gaps_push_of_gaps {segments : Segments} {first : Text} {others : List Text}
    (gaps : segments.gaps = first :: others) (c : Char) :
    (segments.push c).gaps = (c :: first) :: others := by
  cases segments with
  | last gap =>
      obtain ⟨rfl, rfl⟩ := List.cons.inj gaps
      rfl
  | found gap occurrence rest =>
      obtain ⟨rfl, rfl⟩ := List.cons.inj gaps
      rfl

namespace Text

theorem gaps_cutAfter_of_eq_zero (nothing : rule before (c :: text) = 0) {first : Text}
    {others : List Text} (gaps : (cutAfter rule (some c) text).gaps = first :: others) :
    (cutAfter rule before (c :: text)).gaps = (c :: first) :: others := by
  rw [cutAfter, nothing]
  exact Segments.gaps_push_of_gaps gaps c

theorem gaps_cutAfter_of_eq_succ {more : Nat} (taken : rule before (c :: text) = more + 1) :
    (cutAfter rule before (c :: text)).gaps =
      [] :: (cutAfter rule (c :: text.take more).getLast? (text.drop more)).gaps := by
  rw [cutAfter, taken]
  rfl

theorem blank_of_mem_gaps (blank : Blank blanks) :
    ∀ gap ∈ (cutAfter rule before blanks).gaps, Blank gap := by
  intro gap isGap c member
  have inside := Segments.mem_join_of_mem_gaps isGap member
  rw [join_cutAfter] at inside
  exact blank c inside

theorem gaps_cutAfter_nil : (cutAfter rule before []).gaps = [[]] := by
  rw [cutAfter]
  rfl

theorem exists_gaps_inked (cuts : rule.CutsBlanks) (starts : StartsInked text) :
    ∃ first others, (cut rule text).gaps = first :: others ∧ StartsInked first := by
  obtain ⟨c, rest, rfl, inked⟩ := starts
  obtain ⟨first, others, gaps⟩ := (cutAfter rule (some c) rest).exists_gaps
  exact ⟨c :: first, others, gaps_cutAfter_of_eq_zero (cuts.rule_inked inked rest) gaps,
    c, first, rfl, inked⟩

/-- What is in front of ink makes no difference to how the text is cut. -/
theorem gaps_cutAfter_inked (cuts : rule.CutsBlanks) (before : Option Char)
    (stops : text = [] ∨ StartsInked text) : (cutAfter rule before text).gaps = (cut rule text).gaps := by
  rcases stops with rfl | ⟨c, rest, rfl, inked⟩
  · rw [cut, gaps_cutAfter_nil, gaps_cutAfter_nil]
  · obtain ⟨first, others, gaps⟩ := (cutAfter rule (some c) rest).exists_gaps
    rw [cut, gaps_cutAfter_of_eq_zero (cuts.rule_inked inked rest) gaps,
      gaps_cutAfter_of_eq_zero (cuts.rule_inked inked rest) gaps]

/-- A text that ends with ink is cut by itself, whatever follows it. -/
theorem gaps_cutAfter_append (before : Option Char) (cuts : rule.CutsBlanks) (ends : EndsInked left) :
    ∃ front last, (cutAfter rule before left).gaps = front ++ [last] ∧ EndsInked last ∧
      ∀ right first others,
        (cutAfter rule left.getLast? right).gaps = first :: others →
        (cutAfter rule before (left ++ right)).gaps = front ++ (last ++ first) :: others := by
  fun_induction cutAfter rule before left with
  | case1 => exact absurd rfl ends.ne_nil
  | case2 before c rest nothing ih =>
      have inked := ends.exists_ink
      have stays : ∀ right, rule before (c :: rest ++ right) = 0 :=
        fun right => (cuts.sees before (c :: rest) right inked).trans nothing
      by_cases atEnd : rest = []
      · subst atEnd
        refine ⟨[], [c], Segments.gaps_push_of_gaps gaps_cutAfter_nil c, ends, ?_⟩
        intro right first others gaps
        exact gaps_cutAfter_of_eq_zero (stays right) gaps
      · obtain ⟨front, last, gaps, endsLast, whole⟩ :=
          ih (@EndsInked.of_append [c] rest ends atEnd)
        have same : (c :: rest).getLast? = rest.getLast? := by
          rw [List.getLast?_cons, List.getLast?_eq_some_getLast atEnd]
          rfl
        cases front with
        | nil =>
            refine ⟨[], c :: last, Segments.gaps_push_of_gaps gaps c, endsLast.append [c], ?_⟩
            intro right first others behind
            rw [same] at behind
            exact gaps_cutAfter_of_eq_zero (stays right) (whole right first others behind)
        | cons head front =>
            refine ⟨(c :: head) :: front, last, Segments.gaps_push_of_gaps gaps c, endsLast, ?_⟩
            intro right first others behind
            rw [same] at behind
            exact gaps_cutAfter_of_eq_zero (stays right) (whole right first others behind)
  | case3 before c rest more taken occurrence ih =>
      have inked := ends.exists_ink
      have within := cuts.within before (c :: rest)
      have shorter := length_takeWhile_lt inked
      have bounded : more < rest.length := by
        rw [List.length_cons] at shorter
        omega
      have nonempty : rest.drop more ≠ [] := by
        intro empty
        have short := List.drop_eq_nil_iff.mp empty
        omega
      have behindEnds : EndsInked (rest.drop more) := by
        rw [← List.take_append_drop more rest, ← List.cons_append] at ends
        exact ends.of_append nonempty
      obtain ⟨front, last, gaps, endsLast, whole⟩ := ih behindEnds
      refine ⟨[] :: front, last, ?_, endsLast, ?_⟩
      · rw [Segments.gaps, gaps]
        rfl
      · intro right first others behind
        have stays : rule before (c :: (rest ++ right)) = more + 1 :=
          (cuts.sees before (c :: rest) right inked).trans taken
        have same : (c :: rest).getLast? = (rest.drop more).getLast? := by
          rw [← List.getLast?_append_of_ne_nil (c :: rest.take more) nonempty, List.cons_append,
            List.take_append_drop]
        rw [same] at behind
        rw [List.cons_append, gaps_cutAfter_of_eq_succ stays,
          List.take_append_of_le_length (Nat.le_of_lt bounded),
          List.drop_append_of_le_length (Nat.le_of_lt bounded), whole right first others behind]
        rfl

/-- Cutting a blank run leaves blank pieces; the last of them goes with what follows. -/
theorem gaps_cutAfter_blank (cuts : rule.CutsBlanks) (before : Option Char) (blank : Blank blanks)
    (stops : right = [] ∨ StartsInked right) {first : Text} {others : List Text}
    (found : (cut rule right).gaps = first :: others) :
    ∃ pieces last, (∀ piece ∈ pieces, Blank piece) ∧ Blank last ∧
      (cutAfter rule before (blanks ++ right)).gaps = pieces ++ (last ++ first) :: others := by
  generalize whole : blanks ++ right = text
  fun_induction cutAfter rule before text generalizing blanks with
  | case1 =>
      obtain ⟨rfl, rfl⟩ := List.append_eq_nil_iff.mp whole
      rw [cut, gaps_cutAfter_nil] at found
      exact ⟨[], [], List.forall_mem_nil _, blank_nil, found⟩
  | case2 before c rest nothing ih =>
      cases blanks with
      | nil =>
          obtain rfl : right = c :: rest := whole
          rw [← gaps_cutAfter_inked cuts before stops, cutAfter, nothing] at found
          exact ⟨[], [], List.forall_mem_nil _, blank_nil, found⟩
      | cons d blanks =>
          obtain ⟨rfl, tail⟩ := List.cons.inj whole
          obtain ⟨isBlank, blankRest⟩ := blank_cons.mp blank
          obtain ⟨pieces, last, arePieces, blankLast, gaps⟩ := ih blankRest tail
          cases pieces with
          | nil =>
              exact ⟨[], d :: last, arePieces, blank_cons.mpr ⟨isBlank, blankLast⟩,
                Segments.gaps_push_of_gaps gaps d⟩
          | cons piece pieces =>
              obtain ⟨isPiece, arePieces⟩ := List.forall_mem_cons.mp arePieces
              refine ⟨(d :: piece) :: pieces, last, ?_, blankLast,
                Segments.gaps_push_of_gaps gaps d⟩
              exact List.forall_mem_cons.mpr ⟨blank_cons.mpr ⟨isBlank, isPiece⟩, arePieces⟩
  | case3 before c rest more taken occurrence =>
      rename_i ih
      have within := cuts.within before (c :: rest)
      rw [← whole, takeWhile_isBlank blank stops, whole, taken] at within
      cases blanks with
      | nil => contradiction
      | cons d blanks =>
          obtain ⟨rfl, rfl⟩ := List.cons.inj whole
          have bounded : more ≤ blanks.length := by simpa using within
          obtain ⟨pieces, last, arePieces, blankLast, gaps⟩ :=
            ih ((blank_cons.mp blank).2.drop more) (List.drop_append_of_le_length bounded).symm
          refine ⟨[] :: pieces, last, List.forall_mem_cons.mpr ⟨blank_nil, arePieces⟩, blankLast, ?_⟩
          rw [Segments.gaps, gaps]
          rfl

end Text

/-- The rule takes something of the white space in front of a text. -/
def Rule.TakesOf (rule : Rule) (right : Text) : Option Char → Text → Prop
  | _, [] => False
  | before, c :: blanks =>
      rule before (c :: (blanks ++ right)) ≠ 0 ∨ rule.TakesOf right (some c) blanks

namespace Text

variable {first : Text} {others : List Text}

theorem gaps_cutAfter_untaken (cuts : rule.CutsBlanks) (stops : right = [] ∨ StartsInked right)
    (found : (cut rule right).gaps = first :: others)
    (untaken : ¬rule.TakesOf right before blanks) :
    (cutAfter rule before (blanks ++ right)).gaps = (blanks ++ first) :: others := by
  induction blanks generalizing before with
  | nil => exact (gaps_cutAfter_inked cuts before stops).trans found
  | cons c blanks ih =>
      rw [Rule.TakesOf, not_or, not_not] at untaken
      exact gaps_cutAfter_of_eq_zero untaken.1 (ih untaken.2)

theorem gaps_cutAfter_taken (cuts : rule.CutsBlanks) (blank : Blank blanks)
    (stops : right = [] ∨ StartsInked right) (found : (cut rule right).gaps = first :: others)
    (takes : rule.TakesOf right before blanks) :
    ∃ piece pieces last, Blank piece ∧ (∀ piece ∈ pieces, Blank piece) ∧ Blank last ∧
      (cutAfter rule before (blanks ++ right)).gaps =
        piece :: (pieces ++ (last ++ first) :: others) := by
  induction blanks generalizing before with
  | nil => exact absurd takes id
  | cons c blanks ih =>
      obtain ⟨isBlank, blankRest⟩ := blank_cons.mp blank
      cases taken : rule before (c :: (blanks ++ right)) with
      | zero =>
          have later : rule.TakesOf right (some c) blanks :=
            takes.resolve_left fun here => here taken
          obtain ⟨piece, pieces, last, isPiece, arePieces, blankLast, gaps⟩ := ih blankRest later
          exact ⟨c :: piece, pieces, last, blank_cons.mpr ⟨isBlank, isPiece⟩, arePieces, blankLast,
            gaps_cutAfter_of_eq_zero taken gaps⟩
      | succ more =>
          have within := cuts.within before (c :: blanks ++ right)
          rw [takeWhile_isBlank blank stops, List.cons_append, taken, List.length_cons] at within
          have bounded : more ≤ blanks.length := by omega
          obtain ⟨pieces, last, arePieces, blankLast, gaps⟩ :=
            gaps_cutAfter_blank cuts (c :: (blanks ++ right).take more).getLast?
              (blankRest.drop more) stops found
          refine ⟨[], pieces, last, blank_nil, arePieces, blankLast, ?_⟩
          rw [List.cons_append, gaps_cutAfter_of_eq_succ taken,
            List.drop_append_of_le_length bounded, gaps]

/-- A text without white space is one piece. -/
theorem gaps_cutAfter_of_inked (cuts : rule.CutsBlanks) (inked : ∀ c ∈ text, isBlank c = false) :
    (cutAfter rule before text).gaps = [text] := by
  induction text generalizing before with
  | nil => exact gaps_cutAfter_nil
  | cons c rest ih =>
      have nothing : rule before (c :: rest) = 0 := cuts.rule_inked (inked c (by simp)) rest
      exact gaps_cutAfter_of_eq_zero nothing (ih fun d member => inked d (by simp [member]))

end Text

namespace Segmentation

theorem trimmedPieces_append (front back : List Text) :
    trimmedPieces (front ++ back) = trimmedPieces front ++ trimmedPieces back := by
  simp [trimmedPieces]

theorem trimmedPieces_cons (piece : Text) (rest : List Text) :
    trimmedPieces (piece :: rest) = trimmedPieces [piece] ++ trimmedPieces rest :=
  trimmedPieces_append [piece] rest

theorem trimmedPieces_blank {pieces : List Text} (blank : ∀ piece ∈ pieces, Blank piece) :
    trimmedPieces pieces = [] := by
  induction pieces with
  | nil => rfl
  | cons piece rest ih =>
      obtain ⟨isBlank, blankRest⟩ := List.forall_mem_cons.mp blank
      rw [trimmedPieces_cons, ih blankRest, trimmedPieces, List.map_singleton,
        trim_eq_nil_iff.mpr isBlank]
      rfl

theorem trimmedPieces_singleton (inked : ¬Blank text) : trimmedPieces [text] = [trim text] := by
  have nonempty : trim text ≠ [] := fun empty => inked (trim_eq_nil_iff.mp empty)
  simp [trimmedPieces, nonempty]

theorem trimmedPieces_congr {pieces others : List Text}
    (same : pieces.map trim = others.map trim) : trimmedPieces pieces = trimmedPieces others := by
  rw [trimmedPieces, trimmedPieces, same]

/-- Every trimmed piece begins and ends with ink. -/
theorem inked_of_mem_trimmedPieces {pieces : List Text} {piece : Text}
    (member : piece ∈ trimmedPieces pieces) : StartsInked piece ∧ EndsInked piece := by
  obtain ⟨inMap, nonempty⟩ := List.mem_filter.mp member
  obtain ⟨whole, -, rfl⟩ := List.mem_map.mp inMap
  have inked : ¬Blank whole := by
    intro blank
    rw [trim_eq_nil_iff.mpr blank] at nonempty
    contradiction
  obtain ⟨front, back, -, -, -, ends⟩ := exists_trim inked
  exact ends

end Segmentation

open Segmentation

/-- What a rule leaves of a text, piece by piece, without the white space around. -/
def Rule.pieces (rule : Rule) (text : Text) : List Text := trimmedPieces (text.cut rule).gaps

theorem Rule.pieces_blank (blank : Blank blanks) : rule.pieces blanks = [] :=
  trimmedPieces_blank (blank_of_mem_gaps blank)

namespace Rule.CutsBlanks

theorem pieces_inked (cuts : rule.CutsBlanks) (nonempty : text ≠ [])
    (inked : ∀ c ∈ text, isBlank c = false) : rule.pieces text = [text] := by
  have starts := startsInked_of_inked nonempty inked
  rw [Rule.pieces, cut, gaps_cutAfter_of_inked cuts inked,
    trimmedPieces_singleton starts.not_blank,
    trim_eq_self starts (endsInked_of_inked nonempty inked)]

theorem pieces_blank_append (cuts : rule.CutsBlanks) (blank : Blank blanks) (text : Text) :
    rule.pieces (blanks ++ text) = rule.pieces text := by
  have bare : ∀ {blanks right : Text}, Blank blanks → right = [] ∨ StartsInked right →
      rule.pieces (blanks ++ right) = rule.pieces right := by
    intro blanks right blank stops
    obtain ⟨first, others, found⟩ := (cut rule right).exists_gaps
    obtain ⟨pieces, last, arePieces, blankLast, gaps⟩ :=
      gaps_cutAfter_blank cuts none blank stops found
    rw [Rule.pieces, cut, gaps, trimmedPieces_append, trimmedPieces_blank arePieces,
      List.nil_append, Rule.pieces, found]
    apply trimmedPieces_congr
    rw [List.map_cons, List.map_cons, trim_blank_append blankLast]
  obtain ⟨front, right, rfl, blankFront, stops⟩ := exists_blank_front text
  rw [← List.append_assoc, bare (blank_append.mpr ⟨blank, blankFront⟩) stops,
    bare blankFront stops]

theorem pieces_append_blank (cuts : rule.CutsBlanks) (blank : Blank blanks) (text : Text) :
    rule.pieces (text ++ blanks) = rule.pieces text := by
  have bare : ∀ {left blanks : Text}, EndsInked left → Blank blanks →
      rule.pieces (left ++ blanks) = rule.pieces left := by
    intro left blanks ends blank
    obtain ⟨front, last, gaps, -, whole⟩ := gaps_cutAfter_append none cuts ends
    obtain ⟨first, others, found⟩ := (cutAfter rule left.getLast? blanks).exists_gaps
    have areBlank := @blank_of_mem_gaps rule left.getLast? blanks blank
    rw [found] at areBlank
    obtain ⟨blankFirst, blankOthers⟩ := List.forall_mem_cons.mp areBlank
    rw [Rule.pieces, cut, whole blanks first others found, Rule.pieces, cut, gaps,
      trimmedPieces_append, trimmedPieces_append, trimmedPieces_cons,
      trimmedPieces_blank blankOthers, List.append_nil]
    apply congrArg
    apply trimmedPieces_congr
    rw [List.map_singleton, List.map_singleton, trim_append_blank blankFirst]
  obtain ⟨left, back, rfl, blankBack, ends⟩ := exists_blank_back text
  have blankBoth := blank_append.mpr ⟨blankBack, blank⟩
  rcases ends with rfl | ends
  · rw [List.nil_append, pieces_blank blankBoth, pieces_blank blankBack]
  · rw [List.append_assoc, bare ends blankBoth, bare ends blankBack]

/-- Where the rule takes something of the white space between two texts, the pieces are
those of the two. -/
theorem pieces_taken (cuts : rule.CutsBlanks) (ends : EndsInked left) (starts : StartsInked right)
    (blank : Blank blanks) (takes : rule.TakesOf right left.getLast? blanks) :
    rule.pieces (left ++ blanks ++ right) = rule.pieces left ++ rule.pieces right := by
  obtain ⟨first, others, found⟩ := (cut rule right).exists_gaps
  obtain ⟨front, last, gaps, -, whole⟩ := gaps_cutAfter_append none cuts ends
  obtain ⟨piece, pieces, final, blankPiece, arePieces, blankFinal, behind⟩ :=
    gaps_cutAfter_taken cuts blank (.inr starts) found takes
  have all := whole _ _ _ behind
  rw [Rule.pieces, cut, List.append_assoc, all, Rule.pieces, cut, gaps, Rule.pieces, found]
  have atLeft : trimmedPieces [last ++ piece] = trimmedPieces [last] := by
    apply trimmedPieces_congr
    rw [List.map_singleton, List.map_singleton, trim_append_blank blankPiece]
  have atRight : trimmedPieces ((final ++ first) :: others) = trimmedPieces (first :: others) := by
    apply trimmedPieces_congr
    rw [List.map_cons, List.map_cons, trim_blank_append blankFinal]
  rw [trimmedPieces_append, trimmedPieces_append, trimmedPieces_cons, atLeft,
    trimmedPieces_append, trimmedPieces_blank arePieces, List.nil_append, atRight,
    List.append_assoc]

/-- Where the rule takes nothing of the white space between two texts, the last piece of
the one and the first piece of the other are one. -/
theorem pieces_untaken (cuts : rule.CutsBlanks) (ends : EndsInked left)
    (starts : StartsInked right) (untaken : ¬rule.TakesOf right left.getLast? blanks) :
    ∃ front last first others, rule.pieces left = front ++ [last] ∧
      rule.pieces right = first :: others ∧
      rule.pieces (left ++ blanks ++ right) = front ++ (last ++ blanks ++ first) :: others := by
  obtain ⟨first, others, found, startsFirst⟩ := exists_gaps_inked cuts starts
  obtain ⟨front, last, gaps, endsLast, whole⟩ := gaps_cutAfter_append none cuts ends
  have all := whole _ _ _ (gaps_cutAfter_untaken cuts (.inr starts) found untaken)
  refine ⟨trimmedPieces front, trim last, trim first, trimmedPieces others, ?_, ?_, ?_⟩
  · rw [Rule.pieces, cut, gaps, trimmedPieces_append, trimmedPieces_singleton endsLast.not_blank]
  · rw [Rule.pieces, found, trimmedPieces_cons, trimmedPieces_singleton startsFirst.not_blank]
    rfl
  · have inked : ¬Blank (last ++ (blanks ++ first)) := by
      intro blank
      exact startsFirst.not_blank (blank_append.mp (blank_append.mp blank).2).2
    have enclosed := trim_enclosed endsLast startsFirst blanks
    rw [List.append_assoc] at enclosed
    rw [Rule.pieces, cut, List.append_assoc, all, trimmedPieces_append, trimmedPieces_cons,
      trimmedPieces_singleton inked, enclosed, List.append_assoc]
    rfl

end Rule.CutsBlanks

end ProseTree
