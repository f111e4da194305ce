import ProseTree.Proofs.Segmentation.Respacing

namespace ProseTree.Segmentation

/-! Expressions are found alike in texts that differ in their white space only, and they
have the same values, as far as the white space in them may stand between tokens. -/

open Text Expression

variable {rule : Rule} {text other run blanks left otherLeft : Text} {c : Char}
  {before otherBefore : Option Char} {spelled : List Terminal} {terminal : Terminal}
  {value : Binary64}

theorem occurrences_cutAfter_of_eq_zero (nothing : rule before (c :: text) = 0) :
    (cutAfter rule before (c :: text)).occurrences = (cutAfter rule (some c) text).occurrences := by
  rw [cutAfter, nothing]
  exact Segments.occurrences_push c _

theorem occurrences_cutAfter_of_ne_zero (some : rule before (c :: text) ≠ 0) :
    (cutAfter rule before (c :: text)).occurrences =
      (c :: text).take (rule before (c :: text)) ::
        (cutAfter rule ((c :: text).take (rule before (c :: text))).getLast?
          ((c :: text).drop (rule before (c :: text)))).occurrences := by
  obtain ⟨more, taken⟩ := Nat.exists_eq_add_one_of_ne_zero some
  rw [cutAfter, taken]
  rfl

/-- No expression begins before the first digit. -/
theorem occurrences_append (digitless : ∀ c ∈ run, isDigit c = false) (nonempty : run ≠ [])
    (before : Option Char) (text : Text) :
    (cutAfter Style.bare.rule before (run ++ text)).occurrences =
      (cutAfter Style.bare.rule run.getLast? text).occurrences := by
  induction run generalizing before with
  | nil => exact absurd rfl nonempty
  | cons c rest ih =>
      obtain ⟨noDigit, others⟩ := List.forall_mem_cons.mp digitless
      have nothing : Style.bare.rule before (c :: (rest ++ text)) = 0 := by
        apply bareLength_eq_zero
        simp [bareEnds, wholeLength, noDigit]
      rw [List.cons_append, occurrences_cutAfter_of_eq_zero nothing]
      by_cases atEnd : rest = []
      · rw [atEnd]
        rfl
      · rw [ih others atEnd, List.getLast?_cons, List.getLast?_eq_some_getLast atEnd]
        rfl

theorem digitless_of_blank (blank : Blank blanks) : ∀ c ∈ blanks, isDigit c = false :=
  fun c member => not_isDigit_of_isBlank (blank c member)

theorem noWord_getLast? (blank : Blank blanks) : blanks.getLast?.any isWordChar = false := by
  cases last : blanks.getLast? with
  | none => rfl
  | some c => exact not_isWordChar_of_isBlank (blank c (List.mem_of_getLast? last))

theorem endsWord_of_mem_bareEnds {stop : Nat} (isEnd : stop ∈ bareEnds text) :
    stop ≠ 0 ∧ (text.take stop).getLast?.any isWordChar = true := by
  obtain ⟨last, isLast, digit⟩ := (upToDigit_of_mem_bareEnds isEnd).2.ends
  constructor
  · rintro rfl
    simp at isLast
  · rw [isLast]
    exact isWordChar_of_isDigit digit

theorem Respaced.occurrences (respaced : Respaced text other)
    (same : before.any isWordChar = otherBefore.any isWordChar) :
    List.Forall₂ Respaced (cutAfter Style.bare.rule before text).occurrences
      (cutAfter Style.bare.rule otherBefore other).occurrences := by
  induction length : text.length using Nat.strong_induction_on
    generalizing text other before otherBefore with
  | h size ih =>
      cases respaced with
      | done =>
          rw [cutAfter, cutAfter]
          exact .nil
      | @ink c text other inked rest =>
          have taken := Respaced.taken_cases (.ink inked rest) same
          rcases taken with ⟨none, otherNone⟩ | ⟨isEnd, otherIsEnd, parallel⟩
          · rw [occurrences_cutAfter_of_eq_zero none, occurrences_cutAfter_of_eq_zero otherNone]
            exact ih text.length (by simp [← length]) rest rfl rfl
          · obtain ⟨some, word⟩ := endsWord_of_mem_bareEnds isEnd
            obtain ⟨otherSome, otherWord⟩ := endsWord_of_mem_bareEnds otherIsEnd
            rw [occurrences_cutAfter_of_ne_zero some, occurrences_cutAfter_of_ne_zero otherSome]
            refine .cons parallel.front (ih _ ?_ parallel.back (word.trans otherWord.symm) rfl)
            rw [List.length_drop, ← length, List.length_cons]
            omega
      | @gap blanks otherBlanks text other blank nonempty otherBlank otherNonempty rest =>
          rw [occurrences_append (digitless_of_blank blank) nonempty,
            occurrences_append (digitless_of_blank otherBlank) otherNonempty]
          have positive := List.length_pos_iff.mpr nonempty
          refine ih text.length ?_ rest ?_ rfl
          · rw [← length, List.length_append]
            omega
          · rw [noWord_getLast? blank, noWord_getLast? otherBlank]
      | @closed terminator opener blanks otherBlanks text other terminates opens blank otherBlank
          rest =>
          have digitless : ∀ {blanks : Text}, Blank blanks →
              ∀ c ∈ terminator :: (blanks ++ [opener]), isDigit c = false := by
            intro blanks blank c member
            simp only [List.mem_cons, List.mem_append, List.not_mem_nil, or_false] at member
            rcases member with rfl | inside | rfl
            · exact not_isDigit_of_isTerminator terminates
            · exact digitless_of_blank blank c inside
            · exact not_isDigit_of_isOpener opens
          have first := occurrences_append (digitless blank) (List.cons_ne_nil _ _) before text
          have second := occurrences_append (digitless otherBlank) (List.cons_ne_nil _ _)
            otherBefore other
          simp only [List.cons_append, List.append_assoc, List.nil_append] at first second
          rw [first, second]
          refine ih text.length ?_ rest ?_ rfl
          · rw [← length, List.length_cons, List.length_append, List.length_cons]
            omega
          · rw [← List.cons_append, ← List.cons_append, List.getLast?_concat, List.getLast?_concat]

/-- A text that is cut apart has the tokens of its two parts. -/
theorem lexes_append_iff {front : List Terminal} (inLeft : Lexes left front)
    (apart : Apart left text) :
    Lexes (left ++ text) spelled ↔ ∃ back, spelled = front ++ back ∧ Lexes text back := by
  constructor
  · intro lexes
    obtain ⟨own, back, rfl, inLeft', inText⟩ := lexes.split rfl apart
    obtain rfl := inLeft'.unique inLeft
    exact ⟨back, rfl, inText⟩
  · rintro ⟨back, rfl, inText⟩
    exact inLeft.append inText apart

theorem lexes_gaps (gaps : ∀ c ∈ blanks, isGap c = true) : Lexes blanks [] := by
  induction blanks with
  | nil => exact .done
  | cons c rest ih =>
      obtain ⟨gap, others⟩ := List.forall_mem_cons.mp gaps
      exact .gap gap (ih others)

theorem apart_of_not_isNumeral (other : isNumeral c = false) (left text : Text) :
    Apart (left ++ [c]) text := by
  intro ends
  rw [endsNumeral_append_singleton, other] at ends
  contradiction

theorem lexes_gaps_append (gaps : ∀ c ∈ blanks, isGap c = true) :
    Lexes (blanks ++ text) spelled ↔ Lexes text spelled := by
  have apart : Apart blanks text := by
    rcases List.eq_nil_or_concat blanks with rfl | ⟨init, last, rfl⟩
    · exact fun ends => absurd ends (by decide)
    · rw [List.concat_eq_append]
      exact apart_of_not_isNumeral (not_isNumeral_of_isGap (gaps last (by simp))) init text
  rw [lexes_append_iff (lexes_gaps gaps) apart]
  simp

theorem lexes_cons_symbol (found : Terminal.ofChar? c = some terminal) :
    Lexes (c :: text) spelled ↔ ∃ back, spelled = terminal :: back ∧ Lexes text back :=
  lexes_append_iff (.symbol found .done)
    (apart_of_not_isNumeral (not_isNumeral_of_ofChar? found) [] text)

theorem lexes_run (nonempty : run ≠ []) (made : ∀ c ∈ run, isNumeral c = true)
    (stops : startsNumeral text = false) :
    Lexes (run ++ text) spelled ↔ ∃ back, spelled = .numeral run :: back ∧ Lexes text back := by
  have inRun : Lexes (run ++ []) [.numeral run] := .numeral nonempty made rfl .done
  rw [List.append_nil] at inRun
  exact lexes_append_iff inRun fun _ => stops

/-- A digit or point in front of a number belongs to the number. -/
theorem lexes_cons_run (numeral : isNumeral c = true) (starts : startsNumeral text = true) :
    Lexes (c :: text) spelled ↔ ∃ run back, spelled = .numeral (c :: run) :: back ∧
      Lexes text (.numeral run :: back) := by
  obtain ⟨run, rest, rfl, nonempty, made, stops⟩ := exists_nonempty_run starts
  have longer : ∀ d ∈ c :: run, isNumeral d = true := List.forall_mem_cons.mpr ⟨numeral, made⟩
  rw [← List.cons_append, lexes_run (List.cons_ne_nil c run) longer stops]
  simp only [lexes_run nonempty made stops]
  constructor
  · rintro ⟨back, rfl, inRest⟩
    exact ⟨run, back, rfl, back, rfl, inRest⟩
  · rintro ⟨own, back, rfl, behind, same, inRest⟩
    obtain ⟨sameRun, rfl⟩ := List.cons.inj same
    obtain rfl := Terminal.numeral.inj sameRun
    exact ⟨back, rfl, inRest⟩

theorem isBareChar_cases (made : isBareChar c = true) (inked : isBlank c = false) :
    isNumeral c = true ∨ ∃ terminal, Terminal.ofChar? c = some terminal := by
  rw [isBareChar, inked, Bool.or_false, Bool.or_eq_true] at made
  rcases made with numeral | operator
  · exact .inl numeral
  · rcases isOperator_cases operator with rfl | rfl | rfl | rfl <;> exact .inr ⟨_, rfl⟩

theorem Respaced.lexes_iff (respaced : Respaced text other)
    (made : ∀ c ∈ text, isBareChar c = true)
    (gaps : ∀ c ∈ text, isBlank c = true → isGap c = true)
    (otherGaps : ∀ c ∈ other, isBlank c = true → isGap c = true) :
    Lexes text spelled ↔ Lexes other spelled := by
  induction respaced generalizing spelled with
  | done => exact Iff.rfl
  | @ink c text other inked rest ih =>
      obtain ⟨madeHere, made⟩ := List.forall_mem_cons.mp made
      have same : ∀ {spelled}, Lexes text spelled ↔ Lexes other spelled :=
        ih made (List.forall_mem_cons.mp gaps).2 (List.forall_mem_cons.mp otherGaps).2
      rcases isBareChar_cases madeHere inked with numeral | ⟨terminal, found⟩
      · have alike : startsNumeral text = startsNumeral other :=
          rest.head_any fun c blank => not_isNumeral_of_isBlank blank
        cases starts : startsNumeral other with
        | true =>
            rw [lexes_cons_run numeral starts, lexes_cons_run numeral (alike.trans starts)]
            simp only [same]
        | false =>
            have single : ∀ d ∈ [c], isNumeral d = true := by simpa using numeral
            have here := @lexes_run text [c] spelled (List.cons_ne_nil c []) single
              (alike.trans starts)
            have there := @lexes_run other [c] spelled (List.cons_ne_nil c []) single starts
            simp only [same] at here
            exact here.trans there.symm
      · rw [lexes_cons_symbol found, lexes_cons_symbol found]
        simp only [same]
  | gap blank nonempty otherBlank otherNonempty rest ih =>
      obtain ⟨-, made⟩ := List.forall_mem_append.mp made
      obtain ⟨gapsFront, gaps⟩ := List.forall_mem_append.mp gaps
      obtain ⟨otherGapsFront, otherGaps⟩ := List.forall_mem_append.mp otherGaps
      rw [lexes_gaps_append fun c member => gapsFront c member (blank c member),
        lexes_gaps_append fun c member => otherGapsFront c member (otherBlank c member),
        ih made gaps otherGaps]
  | @closed terminator opener blanks otherBlanks text other terminates opens blank otherBlank rest =>
      have madeOpener := made opener (by simp)
      rw [not_isBareChar_of_isOpener opens] at madeOpener
      contradiction

/-- The text with a space for every blank. -/
def spaced (text : Text) : Text := text.map fun c => if isBlank c then ' ' else c

theorem spaced_of_blank (blank : Blank blanks) : Blank (spaced blanks) := by
  intro c member
  obtain ⟨d, inBlanks, rfl⟩ := List.mem_map.mp member
  rw [if_pos (blank d inBlanks)]
  decide

theorem spaced_cons_ink (inked : isBlank c = false) : spaced (c :: text) = c :: spaced text := by
  simp [spaced, inked]

theorem spaced_append (left right : Text) : spaced (left ++ right) = spaced left ++ spaced right :=
  List.map_append

theorem Respaced.spaced_left (respaced : Respaced text other) : Respaced (spaced text) other := by
  induction respaced with
  | done => exact .done
  | ink inked rest ih =>
      rw [spaced_cons_ink inked]
      exact .ink inked ih
  | gap blank nonempty otherBlank otherNonempty rest ih =>
      rw [spaced_append]
      exact .gap (spaced_of_blank blank) (by simpa [spaced] using nonempty) otherBlank
        otherNonempty ih
  | @closed terminator opener blanks otherBlanks text other terminates opens blank otherBlank rest ih =>
      rw [spaced_cons_ink (not_isBlank_of_isTerminator terminates), spaced_append,
        spaced_cons_ink (not_isBlank_of_isOpener opens)]
      exact .closed terminates opens (spaced_of_blank blank) otherBlank ih

theorem evaluate_respaced (respaced : Respaced text other) (made : ∀ c ∈ text, isBareChar c = true)
    (gaps : ∀ c ∈ text, isBlank c = true → isGap c = true)
    (otherGaps : ∀ c ∈ other, isBlank c = true → isGap c = true) :
    evaluate text = .ok value ↔ evaluate other = .ok value := by
  simp only [evaluate_eq_ok_iff, Reading.Passes, respaced.lexes_iff made gaps otherGaps]

theorem evaluate_spaced (respaced : Respaced text other) (made : ∀ c ∈ text, isBareChar c = true)
    (otherGaps : ∀ c ∈ other, isBlank c = true → isGap c = true) :
    evaluate (spaced text) = .ok value ↔ evaluate other = .ok value := by
  refine evaluate_respaced respaced.spaced_left ?_ ?_ otherGaps
  · intro c member
    obtain ⟨d, inText, rfl⟩ := List.mem_map.mp member
    split
    · decide
    · exact made d inText
  · intro c member
    obtain ⟨d, inText, rfl⟩ := List.mem_map.mp member
    split
    · exact fun _ => by decide
    · exact fun blank => absurd blank ‹_›

theorem forall_mem_iff_of_forall₂ {α β : Type} {R : α → β → Prop} {P : α → Prop} {Q : β → Prop}
    {xs : List α} {ys : List β} (together : List.Forall₂ R xs ys)
    (same : ∀ x ∈ xs, ∀ y ∈ ys, R x y → (P x ↔ Q y)) : (∀ x ∈ xs, P x) ↔ ∀ y ∈ ys, Q y := by
  induction together with
  | nil => simp
  | @cons x y xs ys here rest ih =>
      rw [List.forall_mem_cons, List.forall_mem_cons, same x (by simp) y (by simp) here,
        ih fun x inXs y inYs => same x (by simp [inXs]) y (by simp [inYs])]

theorem isBareChar_of_mem_occurrences {occurrence : Text}
    (isOccurrence : occurrence ∈ (text.cut Style.bare.rule).occurrences) :
    ∀ c ∈ occurrence, isBareChar c = true := by
  apply @occurrence_of_cutAfter _ fun occurrence => ∀ c ∈ occurrence, isBareChar c = true
  · intro before text some
    rcases @Respaced.taken_cases _ _ before before (Respaced.refl text) rfl with
      ⟨none, -⟩ | ⟨isEnd, -⟩
    · contradiction
    · exact (upToDigit_of_mem_bareEnds isEnd).2.made
  · exact isOccurrence

/-- Where nothing is replaced in the one text, nothing is in the other unless an expression
that was skipped has a value with spaces in it. -/
theorem Respaced.replaced_eq_nil_iff (respaced : Respaced text other)
    (otherGaps : ∀ c ∈ other, isBlank c = true → isGap c = true)
    (nothing : (sweep .bare text).replaced = []) :
    (sweep .bare other).replaced = [] ↔ ∀ skipped ∈ (sweep .bare text).skipped, ∀ value,
      evaluate (spaced skipped.expression) ≠ .ok value := by
  have expressions : ((sweep .bare text).skipped.map Skipped.expression) =
      (text.cut Style.bare.rule).occurrences :=
    (skipped_of_replaced_nil nothing).trans (List.map_id' _)
  calc (sweep .bare other).replaced = []
      ↔ ∀ occurrence ∈ (other.cut Style.bare.rule).occurrences, ∀ value,
          evaluate occurrence ≠ .ok value := Expression.replaced_eq_nil_iff
    _ ↔ ∀ occurrence ∈ (text.cut Style.bare.rule).occurrences, ∀ value,
          evaluate (spaced occurrence) ≠ .ok value := by
        refine (forall_mem_iff_of_forall₂ (respaced.occurrences rfl) ?_).symm
        intro occurrence isOccurrence otherOccurrence isOther together
        have gapsInside : ∀ c ∈ otherOccurrence, isBlank c = true → isGap c = true := by
          intro c member
          have inText := Segments.mem_join_of_mem_occurrences isOther member
          rw [join_cutAfter] at inText
          exact otherGaps c inText
        simp only [ne_eq, evaluate_spaced together (isBareChar_of_mem_occurrences isOccurrence)
          gapsInside]
    _ ↔ ∀ skipped ∈ (sweep .bare text).skipped, ∀ value,
          evaluate (spaced skipped.expression) ≠ .ok value := by
        rw [← expressions, List.forall_mem_map]

theorem load_blank (blank : Blank blanks) (left : Text) : load left blanks = 0 := by
  induction blanks generalizing left with
  | nil => rfl
  | cons c rest ih =>
      obtain ⟨isBlank, others⟩ := blank_cons.mp blank
      have noOperator : isOperator c = false := apart_comm not_isBlank_of_isOperator isBlank
      rw [load, ih others, charge, digitless_of_blank blank c (by simp), noOperator]
      simp

theorem sameEdge_of_blank {otherBlanks : Text} (edge : SameEdge left otherLeft) (blank : Blank blanks)
    (nonempty : blanks ≠ []) (otherBlank : Blank otherBlanks) (otherNonempty : otherBlanks ≠ []) :
    SameEdge (left ++ blanks) (otherLeft ++ otherBlanks) := by
  have noNumber : ∀ {left blanks : Text}, Blank blanks → blanks ≠ [] →
      endsNumeral (left ++ blanks) = false := by
    intro left blanks blank nonempty
    rw [endsNumeral_append nonempty, endsNumeral, List.getLast?_eq_some_getLast nonempty]
    exact not_isNumeral_of_isBlank (blank _ (List.getLast_mem nonempty))
  constructor
  · rw [noNumber blank nonempty, noNumber otherBlank otherNonempty]
  · rw [followsDigit_append_blank blank, followsDigit_append_blank otherBlank, edge.digit]

theorem sameEdge_of_ink (inked : isBlank c = false) (left other : Text) :
    SameEdge (left ++ [c]) (other ++ [c]) := by
  constructor
  · rw [endsNumeral_append_singleton, endsNumeral_append_singleton]
  · rw [followsDigit_append_singleton, followsDigit_append_singleton, inked,
      if_neg Bool.false_ne_true, if_neg Bool.false_ne_true]

theorem charge_of_isOpener (opens : isOpener c = true) (left : Text) : charge left c = 0 := by
  have other := not_isBareChar_of_isOpener opens
  simp only [isBareChar, Bool.or_eq_false_iff] at other
  simp [charge, other.1.1.1, other.2]

theorem Respaced.load_eq (respaced : Respaced text other) (edge : SameEdge left otherLeft) :
    load left text = load otherLeft other := by
  induction respaced generalizing left otherLeft with
  | done => rfl
  | @ink c text other inked rest ih =>
      rw [load, load, charge_congr edge, ih (edge.append_singleton c)]
  | gap blank nonempty otherBlank otherNonempty rest ih =>
      rw [load_append, load_append, load_blank blank, load_blank otherBlank,
        ih (sameEdge_of_blank edge blank nonempty otherBlank otherNonempty)]
  | closed terminates opens blank otherBlank rest ih =>
      rw [load, load, charge_congr edge, load_append, load_append, load_blank blank,
        load_blank otherBlank, load, load, charge_of_isOpener opens, charge_of_isOpener opens,
        ih (sameEdge_of_ink (not_isBlank_of_isOpener opens) _ _)]

end ProseTree.Segmentation
