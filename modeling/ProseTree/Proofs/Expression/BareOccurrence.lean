import ProseTree.Expression.Reduce
import ProseTree.Proofs.Binary64.ReadBack
import ProseTree.Proofs.Text.Segments

namespace ProseTree.Expression

/-! What a bare expression looks like where it is found: digits at its two ends, nothing
but numbers, operators and blanks between them, and no word going on around it. -/

def isBareChar (c : Char) : Bool :=
  Text.isDigit c || c == '.' || Text.isBlank c || isOperator c

structure UpToDigit (run : Text) : Prop where
  made : ∀ c ∈ run, isBareChar c = true
  ends : ∃ c, run.getLast? = some c ∧ Text.isDigit c = true

structure IsBare (left occurrence right : Text) : Prop where
  begins : left.getLast?.any Text.isWordChar = false
  starts : ∃ c, occurrence.head? = some c ∧ Text.isDigit c = true
  upToDigit : UpToDigit occurrence
  noWord : startsWord right = false

variable {text front back left occurrence right : Text} {passed stop : Nat}

theorem UpToDigit.append (made : ∀ c ∈ front, isBareChar c = true) (run : UpToDigit back) :
    UpToDigit (front ++ back) := by
  obtain ⟨inBack, c, last, digit⟩ := run
  refine ⟨?_, c, ?_, digit⟩
  · intro d member
    rcases List.mem_append.mp member with here | later
    · exact made d here
    · exact inBack d later
  · rw [List.getLast?_append, last]
    rfl

theorem take_wholeLength (text : Text) :
    text.take (wholeLength text) = text.takeWhile Text.isDigit :=
  (List.prefix_iff_eq_take.mp (List.takeWhile_prefix Text.isDigit)).symm

theorem upToDigit_whole (some : wholeLength text ≠ 0) :
    UpToDigit (text.take (wholeLength text)) := by
  rw [take_wholeLength]
  have digits : ∀ c ∈ text.takeWhile Text.isDigit, Text.isDigit c = true :=
    fun c member => List.mem_takeWhile_imp member
  have nonempty : text.takeWhile Text.isDigit ≠ [] := List.ne_nil_of_length_pos (by
    rw [wholeLength] at some
    omega)
  refine ⟨?_, _, List.getLast?_eq_some_getLast nonempty, digits _ (List.getLast_mem nonempty)⟩
  intro c member
  rw [isBareChar, digits c member, Bool.true_or, Bool.true_or, Bool.true_or]

theorem upToDigit_fraction (some : fractionLength text ≠ 0) :
    UpToDigit (text.take (fractionLength text)) := by
  unfold fractionLength at some
  split at some
  · rename_i rest
    split at some
    · contradiction
    · rename_i digits
      rw [fractionLength, if_neg digits, List.take_succ_cons]
      exact @UpToDigit.append ['.'] _ (by simp [isBareChar]) (upToDigit_whole digits)
  · contradiction

theorem made_fraction : ∀ c ∈ text.take (fractionLength text), isBareChar c = true := by
  by_cases none : fractionLength text = 0
  · rw [none]
    simp
  · exact (upToDigit_fraction none).made

theorem made_join (some : joinLength text ≠ 0) :
    (∀ c ∈ text.take (joinLength text), isBareChar c = true) ∧
    wholeLength (text.drop (joinLength text)) ≠ 0 := by
  have blank : ∀ (run : Text), ∀ c ∈ run.takeWhile Text.isBlank, isBareChar c = true := by
    intro run c member
    have isBlank : Text.isBlank c = true := List.mem_takeWhile_imp member
    rw [isBareChar, isBlank, Bool.or_true, Bool.true_or]
  have taken : ∀ run : Text,
      run.take (run.takeWhile Text.isBlank).length = run.takeWhile Text.isBlank :=
    fun run => (List.prefix_iff_eq_take.mp (List.takeWhile_prefix Text.isBlank)).symm
  simp only [joinLength] at some ⊢
  split at some
  · contradiction
  · rename_i operator rest found
    split at some
    · rename_i joins
      simp only [if_pos joins, ← List.drop_drop, found]
      refine ⟨?_, joins.2⟩
      intro c member
      rw [Nat.add_assoc, List.take_add, taken, found, Nat.add_comm, List.take_succ_cons,
        taken] at member
      rcases List.mem_append.mp member with before | others
      · exact blank text c before
      · rcases List.mem_cons.mp others with rfl | after
        · rw [isBareChar, joins.1, Bool.or_true]
        · exact blank rest c after
    · contradiction

theorem upToDigit_of_mem_endsAfter (member : stop ∈ endsAfter passed text) :
    ∃ taken, stop = passed + taken ∧ UpToDigit (text.take taken) := by
  fun_induction endsAfter passed text with
  | case1 => contradiction
  | case2 passed text join atEnd whole fraction ih =>
      have joined := made_join atEnd
      have wholeUp : UpToDigit (text.take whole) := by
        rw [List.take_add]
        exact .append joined.1 (upToDigit_whole joined.2)
      have made : ∀ c ∈ text.take (whole + fraction), isBareChar c = true := by
        intro c member
        rw [List.take_add] at member
        rcases List.mem_append.mp member with here | later
        · exact wholeUp.made c here
        · exact made_fraction c later
      rcases List.mem_append.mp member with further | own
      · obtain ⟨taken, rfl, up⟩ := ih further
        refine ⟨whole + fraction + taken, by omega, ?_⟩
        rw [List.take_add]
        exact .append made up
      · split at own
        · obtain rfl := List.mem_singleton.mp own
          exact ⟨whole, rfl, wholeUp⟩
        · rename_i some
          rcases List.mem_cons.mp own with rfl | own
          · refine ⟨whole + fraction, by omega, ?_⟩
            rw [List.take_add]
            exact .append wholeUp.made (upToDigit_fraction some)
          · obtain rfl := List.mem_singleton.mp own
            exact ⟨whole, rfl, wholeUp⟩

theorem upToDigit_of_mem_bareEnds (member : stop ∈ bareEnds text) :
    wholeLength text ≠ 0 ∧ UpToDigit (text.take stop) := by
  simp only [bareEnds] at member
  split at member
  · contradiction
  · rename_i some
    obtain ⟨taken, rfl, up⟩ := upToDigit_of_mem_endsAfter member
    refine ⟨some, ?_⟩
    rw [List.take_add, List.take_add]
    refine .append ?_ up
    intro c member
    rcases List.mem_append.mp member with here | later
    · exact (upToDigit_whole some).made c here
    · exact made_fraction c later

theorem isBare_of_takenBy (taken : Text.TakenBy Style.bare.rule left occurrence right) :
    IsBare left occurrence right := by
  have behind := taken.left_over
  obtain ⟨nonempty, taken⟩ := taken
  simp only [Style.rule, bareLength] at taken behind
  split at taken
  · exact absurd taken.symm nonempty
  · rename_i begins
    rw [if_neg begins] at behind
    cases found : (bareEnds (occurrence ++ right)).find?
        fun stop => !startsWord ((occurrence ++ right).drop stop) with
    | none =>
        rw [found] at taken
        exact absurd taken.symm nonempty
    | some stop =>
        rw [found, Option.getD_some] at taken behind
        obtain ⟨some, up⟩ := upToDigit_of_mem_bareEnds (List.mem_of_find?_eq_some found)
        have noWord := List.find?_some found
        rw [taken] at up
        rw [behind] at noWord
        refine ⟨by simpa using begins, ?_, up, by simpa using noWord⟩
        cases occurrence with
        | nil => contradiction
        | cons c rest =>
            refine ⟨c, rfl, ?_⟩
            cases digit : Text.isDigit c with
            | true => rfl
            | false => simp [wholeLength, digit] at some

theorem not_isOperator_of_isNumeral {c : Char} (numeral : isNumeral c = true) :
    isOperator c = false := by
  rw [Bool.eq_false_iff]
  intro operator
  simp only [isOperator, Bool.or_eq_true, beq_iff_eq] at operator
  rcases operator with ((rfl | rfl) | rfl) | rfl <;> contradiction

theorem joinLength_eq_zero (noOperator : ∀ c ∈ text, isOperator c = false) :
    joinLength text = 0 := by
  simp only [joinLength]
  split
  · rfl
  · rename_i operator rest found
    have member : operator ∈ text := by
      apply List.mem_of_mem_drop (i := (text.takeWhile Text.isBlank).length)
      rw [found]
      simp
    rw [if_neg]
    rintro ⟨isOperator, -⟩
    rw [noOperator operator member] at isOperator
    contradiction

theorem bareEnds_eq_nil (noOperator : ∀ c ∈ text, isOperator c = false) : bareEnds text = [] := by
  simp only [bareEnds]
  split
  · rfl
  · rw [endsAfter, dif_pos]
    apply joinLength_eq_zero
    exact fun c member => noOperator c (List.mem_of_mem_drop member)

theorem bareLength_eq_zero {before : Option Char} (noEnd : bareEnds text = []) :
    bareLength before text = 0 := by
  simp [bareLength, noEnd]

theorem cutAfter_bare_run (before : Option Char) (run : ∀ c ∈ text, isNumeral c = true) :
    Text.cutAfter Style.bare.rule before text = .last text := by
  induction text generalizing before with
  | nil => rw [Text.cutAfter]
  | cons c rest ih =>
      have noOperator : ∀ d ∈ c :: rest, isOperator d = false :=
        fun d member => not_isOperator_of_isNumeral (run d member)
      have nothing : Style.bare.rule before (c :: rest) = 0 :=
        bareLength_eq_zero (bareEnds_eq_nil noOperator)
      rw [Text.cutAfter, nothing]
      dsimp only
      rw [ih _ fun d member => run d (by simp [member])]
      rfl

theorem cut_bare_text {value : Binary64} (finite : value.isFinite = true) :
    value.text.cut Style.bare.rule = .last value.text := by
  obtain ⟨negative, whole, fraction, written⟩ := Binary64.written_of_isFinite finite
  rw [written.text_eq, Text.cut]
  cases negative with
  | false => exact cutAfter_bare_run none written.numeral.run
  | true =>
      have nothing : Style.bare.rule none ('-' :: (whole ++ '.' :: fraction)) = 0 := by
        apply bareLength_eq_zero
        simp [bareEnds, wholeLength, Text.isDigit]
      rw [Binary64.signText, if_pos rfl, List.singleton_append, Text.cutAfter, nothing]
      dsimp only
      rw [cutAfter_bare_run _ written.numeral.run]
      rfl

end ProseTree.Expression
