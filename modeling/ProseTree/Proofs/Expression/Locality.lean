import ProseTree.Proofs.Expression.Barrier
import ProseTree.Proofs.Expression.Foreign

namespace ProseTree.Expression

/-! Reducing is local: a word with white space around it keeps two texts apart.

No bare expression reaches into the word.  A group may reach over it, from a parenthesis that is
open on the left to one that is closed on the right, but then the word is inside the group,
which has no value.  What such a group takes up holds no other group, so nothing is hidden by
it. -/

open Text Nest

variable {text inner front word back : Text} {c : Char}

/-- A letter, of any script: a word character that is none of the digits of numbers.  Marks,
connectors and the digits of other scripts pass as letters. -/
def isLetter (c : Char) : Bool := isWordChar c && !isDigit c

/-- White space, a word that is foreign to expressions, and white space again. -/
structure Divides (front word back : Text) : Prop where
  blankFront : Blank front
  blankBack : Blank back
  beginsBlank : front ≠ []
  endsBlank : back ≠ []
  nonempty : word ≠ []
  each : ∀ c ∈ word, isForeign c = true ∧ isBlank c = false

theorem isForeign_of_isLetter (letter : isLetter c = true) : isForeign c = true := by
  have noLetter : ∀ code < 0x41, isLetter (Char.ofNat code) = false := by decide +kernel
  rw [← Bool.not_eq_false]
  intro ofExpression
  have here := noLetter _ (toNat_lt_of_not_isForeign ofExpression)
  rw [Char.ofNat_toNat, letter] at here
  contradiction

theorem not_isBlank_of_isLetter (letter : isLetter c = true) : isBlank c = false := by
  obtain ⟨inWord, -⟩ := Bool.and_eq_true_iff.mp letter
  exact apart_comm not_isWordChar_of_isBlank inWord

/-- Where no digit stands, no bare expression begins. -/
theorem substitute_digitless (noDigit : ∀ c ∈ text, isDigit c = false) (before : Option Char)
    (right : Text) :
    (substitute .bare (cutAfter Style.bare.rule before (text ++ right))).text =
      text ++ (substitute .bare
        (cutAfter Style.bare.rule (text.getLast?.or before) right)).text := by
  induction text generalizing before with
  | nil => rfl
  | cons c rest ih =>
      obtain ⟨other, others⟩ := List.forall_mem_cons.mp noDigit
      have nothing : Style.bare.rule before (c :: (rest ++ right)) = 0 := by
        apply bareLength_eq_zero
        simp [bareEnds, wholeLength, other]
      rw [List.cons_append, cutAfter, nothing]
      dsimp only
      rw [substitute_push, ih others, List.getLast?_cons]
      cases rest.getLast? <;> rfl

theorem sweep_digitless (noDigit : ∀ c ∈ text, isDigit c = false)
    (noWord : text.getLast?.any isWordChar = false) (right : Text) :
    (sweep .bare (text ++ right)).text = text ++ (sweep .bare right).text := by
  have fresh : (text.getLast?.or none).any isWordChar = none.any isWordChar := by
    rw [Option.or_none, noWord]
    rfl
  rw [sweep, cut, substitute_digitless noDigit, cutAfter_bare fresh]
  rfl

namespace Divides

variable (divides : Divides front word back)
include divides

theorem forall_mem {P : Char → Prop} (ofBlank : ∀ c, isBlank c = true → P c)
    (ofForeign : ∀ c, isForeign c = true → P c) : ∀ c ∈ front ++ word ++ back, P c := by
  intro c member
  rcases List.mem_append.mp member with inFront | inBack
  · rcases List.mem_append.mp inFront with blank | inWord
    · exact ofBlank c (divides.blankFront c blank)
    · exact ofForeign c (divides.each c inWord).1
  · exact ofBlank c (divides.blankBack c inBack)

theorem bars (right : Text) : Bars (front ++ (word ++ back ++ right)) := by
  constructor
  · obtain ⟨c, rest, rfl⟩ := List.exists_cons_of_ne_nil divides.beginsBlank
    rintro d ⟨⟩
    have blank := divides.blankFront c (by simp)
    refine ⟨not_isWordChar_of_isBlank blank, ?_⟩
    rintro rfl
    exact absurd blank (by decide)
  · obtain ⟨c, rest, rfl⟩ := List.exists_cons_of_ne_nil divides.nonempty
    obtain ⟨foreign, inked⟩ := divides.each c (by simp)
    obtain ⟨-, noNumeral, noOperator, -⟩ := isForeign_iff.mp foreign
    rw [List.dropWhile_append_of_pos divides.blankFront, List.cons_append, List.cons_append,
      List.dropWhile_cons_of_neg (by simp [inked])]
    rintro d ⟨⟩
    exact ⟨noOperator, not_isDigit_of_isNumeral_eq_false noNumeral⟩

theorem not_isDigit : ∀ c ∈ front ++ word ++ back, isDigit c = false :=
  divides.forall_mem (fun _ => not_isDigit_of_isBlank)
    fun _ foreign => not_isDigit_of_isNumeral_eq_false (isForeign_iff.mp foreign).2.1

theorem not_isParenthesis : ∀ c ∈ front ++ word ++ back, isParenthesis c = false :=
  divides.forall_mem (fun _ blank => not_isParenthesis_of_isBareChar (by simp [isBareChar, blank]))
    fun _ foreign => (isForeign_iff.mp foreign).2.2.2

theorem some_foreign : foreign (front ++ word ++ back) ≠ [] := by
  intro none
  obtain ⟨c, rest, rfl⟩ := List.exists_cons_of_ne_nil divides.nonempty
  have kept : c ∈ foreign (front ++ c :: rest ++ back) :=
    List.mem_filter.mpr ⟨by simp, (divides.each c (by simp)).1⟩
  rw [none] at kept
  contradiction

theorem parts_bare : Parts .bare (front ++ word ++ back) := by
  intro left right
  have noWord : back.getLast?.any isWordChar = false := by
    rw [List.getLast?_eq_some_getLast divides.endsBlank]
    exact not_isWordChar_of_isBlank (divides.blankBack _ (List.getLast_mem _))
  have noDigit := divides.not_isDigit
  have bars := divides.bars right
  obtain ⟨c, rest, rfl⟩ := List.exists_cons_of_ne_nil divides.beginsBlank
  have behind : (sweep .bare (rest ++ word ++ back ++ right)).text =
      rest ++ word ++ back ++ (sweep .bare right).text := by
    apply sweep_digitless
    · exact (List.forall_mem_cons.mp noDigit).2
    · rwa [List.getLast?_append_of_ne_nil _ divides.endsBlank]
  have swept := @Bars.sweep_append (rest ++ (word ++ back ++ right)) c bars left
  simp only [List.append_assoc, List.cons_append] at swept behind ⊢
  rw [swept, behind]

end Divides

theorem groupLength_unclosed (flat : ∀ c ∈ inner, isParenthesis c = false) :
    groupLength ('(' :: inner) = 0 := by
  have whole : inner.takeWhile (!isParenthesis ·) = inner :=
    List.takeWhile_eq_self_iff.mpr (by simpa using flat)
  simp only [groupLength, whole, List.drop_length]

/-- Behind a parenthesis that is open as far as a foreign character, nothing is replaced before
the next parenthesis, whether that closes a group or not. -/
theorem sweep_open (flat : ∀ c ∈ inner, isParenthesis c = false) (some : foreign inner ≠ [])
    (right : Text) : (sweep .group ('(' :: (inner ++ right))).text =
      '(' :: (inner ++ (sweep .group right).text) := by
  by_cases nothing : groupLength ('(' :: (inner ++ right)) = 0
  · rw [sweep_skip nothing, sweep_plain right flat]
  · rcases exists_first isParenthesis right with plain | ⟨front, c, rest, rfl, plain, first⟩
    · exact absurd (groupLength_unclosed (List.forall_mem_append.mpr ⟨flat, plain⟩)) nothing
    · have whole : ∀ c ∈ inner ++ front, isParenthesis c = false :=
        List.forall_mem_append.mpr ⟨flat, plain⟩
      have noValue : ∀ value, evaluate (inner ++ front) ≠ .ok value := by
        intro value evaluated
        have none := foreign_of_evaluate evaluated
        rw [foreign_append] at none
        exact some (List.append_eq_nil_iff.mp none).1
      rw [← List.append_assoc] at nothing ⊢
      rcases isParenthesis_iff.mp first with rfl | rfl
      · exact absurd (groupLength_open whole) nothing
      · have operator : (inner ++ front).any isOperator = true := by
          by_contra noOperator
          simp only [groupLength, takeWhile_flat whole first, List.drop_left,
            if_neg noOperator, not_true_eq_false] at nothing
        rw [sweep_closed whole operator, sweep_plain _ plain,
          sweep_skip (groupLength_other (by decide))]
        cases evaluated : evaluate (inner ++ front) with
        | ok value => exact absurd evaluated (noValue value)
        | error error => simp

/-- A group is found no matter what is behind it, so another text behind can only make one of
a parenthesis that is open to the end. -/
theorem groupLength_append (c : Char) (rest right : Text) :
    groupLength (c :: (rest ++ right)) = groupLength (c :: rest) ∨
      c = '(' ∧ ∀ d ∈ rest, isParenthesis d = false := by
  by_cases opens : c = '('
  · subst opens
    rcases exists_first isParenthesis rest with flat | ⟨inner, d, back, rfl, flat, first⟩
    · exact .inr ⟨rfl, flat⟩
    · refine .inl ?_
      simp only [groupLength, List.append_assoc, List.cons_append, takeWhile_flat flat first,
        List.drop_left]
      rcases isParenthesis_iff.mp first with rfl | rfl <;> rfl
  · exact .inl ((groupLength_other opens).trans (groupLength_other opens).symm)

theorem exists_group (found : groupLength text ≠ 0) : ∃ inner rest,
    text = '(' :: (inner ++ ')' :: rest) ∧ (∀ c ∈ inner, isParenthesis c = false) ∧
      inner.any isOperator = true := by
  obtain ⟨inner, group⟩ := isGroup_take found
  have whole := List.take_append_drop (groupLength text) text
  rw [group.spelled] at whole
  exact ⟨inner, text.drop (groupLength text), by simpa using whole.symm, group.flat,
    group.operator⟩

theorem Divides.parts_group (divides : Divides front word back) :
    Parts .group (front ++ word ++ back) := by
  have flat := divides.not_isParenthesis
  have someForeign := divides.some_foreign
  generalize front ++ word ++ back = middle at flat someForeign ⊢
  intro left right
  induction size : left.length using Nat.strongRecOn generalizing left with
  | ind size ih =>
      subst size
      cases left with
      | nil => rw [List.nil_append, sweep_plain right flat, sweep_nil, List.nil_append]
      | cons c rest =>
          rw [List.append_assoc]
          by_cases nothing : groupLength (c :: rest) = 0
          · rcases groupLength_append c rest (middle ++ right) with same | ⟨rfl, plain⟩
            · have behind := ih rest.length (Nat.lt_succ_self _) rest rfl
              rw [List.append_assoc] at behind
              rw [List.cons_append, sweep_skip (same.trans nothing), sweep_skip nothing, behind]
              simp
            · have opened := sweep_open (List.forall_mem_append.mpr ⟨plain, flat⟩)
                (by simp [someForeign]) right
              have kept := sweep_plain [] plain
              rw [List.append_nil, sweep_nil, List.append_nil] at kept
              rw [sweep_skip nothing, kept]
              simpa using opened
          · obtain ⟨inner, behind, spelled, plain, operator⟩ := exists_group nothing
            have shorter : behind.length < (c :: rest).length := by
              rw [spelled]
              simp only [List.length_cons, List.length_append]
              omega
            have further := ih behind.length shorter behind rfl
            rw [List.append_assoc] at further
            rw [spelled, sweep_closed plain operator]
            simp only [List.cons_append, List.append_assoc]
            rw [sweep_closed plain operator]
            cases evaluate inner with
            | ok value => simp [further]
            | error error => simp [further]

/-- A word with white space around it keeps the texts on its sides apart, though a parenthesis
be open before it and one closed behind it: each is reduced as if it stood on its own, and what
is between them stays. -/
theorem reduce_divided (blankFront : Blank front) (beginsBlank : front ≠ [])
    (letters : ∀ c ∈ word, isLetter c = true) (nonempty : word ≠ []) (blankBack : Blank back)
    (endsBlank : back ≠ []) (left right : Text) :
    (reduce (left ++ (front ++ word ++ back) ++ right)).text =
      (reduce left).text ++ (front ++ word ++ back) ++ (reduce right).text := by
  have divides : Divides front word back := by
    refine ⟨blankFront, blankBack, beginsBlank, endsBlank, nonempty, fun c member => ?_⟩
    have letter := letters c member
    exact ⟨isForeign_of_isLetter letter, not_isBlank_of_isLetter letter⟩
  simp only [reduce]
  rw [divides.parts_group.settle_append, divides.parts_bare.settle_append]

/-- Neither the open nor the closed parenthesis takes part, and each side has its own sum. -/
theorem reduce_divided_open :
    Blank [' '] ∧ (∀ c ∈ ['и'], isLetter c = true) ∧ Blank ['\n'] ∧
    (reduce ['(', '1', '+', '1', ' ', 'и', '\n', '1', '+', '1', ')']).text =
      ['(', '2', '.', '0', ' ', 'и', '\n', '2', '.', '0', ')'] := by
  have blankFront : Blank [' '] := by decide
  have letters : ∀ c ∈ ['и'], isLetter c = true := List.forall_mem_singleton.mpr (by decide)
  have blankBack : Blank ['\n'] := by decide
  have divided := reduce_divided blankFront (by decide) letters (by decide) blankBack (by decide)
    ['(', '1', '+', '1'] ['1', '+', '1', ')']
  have left : (reduce ['(', '1', '+', '1']).text = ['(', '2', '.', '0'] := by decide +kernel
  have right : (reduce ['1', '+', '1', ')']).text = ['2', '.', '0', ')'] := by decide +kernel
  rw [left, right] at divided
  exact ⟨blankFront, letters, blankBack, divided⟩

end ProseTree.Expression
