import Mathlib.Data.Bool.AllAny
import ProseTree.Proofs.Expression.Barrier
import ProseTree.Proofs.Expression.Calculation
import ProseTree.Proofs.Expression.Foreign
import ProseTree.Proofs.Segmentation.RespacedReduction

namespace ProseTree.Expression

/-! What becomes of the calculations found in a text when they are evaluated.

They are expressions of the grammar as far as their white space may stand between tokens,
and then have a value, unless they divide by zero or grow too large.  Finding them allows all
white space; the first blank that may not stand between tokens is where evaluation stops. -/

open Text Segmentation

variable {text number run front back occurrence left right : Text} {c operator : Char}
  {terminal : Terminal} {skipped : Skipped}

/-- A tree without groups whose numerals can be read. -/
structure SumTree.Flat (tree : SumTree) : Prop where
  nests : tree.depth = 0
  written : tree.WellWritten

/-- The tree with a factor joined to its last product. -/
def SumTree.joinFactor (op : ProductOp) (operand : OperandTree) : SumTree → SumTree
  | .term product => .term (.join product op operand)
  | .join sum sumOp product => .join sum sumOp (.join product op operand)

theorem SumTree.yield_joinFactor (op : ProductOp) (operand : OperandTree) (tree : SumTree) :
    (tree.joinFactor op operand).yield = tree.yield ++ op.terminal :: operand.yield := by
  cases tree with
  | term product => rfl
  | join sum sumOp product => simp [joinFactor, yield, ProductTree.yield]

theorem SumTree.Flat.joinFactor {tree : SumTree} (flat : tree.Flat) (op : ProductOp)
    (numeral : IsNumeral number) : (tree.joinFactor op (.numeral number)).Flat := by
  obtain ⟨nests, written⟩ := flat
  cases tree with
  | term product => exact ⟨by simpa [SumTree.joinFactor, depth, ProductTree.depth,
      OperandTree.depth] using nests, written, numeral⟩
  | join sum sumOp product => exact ⟨by simpa [SumTree.joinFactor, depth, ProductTree.depth,
      OperandTree.depth] using nests, written.1, written.2, numeral⟩

theorem SumTree.Flat.join {tree : SumTree} (flat : tree.Flat) (op : SumOp)
    (numeral : IsNumeral number) : (SumTree.join tree op (.factor (.numeral number))).Flat :=
  ⟨by simpa [depth, ProductTree.depth, OperandTree.depth] using flat.nests, flat.written, numeral⟩

/-- An operation makes a longer tree: a sum of the tree, or a product of its last term. -/
theorem SumTree.Flat.exists_longer {tree : SumTree} (flat : tree.Flat)
    (isOperator : isOperator operator = true) (found : Terminal.ofChar? operator = some terminal)
    (numeral : IsNumeral number) :
    ∃ longer : SumTree, longer.Flat ∧ longer.yield = tree.yield ++ [terminal, .numeral number] := by
  rcases isOperator_cases isOperator with rfl | rfl | rfl | rfl <;>
    obtain rfl := Option.some.inj found
  · exact ⟨_, flat.join .plus numeral, rfl⟩
  · exact ⟨_, flat.join .minus numeral, rfl⟩
  · exact ⟨_, flat.joinFactor .times numeral, tree.yield_joinFactor _ _⟩
  · exact ⟨_, flat.joinFactor .over numeral, tree.yield_joinFactor _ _⟩

theorem Digits.count_point (digits : Digits run) : run.count '.' = 0 := by
  refine List.count_eq_zero.mpr fun member => ?_
  simpa [isDigit_point] using digits.digit '.' member

theorem Digits.isNumeral (digits : Digits run) : ∀ c ∈ run, isNumeral c = true := by
  intro c member
  rw [Expression.isNumeral, digits.digit c member, Bool.true_or]

theorem IsNumber.isNumeral (isNumber : IsNumber number) : IsNumeral number := by
  cases isNumber with
  | whole digits =>
      obtain ⟨c, member⟩ := List.exists_mem_of_ne_nil _ digits.nonempty
      exact ⟨digits.isNumeral, ⟨c, member, digits.digit c member⟩, by simp [digits.count_point]⟩
  | @fraction run fraction digits behind =>
      obtain ⟨c, member⟩ := List.exists_mem_of_ne_nil _ digits.nonempty
      refine ⟨?_, ⟨c, by simp [member], digits.digit c member⟩, ?_⟩
      · refine List.forall_mem_append.mpr ⟨digits.isNumeral, ?_⟩
        exact List.forall_mem_cons.mpr ⟨by decide, behind.isNumeral⟩
      · simp [digits.count_point, behind.count_point]

theorem IsNumber.ne_nil (isNumber : IsNumber number) : number ≠ [] := by
  cases isNumber with
  | whole digits => exact digits.nonempty
  | fraction digits behind => simp

theorem Operations.startsNumeral (operations : Operations text) : startsNumeral text = false := by
  by_cases some : text = []
  · rw [some]
    rfl
  · obtain ⟨c, isHead, kind⟩ := operations.head some []
    rw [List.append_nil] at isHead
    rw [Expression.startsNumeral, isHead]
    exact kind.elim not_isNumeral_of_isBlank not_isNumeral_of_isOperator

theorem exists_terminal (isOperator : isOperator operator = true) :
    ∃ terminal, Terminal.ofChar? operator = some terminal := by
  rcases isOperator_cases isOperator with rfl | rfl | rfl | rfl <;> exact ⟨_, rfl⟩

theorem Operations.exists_terminals (operations : Operations text)
    (gaps : ∀ c ∈ text, isBlank c = true → isGap c = true) :
    ∃ spelled, Lexes text spelled ∧ ∀ tree : SumTree, tree.Flat →
      ∃ longer : SumTree, longer.Flat ∧ longer.yield = tree.yield ++ spelled := by
  -- For every tree before the operations, since the first of them changes it for the others.
  induction operations with
  | none => exact ⟨[], .done, fun tree flat => ⟨tree, flat, (List.append_nil _).symm⟩⟩
  | @next front back number rest operator blankFront isOperator blankBack isNumber further ih =>
      simp only [List.mem_append, List.mem_cons] at gaps
      obtain ⟨terminal, found⟩ := exists_terminal isOperator
      obtain ⟨spelled, lexes, longerTree⟩ := ih fun c member => gaps c (by simp [member])
      have numeral := isNumber.isNumeral
      refine ⟨terminal :: .numeral number :: spelled, ?_, ?_⟩
      · rw [lexes_gaps_append fun c member => gaps c (.inl member) (blankFront c member)]
        refine .symbol found ?_
        rw [lexes_gaps_append fun c member => gaps c (by simp [member]) (blankBack c member)]
        exact .numeral isNumber.ne_nil numeral.run further.startsNumeral lexes
      · intro tree flat
        obtain ⟨middle, flatMiddle, yielded⟩ := flat.exists_longer isOperator found numeral
        obtain ⟨longer, flatLonger, yieldedAll⟩ := longerTree middle flatMiddle
        exact ⟨longer, flatLonger, by rw [yieldedAll, yielded, List.append_assoc]; rfl⟩

theorem Calculation.exists_tree (calculation : Calculation text)
    (gaps : ∀ c ∈ text, isBlank c = true → isGap c = true) :
    ∃ tree : SumTree, tree.Flat ∧ Lexes text tree.yield := by
  obtain ⟨isNumber, operations, some⟩ := calculation
  rename_i number operations
  have numeral := isNumber.isNumeral
  obtain ⟨spelled, lexes, longerTree⟩ := Operations.exists_terminals ‹_›
    fun c member => gaps c (List.mem_append_right _ member)
  have first : (SumTree.term (.factor (.numeral number))).Flat := ⟨rfl, numeral⟩
  obtain ⟨tree, flat, yielded⟩ := longerTree _ first
  refine ⟨tree, flat, ?_⟩
  rw [yielded]
  exact .numeral isNumber.ne_nil numeral.run (Operations.startsNumeral ‹_›) lexes

/-- A calculation is understood: it has a value, or one of the two things goes wrong that can
go wrong in computing. -/
theorem Calculation.evaluate_cases (calculation : Calculation text)
    (gaps : ∀ c ∈ text, isBlank c = true → isGap c = true) :
    (∃ value, evaluate text = .ok value) ∨ evaluate text = .error .divisionByZero ∨
      evaluate text = .error .notFinite := by
  obtain ⟨tree, flat, lexes⟩ := calculation.exists_tree gaps
  obtain ⟨found, read, spelled⟩ := lexes.tokensFrom_eq 0
  have valued := valueOfTokens_yield spelled flat.written (by rw [flat.nests]; exact Nat.zero_le _)
  have isTokens : tokens text = .ok found := read
  cases computed : tree.value with
  | none =>
      rw [computed] at valued
      exact .inr (.inl (by simp only [evaluate, isTokens, valued]))
  | some value =>
      rw [computed] at valued
      cases finite : value.isFinite with
      | true => exact .inl ⟨value, by simp only [evaluate, isTokens, valued, finite, if_true]⟩
      | false =>
          refine .inr (.inr ?_)
          simp only [evaluate, isTokens, valued, finite, Bool.false_eq_true, if_false]

theorem ofChar?_of_isForeign (foreign : isForeign c = true) : TokenKind.ofChar? c = none := by
  obtain ⟨-, -, noOperator, noParenthesis⟩ := isForeign_iff.mp foreign
  unfold TokenKind.ofChar?
  split <;> first | contradiction | rfl

theorem isForeign_of_ofChar? (noGap : isGap c ≠ true) (none : TokenKind.ofChar? c = none)
    (noNumeral : isNumeral c ≠ true) : isForeign c = true := by
  rw [isForeign_iff]
  refine ⟨by simpa using noGap, by simpa using noNumeral, ?_, ?_⟩
  · rw [Bool.eq_false_iff]
    intro operator
    obtain ⟨terminal, found⟩ := exists_terminal operator
    rw [tokenKind_ofChar?, found] at none
    contradiction
  · rw [Bool.eq_false_iff]
    intro parenthesis
    rcases isParenthesis_iff.mp parenthesis with rfl | rfl <;> contradiction

/-- A text has tokens unless there is a foreign character in it. -/
theorem exists_tokenized (own : ∀ c ∈ text, isForeign c = false) (position : Nat) :
    ∃ found, Tokenized position text found := by
  fun_induction tokensFrom position text with
  | case1 => exact ⟨[], .done⟩
  | case2 position c rest isGap ih =>
      obtain ⟨found, tokenized⟩ := ih (List.forall_mem_cons.mp own).2
      exact ⟨found, .gap isGap tokenized⟩
  | case3 position c rest notGap kind single ih =>
      obtain ⟨found, tokenized⟩ := ih (List.forall_mem_cons.mp own).2
      exact ⟨_, .symbol single tokenized⟩
  | case4 position c rest notGap notSymbol numeral slice =>
      rename_i ih
      have ownRest := (List.forall_mem_cons.mp own).2
      obtain ⟨found, tokenized⟩ :=
        ih fun d member => ownRest d ((List.dropWhile_sublist _).subset member)
      exact ⟨_, .number_head numeral tokenized⟩
  | case5 position c rest notGap notSymbol notNumeral =>
      have foreign := isForeign_of_ofChar? notGap notSymbol notNumeral
      rw [own c (by simp)] at foreign
      contradiction

/-- The tokens of a text stop at its first foreign character. -/
theorem tokensFrom_foreign (own : ∀ d ∈ front, isForeign d = false) (foreign : isForeign c = true)
    (position : Nat) :
    tokensFrom position (front ++ c :: back) = .error ⟨c, position + byteLength front⟩ := by
  obtain ⟨noGap, noNumeral, -, -⟩ := isForeign_iff.mp foreign
  obtain ⟨found, tokenized⟩ := exists_tokenized own position
  clear own
  induction tokenized with
  | done =>
      rw [List.nil_append, tokensFrom, noGap, ofChar?_of_isForeign foreign, noNumeral]
      rfl
  | gap isGap rest ih => rw [List.cons_append, tokensFrom_gap isGap, ih, byteLength, Nat.add_assoc]
  | symbol single rest ih =>
      rw [List.cons_append, tokensFrom_symbol single, ih, byteLength, Nat.add_assoc]
      rfl
  | @number position run text found nonempty made stops rest ih =>
      -- The numeral ends before the foreign character, wherever that stands.
      have stopsThere : startsNumeral (text ++ c :: back) = false := by
        cases text with
        | nil => exact noNumeral
        | cons d text => exact stops
      rw [List.append_assoc, tokensFrom_run nonempty made stopsThere, ih, byteLength_append,
        Nat.add_assoc]
      rfl

theorem evaluate_foreign (own : ∀ d ∈ front, isForeign d = false) (foreign : isForeign c = true) :
    evaluate (front ++ c :: back) =
      .error (.unexpectedCharacter ⟨c, byteLength front⟩) := by
  have stopped : tokens (front ++ c :: back) = .error ⟨c, byteLength front⟩ := by
    rw [tokens, tokensFrom_foreign own foreign, Nat.zero_add]
  rw [evaluate, stopped]

/-- All that a bare expression can have of foreign characters is white space. -/
theorem isForeign_iff_blank (made : isBareChar c = true) :
    isForeign c = true ↔ isBlank c = true ∧ isGap c = false := by
  rw [isForeign_iff]
  constructor
  · intro foreign
    obtain ⟨noGap, noNumeral, noOperator, -⟩ := foreign
    refine ⟨?_, noGap⟩
    rcases Bool.eq_false_or_eq_true (isBlank c) with blank | inked
    · exact blank
    · rw [isBareChar, inked, noOperator, Bool.or_false, Bool.or_false] at made
      exact absurd (made.symm.trans noNumeral) Bool.noConfusion
  · intro other
    obtain ⟨blank, noGap⟩ := other
    exact ⟨noGap, not_isNumeral_of_isBlank blank, apart_comm not_isBlank_of_isOperator blank,
      not_isParenthesis_of_isBareChar made⟩

theorem calculation_of_mem_occurrences
    (isOccurrence : occurrence ∈ (text.cut Style.bare.rule).occurrences) :
    Calculation occurrence ∧ ∀ c ∈ occurrence, isBareChar c = true := by
  obtain ⟨front, back, -, taken⟩ := (each_cut text).exists_of_mem isOccurrence
  exact ⟨(takenBy_bare_iff.mp taken).calculation, (isBare_of_takenBy taken).upToDigit.made⟩

theorem occurrence_of_skipped (member : skipped ∈ (settle .bare text).skipped) :
    skipped.expression ∈ ((settle .bare text).text.cut Style.bare.rule).occurrences := by
  have found : skipped.outcome ∈ outcomes .bare (settle .bare text).text := by
    rw [← outcome_settle]
    exact List.mem_map_of_mem member
  obtain ⟨occurrence, isOccurrence, same⟩ := List.mem_map.mp found
  obtain rfl : occurrence = skipped.expression := (Prod.mk.inj same).1
  exact isOccurrence

/-- A bare expression that is skipped divides by zero or is too large, when all its white space
may stand between tokens.  Otherwise it was given up at its first blank that may not. -/
theorem error_of_skipped (member : skipped ∈ (settle .bare text).skipped) :
    ((∀ c ∈ skipped.expression, isBlank c = true → isGap c = true) ∧
      (skipped.error = .divisionByZero ∨ skipped.error = .notFinite)) ∨
    ∃ front c back, skipped.expression = front ++ c :: back ∧ isBlank c = true ∧
      isGap c = false ∧ (∀ d ∈ front, isBlank d = true → isGap d = true) ∧
      skipped.error = .unexpectedCharacter ⟨c, byteLength front⟩ := by
  have evaluated := evaluate_skipped member
  obtain ⟨calculation, made⟩ := calculation_of_mem_occurrences (occurrence_of_skipped member)
  generalize skipped.expression = expression at evaluated calculation made ⊢
  have gap_of_own : ∀ c ∈ expression, isForeign c = false → isBlank c = true → isGap c = true := by
    intro c member own blank
    rw [← Bool.not_eq_false]
    intro noGap
    rw [(isForeign_iff_blank (made c member)).mpr ⟨blank, noGap⟩] at own
    contradiction
  rcases exists_first isForeign expression with own | ⟨front, c, back, rfl, ownFront, foreign⟩
  · have gaps : ∀ c ∈ expression, isBlank c = true → isGap c = true :=
      fun c member => gap_of_own c member (own c member)
    refine .inl ⟨gaps, ?_⟩
    have cases := calculation.evaluate_cases gaps
    simpa [evaluated] using cases
  · obtain ⟨blank, noGap⟩ := (isForeign_iff_blank (made c (by simp))).mp foreign
    refine .inr ⟨front, c, back, rfl, blank, noGap, fun d member => ?_, ?_⟩
    · exact gap_of_own d (List.mem_append_left _ member) (ownFront d member)
    · rw [evaluate_foreign ownFront foreign] at evaluated
      exact (Except.error.inj evaluated).symm

/-- What is skipped in a text without parentheses divides by zero or is too large, or has a blank
that may not stand between tokens, the first of which is reported.  Where all blanks of the text
may stand between tokens, nothing is skipped because it is not understood. -/
theorem reduce_understands (text : Text) (flat : ∀ c ∈ text, isParenthesis c = false) :
    (∀ skipped ∈ (reduce text).skipped,
      ((∀ c ∈ skipped.expression, isBlank c = true → isGap c = true) ∧
        (skipped.error = .divisionByZero ∨ skipped.error = .notFinite)) ∨
      ∃ front c back, skipped.expression = front ++ c :: back ∧ isBlank c = true ∧
        isGap c = false ∧ (∀ d ∈ front, isBlank d = true → isGap d = true) ∧
        skipped.error = .unexpectedCharacter ⟨c, byteLength front⟩) ∧
    ((∀ c ∈ text, isBlank c = true → isGap c = true) →
      ∀ skipped ∈ (reduce text).skipped, skipped.error.isParseError = false) := by
  have plain := reduce_plain flat
  constructor
  · intro skipped member
    rw [plain] at member
    exact error_of_skipped member
  · intro gaps skipped member
    have inText : ∀ c ∈ skipped.expression, c ∈ (reduce text).text := by
      rw [plain] at member ⊢
      intro c inside
      have inJoin := Segments.mem_join_of_mem_occurrences (occurrence_of_skipped member) inside
      rwa [join_cut] at inJoin
    rw [plain] at member
    rcases error_of_skipped member with
      ⟨-, error | error⟩ | ⟨front, c, back, whole, blank, noGap, -⟩
    · rw [error]
      rfl
    · rw [error]
      rfl
    · have inside : c ∈ skipped.expression := by simp [whole]
      have gap := gaps c (blank_mem_reduce (inText c inside) blank) blank
      rw [gap] at noGap
      contradiction

/-- A quotient by zero is skipped, but understood. -/
theorem reduce_understands_division :
    let text : Text := ['1', ' ', '/', '0']
    (∀ c ∈ text, isParenthesis c = false) ∧ (∀ c ∈ text, isBlank c = true → isGap c = true) ∧
    (reduce text).skipped = [⟨text, .divisionByZero⟩] ∧
    ∀ skipped ∈ (reduce text).skipped, skipped.error.isParseError = false := by
  intro text
  have flat : ∀ c ∈ text, isParenthesis c = false := by simp [text, isParenthesis]
  have gaps : ∀ c ∈ text, isBlank c = true → isGap c = true := by
    rw [← List.all_iff_forall_prop]
    decide
  exact ⟨flat, gaps, by decide +kernel, (reduce_understands text flat).2 gaps⟩

/-- A sum with a no-break space in it is found, and not understood. -/
theorem reduce_understands_noBreakSpace : ¬∀ text : Text, (∀ c ∈ text, isParenthesis c = false) →
    ∀ skipped ∈ (reduce text).skipped, skipped.error.isParseError = false := by
  intro always
  have understood := always ['1', '\u00a0', '+', '1'] (by simp [isParenthesis])
  have skipped : (reduce ['1', '\u00a0', '+', '1']).skipped =
      [⟨['1', '\u00a0', '+', '1'], .unexpectedCharacter ⟨'\u00a0', 1⟩⟩] := by decide +kernel
  rw [skipped] at understood
  exact absurd (understood _ (List.mem_singleton_self _)) (by decide)

end ProseTree.Expression
