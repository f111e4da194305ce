import ProseTree.Proofs.Expression.BareOccurrence
import ProseTree.Proofs.Expression.Exchange
import ProseTree.Proofs.Expression.Surroundings

namespace ProseTree.Expression

/-! Reducing bare expressions keeps the value of an expression as long as they stand
clear in it. -/

open Binary64 (signed)

variable {text left occurrence right : Text} {spelled : List Terminal} {token : Token}
  {reading other next last : Reading} {groups : List OpenGroup} {before : Pending}
  {sum : Option (Binary64 × SumOp)} {negative : Bool} {term value total : Binary64}

theorem ProductOp.compute?_signed (negative : Bool) (op : ProductOp) (left right : Binary64) :
    op.compute? (signed negative left) right = (op.compute? left right).map (signed negative) := by
  cases op
  · simp only [compute?, Binary64.signed_mul, Option.map_some]
  · simp only [compute?, Binary64.signed_div]
    split <;> rfl

namespace Reading

/-- A product that is read by itself, and the same product behind a sum and signs. -/
inductive Factors (groups : List OpenGroup) (sum : Option (Binary64 × SumOp)) (negative : Bool) :
    Reading → Reading → Prop where
  | nothing : Factors groups sum negative start (operand groups ⟨sum, none, negative⟩)
  | pending (term : Binary64) (op : ProductOp) :
      Factors groups sum negative (operand [] ⟨none, some (term, op), false⟩)
        (operand groups ⟨sum, some (signed negative term, op), false⟩)
  | complete (term : Binary64) :
      Factors groups sum negative (operator [] none term)
        (operator groups sum (signed negative term))

theorem Factors.step (factors : Factors groups sum negative reading other)
    (stepped : reading.step token = .ok next) (flat : token.terminal ≠ .openParen)
    (noSign : ∀ sign : SumOp, token.terminal ≠ sign.terminal) :
    ∃ otherNext, other.step token = .ok otherNext ∧
      Factors groups sum negative next otherNext := by
  cases factors with
  | nothing =>
      rcases step_operand_cases stepped with
        ⟨sign, isSign, -⟩ | ⟨isOpen, -⟩ | ⟨text, isNumeral, numeral, closed⟩
      · exact absurd isSign (noSign sign)
      · exact absurd isOpen flat
      · obtain rfl : operator [] none (numeralValue text) = next := Except.ok.inj closed
        rw [step_numeral numeral isNumeral]
        exact ⟨_, rfl, .complete _⟩
  | pending term op =>
      rcases step_operand_cases stepped with
        ⟨sign, isSign, -⟩ | ⟨isOpen, -⟩ | ⟨text, isNumeral, numeral, closed⟩
      · exact absurd isSign (noSign sign)
      · exact absurd isOpen flat
      · rw [step_numeral numeral isNumeral]
        simp only [closeOperand, closeFactor_some, Bool.false_eq_true, if_false,
          ProductOp.compute?_signed] at closed ⊢
        cases applied : op.compute? term (numeralValue text) with
        | none => simp [applied, Except.map] at closed
        | some product =>
            obtain rfl : operator [] none product = next := by
              simpa [applied, Except.map] using closed
            exact ⟨_, rfl, .complete product⟩
  | complete term =>
      rcases step_operator_cases stepped with
        ⟨op, isOp, -⟩ | ⟨op, isOp, rfl⟩ | ⟨group, outer, -, noGroup, -⟩
      · exact absurd isOp (noSign op)
      · exact ⟨_, step_productOp op isOp, .pending term op⟩
      · contradiction

theorem Factors.follows (factors : Factors groups sum negative reading other)
    (follows : reading.Follows spelled last) (flat : ∀ terminal ∈ spelled, terminal ≠ .openParen)
    (noSign : ∀ terminal ∈ spelled, ∀ sign : SumOp, terminal ≠ sign.terminal) :
    ∃ otherLast, other.Follows spelled otherLast ∧
      Factors groups sum negative last otherLast := by
  induction spelled generalizing reading other with
  | nil =>
      obtain rfl := follows_nil.mp follows
      exact ⟨other, follows_nil.mpr rfl, factors⟩
  | cons terminal rest ih =>
      obtain ⟨next, stepped, follows⟩ := follows_cons.mp follows
      obtain ⟨otherNext, otherStepped, factors⟩ := factors.step stepped
        (by simpa using flat terminal (by simp)) (by simpa using noSign terminal (by simp))
      obtain ⟨otherLast, otherFollows, factors⟩ := ih factors follows
        (fun other member => flat other (by simp [member]))
        (fun other member => noSign other (by simp [member]))
      exact ⟨otherLast, follows_cons.mpr ⟨otherNext, otherStepped, otherFollows⟩, factors⟩

/-- What comes behind a sum sees its value only, unless it goes on with the last term. -/
theorem follows_closed {lastSum : Option (Binary64 × SumOp)} {lastTerm : Binary64}
    (lexes : Lexes text spelled)
    (follows : (operator groups sum term).Follows spelled (operator [] lastSum lastTerm))
    (noTimes : behindGaps text ≠ some '*') (noOver : behindGaps text ≠ some '/') :
    ∃ otherSum otherTerm, (operator groups none (closeSum sum term)).Follows spelled
        (operator [] otherSum otherTerm) ∧
      closeSum otherSum otherTerm = closeSum lastSum lastTerm := by
  induction lexes with
  | done =>
      obtain ⟨rfl, rfl, rfl⟩ := Reading.operator.inj (follows_nil.mp follows)
      exact ⟨none, closeSum sum term, follows_nil.mpr rfl, rfl⟩
  | @gap c text spelled isGap rest ih =>
      rw [behindGaps, List.dropWhile_cons_of_pos isGap] at noTimes noOver
      exact ih follows noTimes noOver
  | @symbol c text terminal spelled found rest ih =>
      have notGap : ¬isGap c = true := by simp [not_isGap_of_ofChar? found]
      rw [behindGaps, List.dropWhile_cons_of_neg notGap, List.head?_cons] at noTimes noOver
      obtain ⟨next, stepped, follows⟩ := follows_cons.mp follows
      -- The first symbol closes the sum, and from there on both readings are the same.
      refine ⟨lastSum, lastTerm, follows_cons.mpr ⟨next, ?_, follows⟩, rfl⟩
      rcases step_operator_cases stepped with
        ⟨op, isOp, rfl⟩ | ⟨op, isOp, -⟩ | ⟨group, outer, isClose, rfl, closed⟩
      · exact step_sumOp op isOp
      · rw [Terminal.terminal_token] at isOp
        unfold Terminal.ofChar? at found
        split at found <;> cases op <;> simp_all [ProductOp.terminal]
      · rw [step_closeParen isClose]
        exact closed
  | numeral nonempty made stops rest ih =>
      obtain ⟨next, stepped, -⟩ := follows_cons.mp follows
      obtain ⟨groups, before, same, -⟩ := step_numeral_inv stepped
      contradiction

end Reading

theorem not_isParenthesis_of_isBareChar {c : Char} (made : isBareChar c = true) :
    isParenthesis c = false := by
  rw [Bool.eq_false_iff]
  intro parenthesis
  rcases isParenthesis_iff.mp parenthesis with rfl | rfl <;> contradiction

theorem isWordChar_of_isDigit {c : Char} (digit : Text.isDigit c = true) :
    Text.isWordChar c = true := by
  have bounds : '0' ≤ c ∧ c ≤ '9' := by simpa [Text.isDigit] using digit
  have range : 48 ≤ c.toNat ∧ c.toNat ≤ 57 := ⟨bounds.1, bounds.2⟩
  have ascii : c.toNat < 0x80 := by omega
  have isDigit : c.isDigit = true := by
    rw [Char.isDigit, Bool.and_eq_true]
    exact ⟨decide_eq_true bounds.1, decide_eq_true bounds.2⟩
  rw [Text.isWordChar, if_pos ascii, Char.isAlphanum, isDigit, Bool.or_true, Bool.true_or]

theorem not_isNumeral_of_not_isWordChar {c : Char} (noWord : Text.isWordChar c = false)
    (noPoint : c ≠ '.') : isNumeral c = false := by
  rw [isNumeral, Bool.or_eq_false_iff]
  refine ⟨?_, beq_false_of_ne noPoint⟩
  rw [Bool.eq_false_iff]
  intro digit
  rw [isWordChar_of_isDigit digit] at noWord
  contradiction

theorem IsBare.endsNumeral_left (bare : IsBare left occurrence right)
    (clear : StandsClear left occurrence right) : endsNumeral left = false := by
  have begins := bare.begins
  have noPoint := clear.pointBefore
  rw [endsNumeral]
  cases found : left.getLast? with
  | none => rfl
  | some c =>
      rw [found] at begins noPoint
      exact not_isNumeral_of_not_isWordChar begins (by simpa using noPoint)

theorem IsBare.startsNumeral_right (bare : IsBare left occurrence right)
    (clear : StandsClear left occurrence right) : startsNumeral right = false := by
  have noWord := bare.noWord
  have noPoint := clear.pointBehind
  cases right with
  | nil => rfl
  | cons c rest => exact not_isNumeral_of_not_isWordChar noWord (by simpa using noPoint)

theorem IsBare.startsNumeral (bare : IsBare left occurrence right) :
    startsNumeral occurrence = true := by
  obtain ⟨c, head, digit⟩ := bare.starts
  rw [Expression.startsNumeral, head, Option.any_some, isNumeral, digit, Bool.true_or]

section Exchange

variable {read : Reading} {lastSum : Option (Binary64 × SumOp)} {lastTerm : Binary64}

/-- A sum that stands clear is the whole beginning of its group. -/
theorem closes_sum (isSum : occurrence.any isSign = true)
    (clear : StandsClear left occurrence right) (flat : ∀ c ∈ occurrence, isParenthesis c = false)
    (inside : Reading.start.Passes occurrence (.operator [] sum term))
    (toLeft : Reading.start.Passes left (.operand groups before))
    (reads : (Reading.operand groups before).Passes occurrence read)
    (passes : read.Passes right (.operator [] lastSum lastTerm)) :
    ∃ middle otherSum otherTerm, closeOperand groups before (closeSum sum term) = .ok middle ∧
      middle.Passes right (.operator [] otherSum otherTerm) ∧
      closeSum otherSum otherTerm = closeSum lastSum lastTerm := by
  obtain ⟨atStart, even⟩ := clear.sumBefore isSum
  obtain ⟨noTimes, noOver⟩ := clear.sumBehind isSum
  obtain rfl := toLeft.start_of_beforeSigns atStart even
  obtain rfl := reads.unique (inside.within flat)
  obtain ⟨spelled, lexes, follows⟩ := passes
  obtain ⟨otherSum, otherTerm, follows, same⟩ :=
    Reading.follows_closed lexes follows noTimes noOver
  exact ⟨_, otherSum, otherTerm, rfl, ⟨spelled, lexes, follows⟩, same⟩

/-- A product that stands clear is one more term, whatever sum and signs are before it. -/
theorem closes_product (isProduct : occurrence.any isSign = false)
    (clear : StandsClear left occurrence right) (flat : ∀ c ∈ occurrence, isParenthesis c = false)
    (inside : Reading.start.Passes occurrence (.operator [] sum term))
    (toLeft : Reading.start.Passes left (.operand groups before))
    (reads : (Reading.operand groups before).Passes occurrence read) :
    closeOperand groups before (closeSum sum term) = .ok read := by
  obtain ⟨noTimes, noOver⟩ := clear.product isProduct
  have noFactor := toLeft.noFactor_of_beforeSigns noTimes noOver groups before rfl
  obtain ⟨outerSum, product, negative⟩ := before
  obtain rfl : product = none := noFactor
  obtain ⟨spelled, lexes, follows⟩ := inside
  have noSign : ∀ terminal ∈ spelled, ∀ sign : SumOp, terminal ≠ sign.terminal := by
    rintro terminal member sign rfl
    rcases lexes.mem_cases member with ⟨run, numeral⟩ | ⟨c, inText, found⟩
    · exact absurd numeral (SumOp.terminal_ne_numeral sign)
    · have other := List.any_eq_false.mp isProduct c inText
      unfold Terminal.ofChar? at found
      split at found <;> cases sign <;> simp_all [SumOp.terminal, isSign]
  have begins : Reading.Factors groups outerSum negative .start
      (.operand groups ⟨outerSum, none, negative⟩) := .nothing
  obtain ⟨reached, follows, factors⟩ :=
    begins.follows follows (Reading.noOpenParen_of_lexes lexes flat) noSign
  obtain rfl := reads.unique ⟨spelled, lexes, follows⟩
  cases factors with
  | complete term => rfl

theorem evaluate_exchange_bare (evaluated : evaluate (left ++ occurrence ++ right) = .ok total)
    (own : evaluate occurrence = .ok value) (bare : IsBare left occurrence right)
    (clear : StandsClear left occurrence right) :
    evaluate (left ++ value.text ++ right) = .ok total := by
  obtain ⟨totalFinite, lastSum, lastTerm, passes, closes⟩ := evaluate_eq_ok_iff.mp evaluated
  obtain ⟨finite, sum, term, inside, rfl⟩ := evaluate_eq_ok_iff.mp own
  have endsLeft := bare.endsNumeral_left clear
  have startsRight := bare.startsNumeral_right clear
  have apartLeft : ∀ behind, Apart left behind := by
    intro behind ends
    rw [endsLeft] at ends
    contradiction
  have apartRight : ∀ front, Apart front right := fun front _ => startsRight
  -- No number reaches across the ends of the occurrence, so the reading stops at both.
  obtain ⟨read, toRight, passes⟩ := passes.split (apartRight _)
  obtain ⟨due, toLeft, reads⟩ := toRight.split (apartLeft _)
  obtain ⟨groups, before, rfl⟩ := reads.operand_of_startsNumeral bare.startsNumeral
  have flat : ∀ c ∈ occurrence, isParenthesis c = false :=
    fun c member => not_isParenthesis_of_isBareChar (bare.upToDigit.made c member)
  obtain ⟨middle, otherSum, otherTerm, closed, passes, same⟩ :
      ∃ middle otherSum otherTerm, closeOperand groups before (closeSum sum term) = .ok middle ∧
        middle.Passes right (.operator [] otherSum otherTerm) ∧
        closeSum otherSum otherTerm = closeSum lastSum lastTerm := by
    by_cases isSum : occurrence.any isSign = true
    · exact closes_sum isSum clear flat inside toLeft reads passes
    · have isProduct : occurrence.any isSign = false := by simpa using isSum
      have closed := closes_product isProduct clear flat inside toLeft reads
      exact ⟨read, lastSum, lastTerm, closed, passes, rfl⟩
  have valueRead := Reading.passes_text finite closed
  have whole := (toLeft.append valueRead (apartLeft _)).append passes (apartRight _)
  exact evaluate_eq_ok_iff.mpr ⟨totalFinite, otherSum, otherTerm, whole, same.trans closes⟩

end Exchange

theorem head_of_isDigit {c : Char} (digit : Text.isDigit c = true) :
    isGap c = false ∧ c ≠ '*' ∧ c ≠ '/' := by
  have numeral : isNumeral c = true := by rw [isNumeral, digit, Bool.true_or]
  refine ⟨not_isGap_of_isNumeral numeral, ?_, ?_⟩
  · rintro rfl
    contradiction
  · rintro rfl
    contradiction

theorem head_text (finite : value.isFinite = true) :
    ∃ c, value.text.head? = some c ∧ isGap c = false ∧ c ≠ '*' ∧ c ≠ '/' := by
  obtain ⟨negative, whole, fraction, written⟩ := Binary64.written_of_isFinite finite
  rw [written.text_eq]
  cases negative with
  | true => exact ⟨'-', rfl, by decide, by decide, by decide⟩
  | false =>
      obtain ⟨c, whole, rfl⟩ := List.exists_cons_of_ne_nil written.wholeNonempty
      refine ⟨c, rfl, ?_⟩
      exact head_of_isDigit (written.wholeDigits c (by simp))

theorem each_cut_bare (text : Text) : (text.cut Style.bare.rule).Each IsBare [] :=
  (Text.each_cut text).imp fun _ _ _ => isBare_of_takenBy

theorem startsWord_eq (text : Text) : startsWord text = text.head?.any Text.isWordChar := by
  cases text <;> rfl

theorem head?_substitute {segments : Segments} (bare : segments.Each IsBare left)
    (noWord : startsWord segments.join = false) :
    (substitute .bare segments).text.head? = segments.join.head? := by
  cases segments with
  | last gap => rfl
  | found gap occurrence rest =>
      cases gap with
      | nil =>
          obtain ⟨c, head, digit⟩ := bare.1.starts
          obtain ⟨occurrence, rfl⟩ := List.head?_eq_some_iff.mp head
          rw [Segments.join, List.nil_append, List.cons_append, startsWord,
            isWordChar_of_isDigit digit] at noWord
          contradiction
      | cons c gap =>
          simp only [substitute, Segments.join]
          split <;> rfl

theorem substitute_found {gap : Text} {rest : Segments} (bare : IsBare left occurrence right) :
    ∃ c tail, (substitute .bare (.found gap occurrence rest)).text = gap ++ c :: tail ∧
      isGap c = false ∧ c ≠ '*' ∧ c ≠ '/' := by
  cases evaluated : evaluate (Style.bare.expression occurrence) with
  | ok value =>
      obtain ⟨c, head, begins⟩ := head_text (evaluate_eq_ok_iff.mp evaluated).1
      obtain ⟨tail, spelled⟩ := List.head?_eq_some_iff.mp head
      refine ⟨c, tail ++ (substitute .bare rest).text, ?_, begins⟩
      simp only [substitute, evaluated, spelled]
      simp
  | error error =>
      obtain ⟨c, head, digit⟩ := bare.starts
      obtain ⟨tail, rfl⟩ := List.head?_eq_some_iff.mp head
      refine ⟨c, tail ++ (substitute .bare rest).text, ?_, head_of_isDigit digit⟩
      simp only [substitute, evaluated]
      simp

theorem behindGaps_substitute {segments : Segments} {c : Char}
    (bare : segments.Each IsBare left) (isFactor : c = '*' ∨ c = '/')
    (none : behindGaps segments.join ≠ some c) :
    behindGaps (substitute .bare segments).text ≠ some c := by
  cases segments with
  | last gap => exact none
  | found gap occurrence rest =>
      obtain ⟨d, tail, spelled, notGap, notTimes, notOver⟩ := substitute_found bare.1
      rw [spelled]
      by_cases blank : ∀ c ∈ gap, isGap c = true
      · have notGap : ¬isGap d = true := by simp [notGap]
        rw [behindGaps, List.dropWhile_append_of_pos blank, List.dropWhile_cons_of_neg notGap,
          List.head?_cons]
        rintro same
        obtain rfl := Option.some.inj same
        rcases isFactor with rfl | rfl
        · exact notTimes rfl
        · exact notOver rfl
      · have ink : gap.dropWhile isGap ≠ [] := by
          rwa [Ne, List.dropWhile_eq_nil_iff]
        obtain ⟨e, others, found⟩ := List.exists_cons_of_ne_nil ink
        have first : ∀ behind, behindGaps (gap ++ behind) = some e := by
          intro behind
          rw [behindGaps, List.dropWhile_append, found]
          rfl
        rw [Segments.join, List.append_assoc, first] at none
        rwa [first]

/-- Each bare expression that has a value stands clear. -/
def StandsClearIfValued (left occurrence right : Text) : Prop :=
  ∀ value, evaluate occurrence = .ok value → StandsClear left occurrence right

theorem evaluate_substitute_bare {segments : Segments} (bare : segments.Each IsBare left)
    (clear : segments.Each StandsClearIfValued left)
    (evaluated : evaluate (left ++ segments.join) = .ok total) :
    evaluate (left ++ (substitute .bare segments).text) = .ok total := by
  induction segments generalizing left with
  | last gap => exact evaluated
  | found gap occurrence rest ih =>
      obtain ⟨isBare, bare⟩ := bare
      obtain ⟨stands, clear⟩ := clear
      have later : evaluate (left ++ gap ++ occurrence ++ (substitute .bare rest).text) =
          .ok total := by
        apply ih bare clear
        simpa [Segments.join] using evaluated
      simp only [substitute]
      cases own : evaluate (Style.bare.expression occurrence) with
      | error error => simpa using later
      | ok value =>
          have stands := stands value own
          have head := head?_substitute bare isBare.noWord
          have isBare' : IsBare (left ++ gap) occurrence (substitute .bare rest).text :=
            { isBare with noWord := by rw [startsWord_eq, head, ← startsWord_eq, isBare.noWord] }
          have stands' : StandsClear (left ++ gap) occurrence (substitute .bare rest).text :=
            { stands with
              pointBehind := by rw [head]; exact stands.pointBehind
              sumBehind := fun isSum =>
                ⟨behindGaps_substitute bare (.inl rfl) (stands.sumBehind isSum).1,
                  behindGaps_substitute bare (.inr rfl) (stands.sumBehind isSum).2⟩ }
          simpa using evaluate_exchange_bare later own isBare' stands'

theorem evaluate_sweep_bare
    (clear : (text.cut Style.bare.rule).Each StandsClearIfValued [])
    (evaluated : evaluate text = .ok total) : evaluate (sweep .bare text).text = .ok total := by
  apply @evaluate_substitute_bare [] _ _ (each_cut_bare text) clear
  rwa [List.nil_append, Text.join_cut]

def sweptTimes (style : Style) : Nat → Text → Text
  | 0, text => text
  | count + 1, text => sweptTimes style count (sweep style text).text

/-- Every bare expression that is replaced, in whichever sweep, stands clear. -/
def ReducesClearly (text : Text) : Prop :=
  ∀ count, ((sweptTimes .bare count text).cut Style.bare.rule).Each StandsClearIfValued []

theorem evaluate_sweeps_bare (limit : Nat) (clear : ReducesClearly text)
    (evaluated : evaluate text = .ok total) :
    evaluate (sweeps .bare limit text).text = .ok total := by
  induction limit generalizing text with
  | zero => exact evaluated
  | succ limit ih =>
      have swept := evaluate_sweep_bare (clear 0) evaluated
      rw [sweeps]
      split
      · exact swept
      · exact ih (fun count => clear (count + 1)) swept

/-- Reducing the groups of an expression keeps its value.  Reducing the bare expressions
that are left keeps it too if they stand clear. -/
theorem evaluate_reduce (evaluated : evaluate text = .ok value) :
    evaluate (settle .group text).text = .ok value ∧
    (ReducesClearly (settle .group text).text → evaluate (reduce text).text = .ok value) := by
  have grouped := evaluate_settle_group evaluated
  exact ⟨grouped, fun clear => evaluate_sweeps_bare _ clear grouped⟩

theorem evaluate_reduce_product :
    let product : Text := ['2', '*', '(', '3', '+', '4', ')']
    let value := Binary64.ofCounts 14 1
    evaluate product = .ok value ∧ ReducesClearly (settle .group product).text ∧
    evaluate (reduce product).text = .ok value := by
  intro product value
  let settled : Text := ['2', '*', '7', '.', '0']
  have evaluated : evaluate product = .ok value := by decide +kernel
  have grouped : (settle .group product).text = settled := by decide +kernel
  have swept : (sweep .bare settled).text = value.text := by decide +kernel
  have finite : value.isFinite = true := by decide +kernel
  have stays : ∀ count, sweptTimes .bare count value.text = value.text := by
    intro count
    induction count with
    | zero => rfl
    | succ count ih => rw [sweptTimes, sweep, cut_bare_text finite, substitute, ih]
  have clear : ReducesClearly settled := by
    intro count
    cases count with
    | zero =>
        have cut : Text.cut Style.bare.rule settled = .found [] settled (.last []) := by cbv
        rw [sweptTimes, cut]
        exact ⟨fun _ _ => ⟨by decide, by decide, by decide, by decide, by decide⟩, trivial⟩
    | succ count =>
        rw [sweptTimes, swept, stays, cut_bare_text finite]
        trivial
  rw [← grouped] at clear
  exact ⟨evaluated, clear, (evaluate_reduce evaluated).2 clear⟩

/-- A sign changes the first number of a sum only, not its value. -/
theorem evaluate_reduce_signed_sum :
    evaluate ['-', '3', '-', '2'] = .ok (Binary64.ofCounts 5 1).neg ∧
    evaluate (reduce ['-', '3', '-', '2']).text ≠ .ok (Binary64.ofCounts 5 1).neg := by
  decide +kernel

end ProseTree.Expression
