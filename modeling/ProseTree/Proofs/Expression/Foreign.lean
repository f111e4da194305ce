import ProseTree.Proofs.Expression.Accounting

namespace ProseTree.Expression

/-! Foreign characters: those that no expression is made of.

Neither an expression with a value nor the text of a value has one, so a reduction keeps
all foreign characters of a text, in their order.  A value is not blank either, and a blank
text has no expressions, so a reduction takes no text to the blank ones or away from them. -/

open Text

def isForeign (c : Char) : Bool :=
  !(isGap c || isNumeral c || isOperator c || isParenthesis c)

/-- The foreign characters of a text, in order. -/
def foreign (text : Text) : Text := text.filter isForeign

variable {text left right occurrence : Text} {spelled : List Terminal} {c : Char}
  {value : Binary64} {segments : Segments} {style : Style}

@[simp] theorem foreign_append (left right : Text) :
    foreign (left ++ right) = foreign left ++ foreign right :=
  List.filter_append ..

theorem foreign_eq_nil (none : ∀ c ∈ text, isForeign c = false) : foreign text = [] :=
  List.filter_eq_nil_iff.mpr fun c member => by simp [none c member]

theorem isForeign_iff : isForeign c = true ↔
    isGap c = false ∧ isNumeral c = false ∧ isOperator c = false ∧ isParenthesis c = false := by
  simp [isForeign, and_assoc]

theorem not_isForeign_of_isNumeral (numeral : isNumeral c = true) : isForeign c = false := by
  simp [isForeign, numeral]

/-- The characters of expressions come before the letters. -/
theorem toNat_lt_of_not_isForeign (ofExpression : isForeign c = false) : c.toNat < 0x41 := by
  simp only [isForeign, Bool.not_eq_false', Bool.or_eq_true] at ofExpression
  rcases ofExpression with ((gap | numeral) | operator) | parenthesis
  · simp only [isGap, Bool.or_eq_true, beq_iff_eq] at gap
    rcases gap with (((rfl | rfl) | rfl) | rfl) | formFeed <;> first | decide | omega
  · rcases Bool.or_eq_true_iff.mp numeral with digit | point
    · have bounds : '0' ≤ c ∧ c ≤ '9' := by simpa [isDigit] using digit
      have range : c.toNat ≤ 57 := bounds.2
      omega
    · rw [beq_iff_eq.mp point]
      decide
  · rcases isOperator_cases operator with rfl | rfl | rfl | rfl <;> decide
  · rcases isParenthesis_iff.mp parenthesis with rfl | rfl <;> decide

theorem Lexes.not_isForeign (lexes : Lexes text spelled) : ∀ c ∈ text, isForeign c = false := by
  induction lexes with
  | done => simp
  | gap gap rest ih => exact List.forall_mem_cons.mpr ⟨by simp [isForeign, gap], ih⟩
  | symbol found rest ih =>
      refine List.forall_mem_cons.mpr ⟨?_, ih⟩
      unfold Terminal.ofChar? at found
      split at found <;> first | contradiction | decide
  | numeral nonempty made stops rest ih =>
      exact List.forall_mem_append.mpr
        ⟨fun c member => not_isForeign_of_isNumeral (made c member), ih⟩

theorem foreign_of_evaluate (evaluated : evaluate text = .ok value) : foreign text = [] := by
  obtain ⟨-, sum, term, ⟨spelled, lexes, -⟩, -⟩ := evaluate_eq_ok_iff.mp evaluated
  exact foreign_eq_nil lexes.not_isForeign

theorem foreign_text (finite : value.isFinite = true) : foreign value.text = [] := by
  refine foreign_eq_nil fun c member => ?_
  rcases mem_text finite member with numeral | rfl
  · exact not_isForeign_of_isNumeral numeral
  · decide

/-- The parentheses of a group are not foreign. -/
theorem foreign_expression (taken : TakenBy style.rule left occurrence right) :
    foreign (style.expression occurrence) = foreign occurrence := by
  cases style with
  | bare => rfl
  | group =>
      obtain ⟨inner, group⟩ := isGroup_of_takenBy taken
      have around : foreign ['('] = [] ∧ foreign [')'] = [] := by decide
      rw [group.expression, group.spelled, ← List.singleton_append, foreign_append, foreign_append,
        around.1, around.2, List.nil_append, List.append_nil]

theorem foreign_substitute (each : segments.Each (TakenBy style.rule) left) :
    foreign (substitute style segments).text = foreign segments.join := by
  induction segments generalizing left with
  | last gap => rfl
  | found gap occurrence rest ih =>
      obtain ⟨taken, later⟩ := each
      rw [substitute, Segments.join]
      cases evaluated : evaluate (style.expression occurrence) with
      | ok value =>
          have none : foreign occurrence = [] :=
            (foreign_expression taken).symm.trans (foreign_of_evaluate evaluated)
          have written := foreign_text (evaluate_eq_ok_iff.mp evaluated).1
          simp only [foreign_append, none, written, ih later]
      | error error => simp only [foreign_append, ih later]

/-- A reduction neither loses, adds nor moves a foreign character. -/
theorem foreign_reduce (text : Text) : foreign (reduce text).text = foreign text := by
  apply @reduce_induction text fun reduced => foreign reduced = foreign text
  · intro style reduced kept
    rw [sweep, foreign_substitute (each_cut reduced), join_cut, kept]
  · rfl

theorem reduce_blank (blank : Blank text) : (reduce text).text = text := by
  have flat : ∀ c ∈ text, isParenthesis c = false := by
    intro c member
    rw [Bool.eq_false_iff]
    intro parenthesis
    rcases isParenthesis_iff.mp parenthesis with rfl | rfl <;>
      exact absurd (blank _ member) (by decide)
  apply reduce_text_eq_self flat
  apply replaced_eq_nil_iff.mpr
  intro occurrence found
  obtain ⟨left, right, -, taken⟩ := (each_cut text).exists_of_mem found
  obtain ⟨digit, begins, isDigit⟩ := (isBare_of_takenBy taken).starts
  have member := Segments.mem_join_of_mem_occurrences found (List.mem_of_mem_head? begins)
  rw [join_cut] at member
  exact absurd member (blank.not_mem (not_isBlank_of_isDigit isDigit))

theorem blank_reduce_iff : Blank (reduce text).text ↔ Blank text :=
  ⟨blank_of_blank_reduce, fun blank => by rwa [reduce_blank blank]⟩

/-- What is no digit, point, operator, parenthesis or gap is the same in a reduced text as in the
text, and a reduced text has ink in it exactly when the text has. -/
theorem reduce_keeps (text : Text) :
    foreign (reduce text).text = foreign text ∧
    ((∃ c ∈ (reduce text).text, isBlank c = false) ↔ ∃ c ∈ text, isBlank c = false) := by
  refine ⟨foreign_reduce text, ?_⟩
  have kept := not_congr (@blank_reduce_iff text)
  simpa [Blank] using kept

end ProseTree.Expression
