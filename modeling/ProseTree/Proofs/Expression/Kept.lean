import ProseTree.Proofs.Expression.Settling

namespace ProseTree.Expression

/-! What a reduction keeps of a text: its characters are those of the text and of numbers,
and it begins and ends with ink where the text does; it is blank only where the text is. -/

open Text

variable {text left : Text} {c : Char} {value : Binary64} {segments : Segments} {style : Style}

theorem sweeps_induction {P : Text → Prop} (step : ∀ text, P text → P (sweep style text).text)
    (limit : Nat) (start : P text) : P (sweeps style limit text).text := by
  induction limit generalizing text with
  | zero => exact start
  | succ limit ih =>
      rw [sweeps]
      dsimp only
      split
      · exact step text start
      · exact ih (step text start)

theorem reduce_induction {P : Text → Prop}
    (step : ∀ style text, P text → P (sweep style text).text) (start : P text) :
    P (reduce text).text := by
  apply sweeps_induction (step .bare)
  exact sweeps_induction (step .group) _ start

theorem mem_text (finite : value.isFinite = true) (member : c ∈ value.text) :
    isNumeral c = true ∨ c = '-' := by
  obtain ⟨negative, whole, fraction, written⟩ := Binary64.written_of_isFinite finite
  rw [written.text_eq] at member
  rcases List.mem_append.mp member with sign | number
  · cases negative with
    | false => contradiction
    | true => exact .inr (List.mem_singleton.mp sign)
  · exact .inl (written.numeral.run c number)

theorem mem_substitute (member : c ∈ (substitute style segments).text) :
    c ∈ segments.join ∨ isNumeral c = true ∨ c = '-' := by
  induction segments with
  | last gap => exact .inl member
  | found gap occurrence rest ih =>
      rw [substitute] at member
      cases evaluated : evaluate (style.expression occurrence) with
      | ok value =>
          rw [evaluated] at member
          rcases List.mem_append.mp member with here | later
          · rcases List.mem_append.mp here with before | written
            · exact .inl (by simp [Segments.join, before])
            · exact .inr (mem_text (evaluate_eq_ok_iff.mp evaluated).1 written)
          · exact (ih later).imp_left fun behind => by simp [Segments.join, behind]
      | error error =>
          rw [evaluated] at member
          rcases List.mem_append.mp member with here | later
          · exact .inl (List.mem_append_left _ here)
          · exact (ih later).imp_left fun behind => by simp [Segments.join, behind]

theorem mem_reduce (member : c ∈ (reduce text).text) :
    c ∈ text ∨ isNumeral c = true ∨ c = '-' := by
  have kept : ∀ c ∈ (reduce text).text, c ∈ text ∨ isNumeral c = true ∨ c = '-' := by
    apply @reduce_induction _ fun reduced => ∀ c ∈ reduced, c ∈ text ∨ isNumeral c = true ∨ c = '-'
    · intro style reduced known c member
      rcases mem_substitute member with inText | written
      · rw [join_cut] at inText
        exact known c inText
      · exact .inr written
    · exact fun c member => .inl member
  exact kept c member

theorem blank_mem_reduce (member : c ∈ (reduce text).text) (blank : isBlank c = true) :
    c ∈ text := by
  rcases mem_reduce member with inText | numeral | rfl
  · exact inText
  · rw [not_isNumeral_of_isBlank blank] at numeral
    contradiction
  · exact absurd blank (by decide)

theorem inked_text (finite : value.isFinite = true) : StartsInked value.text ∧ EndsInked value.text := by
  obtain ⟨front, digit, text, -⟩ := exists_last_digit finite
  have nonempty : value.text ≠ [] := by simp [text]
  have inked : ∀ c ∈ value.text, isBlank c = false := by
    intro c member
    rw [Bool.eq_false_iff]
    intro blank
    rcases mem_text finite member with numeral | rfl
    · rw [not_isNumeral_of_isBlank blank] at numeral
      contradiction
    · exact absurd blank (by decide)
  exact ⟨startsInked_of_inked nonempty inked, endsInked_of_inked nonempty inked⟩

theorem startsInked_substitute (each : segments.Each (TakenBy style.rule) left)
    (starts : StartsInked segments.join) : StartsInked (substitute style segments).text := by
  cases segments with
  | last gap => exact starts
  | found gap occurrence rest =>
      obtain ⟨d, others, join, inked⟩ := starts
      rw [substitute]
      cases gap with
      | cons c gap =>
          obtain ⟨rfl, -⟩ := List.cons.inj join
          cases evaluate (style.expression occurrence) with
          | ok value => exact ⟨c, _, rfl, inked⟩
          | error error => exact ⟨c, _, rfl, inked⟩
      | nil =>
          obtain ⟨c, more, rfl⟩ := List.exists_cons_of_ne_nil each.1.nonempty
          obtain ⟨rfl, -⟩ := List.cons.inj join
          cases evaluated : evaluate (style.expression (c :: more)) with
          | ok value =>
              exact (inked_text (evaluate_eq_ok_iff.mp evaluated).1).1.append _
          | error error => exact ⟨c, _, rfl, inked⟩

theorem endsInked_substitute (each : segments.Each (TakenBy style.rule) left)
    (ends : EndsInked segments.join) : EndsInked (substitute style segments).text := by
  induction segments generalizing left with
  | last gap => exact ends
  | found gap occurrence rest ih =>
      obtain ⟨taken, later⟩ := each
      rw [substitute]
      by_cases nothing : rest.join = []
      · obtain rfl : rest = .last [] := by
          cases rest with
          | last gap => rw [show gap = [] from nothing]
          | found gap next rest =>
              have noNext := (List.append_eq_nil_iff.mp (List.append_eq_nil_iff.mp nothing).1).2
              exact absurd noNext later.1.nonempty
        cases evaluated : evaluate (style.expression occurrence) with
        | ok value =>
            have written := (inked_text (evaluate_eq_ok_iff.mp evaluated).1).2
            simpa [substitute] using written.append gap
        | error error => exact ends
      · have behind := ih later (ends.of_append nothing)
        cases evaluate (style.expression occurrence) with
        | ok value => exact behind.append _
        | error error => exact behind.append _

theorem startsInked_reduce (starts : StartsInked text) : StartsInked (reduce text).text := by
  apply reduce_induction _ starts
  intro style text starts
  apply startsInked_substitute (each_cut text)
  rwa [join_cut]

theorem endsInked_reduce (ends : EndsInked text) : EndsInked (reduce text).text := by
  apply reduce_induction _ ends
  intro style text ends
  apply endsInked_substitute (each_cut text)
  rwa [join_cut]

theorem blank_of_blank_substitute {style : Style} {segments : Segments}
    (blank : Blank (substitute style segments).text) : Blank segments.join := by
  induction segments with
  | last gap => exact blank
  | found gap occurrence rest ih =>
      rw [substitute] at blank
      cases evaluated : evaluate (style.expression occurrence) with
      | ok value =>
          rw [evaluated] at blank
          have written := (blank_append.mp (blank_append.mp blank).1).2
          exact absurd written (inked_text (evaluate_eq_ok_iff.mp evaluated).1).1.not_blank
      | error error =>
          rw [evaluated] at blank
          obtain ⟨here, later⟩ := blank_append.mp blank
          exact blank_append.mpr ⟨here, ih later⟩

theorem blank_of_blank_reduce (blank : Blank (reduce text).text) : Blank text := by
  by_contra inked
  have kept : ¬Blank (reduce text).text := by
    apply @reduce_induction text fun reduced => ¬Blank reduced
    · intro style reduced inked blank
      apply inked
      rw [← join_cut style.rule reduced]
      exact blank_of_blank_substitute blank
    · exact inked
  exact kept blank

theorem reduce_plain (flat : ∀ c ∈ text, isParenthesis c = false) :
    reduce text = settle .bare text := by
  have groups : settle .group text = ⟨text, [], []⟩ := sweeps_plain flat _
  rw [reduce, groups]
  rfl

theorem settled_reduce (flat : ∀ c ∈ text, isParenthesis c = false) : Settled (reduce text) := by
  rw [reduce_plain flat]
  exact settled_settle text

end ProseTree.Expression
