import Mathlib.Data.List.Basic
import Mathlib.Data.List.TakeWhile
import ProseTree.Text.Basic

namespace ProseTree

/-! What the parts of a cut text have in common, given what the rule looks for, where its
occurrences stand, and what the cut has seen of the text before it comes to them. -/

namespace Segments

theorem gaps_push (c : Char) (segments : Segments) :
    ∃ gap rest, segments.gaps = gap :: rest ∧ (segments.push c).gaps = (c :: gap) :: rest := by
  cases segments with
  | last gap => exact ⟨gap, [], rfl, rfl⟩
  | found gap occurrence rest => exact ⟨gap, rest.gaps, rfl, rfl⟩

@[simp] theorem occurrences_push (c : Char) (segments : Segments) :
    (segments.push c).occurrences = segments.occurrences := by
  cases segments <;> rfl

theorem mem_join_of_mem_gaps {segments : Segments} {gap : Text} {c : Char}
    (isGap : gap ∈ segments.gaps) (member : c ∈ gap) : c ∈ segments.join := by
  induction segments with
  | last own =>
      obtain rfl : gap = own := by simpa [gaps] using isGap
      exact member
  | found own occurrence rest ih =>
      simp only [join, List.mem_append]
      rcases List.mem_cons.mp isGap with rfl | later
      · exact .inl (.inl member)
      · exact .inr (ih later)

theorem mem_join_of_mem_occurrences {segments : Segments} {occurrence : Text} {c : Char}
    (isOccurrence : occurrence ∈ segments.occurrences) (member : c ∈ occurrence) :
    c ∈ segments.join := by
  induction segments with
  | last own => simp [occurrences] at isOccurrence
  | found own first rest ih =>
      simp only [join, List.mem_append]
      rcases List.mem_cons.mp isOccurrence with rfl | later
      · exact .inl (.inr member)
      · exact .inr (ih later)

/-- Every occurrence stands as demanded between the text on its left and on its right;
`left` is what comes before the cut text. -/
def Each (stands : Text → Text → Text → Prop) (left : Text) : Segments → Prop
  | .last _ => True
  | .found gap occurrence rest =>
      stands (left ++ gap) occurrence rest.join ∧ rest.Each stands (left ++ gap ++ occurrence)

theorem each_push {stands : Text → Text → Text → Prop} {left : Text} {c : Char}
    {segments : Segments} :
    (segments.push c).Each stands left ↔ segments.Each stands (left ++ [c]) := by
  cases segments <;> simp [push, Each]

theorem Each.imp {stands others : Text → Text → Text → Prop} {left : Text} {segments : Segments}
    (each : segments.Each stands left)
    (weaker : ∀ left occurrence right,
      stands left occurrence right → others left occurrence right) :
    segments.Each others left := by
  induction segments generalizing left with
  | last gap => trivial
  | found gap occurrence rest ih => exact ⟨weaker _ _ _ each.1, ih each.2⟩

theorem Each.exists_of_mem {stands : Text → Text → Text → Prop} {left occurrence : Text}
    {segments : Segments} (each : segments.Each stands left)
    (member : occurrence ∈ segments.occurrences) :
    ∃ front back, left ++ segments.join = front ++ occurrence ++ back ∧
      stands front occurrence back := by
  induction segments generalizing left with
  | last gap => contradiction
  | found gap first rest ih =>
      obtain ⟨here, later⟩ := each
      rcases List.mem_cons.mp member with rfl | behind
      · exact ⟨left ++ gap, rest.join, by simp [join], here⟩
      · obtain ⟨front, back, whole, standing⟩ := ih later behind
        refine ⟨front, back, ?_, standing⟩
        rw [← whole]
        simp [join]

end Segments

namespace Text

variable {rule : Rule}

/-- A rule that does not look back cuts a text in the same way behind any character. -/
theorem cutAfter_eq_cut (blind : ∀ before text, rule before text = rule none text)
    (before : Option Char) (text : Text) : cutAfter rule before text = cut rule text := by
  rw [cut]
  cases text with
  | nil => rw [cutAfter, cutAfter]
  | cons c rest => rw [cutAfter, cutAfter, blind before]

/-- The rule takes the occurrence at its place. -/
structure TakenBy (rule : Rule) (left occurrence right : Text) : Prop where
  nonempty : occurrence ≠ []
  taken : (occurrence ++ right).take (rule left.getLast? (occurrence ++ right)) = occurrence

theorem TakenBy.left_over {left occurrence right : Text}
    (taken : TakenBy rule left occurrence right) :
    (occurrence ++ right).drop (rule left.getLast? (occurrence ++ right)) = right := by
  have whole := List.take_append_drop (rule left.getLast? (occurrence ++ right))
    (occurrence ++ right)
  rw [taken.taken] at whole
  exact List.append_cancel_left whole

theorem each_cutAfter (before : Option Char) (text left : Text) (here : left.getLast? = before) :
    (cutAfter rule before text).Each (TakenBy rule) left := by
  fun_induction cutAfter rule before text generalizing left with
  | case1 => trivial
  | case2 before c rest nothing ih =>
      rw [Segments.each_push]
      exact ih _ (by simp)
  | case3 before c rest more some occurrence ih =>
      have nonempty : occurrence ≠ [] := List.cons_ne_nil c _
      have whole : occurrence ++ rest.drop more = c :: rest := by simp [occurrence]
      refine ⟨⟨nonempty, ?_⟩, ih _ ?_⟩
      · rw [join_cutAfter, whole, List.append_nil, here, some, List.take_succ_cons]
      · have found := List.getLast?_eq_some_getLast nonempty
        rw [List.append_nil, List.getLast?_append, found]
        rfl

/-- Every occurrence in a cut text is one that the rule takes. -/
theorem each_cut (text : Text) : (cut rule text).Each (TakenBy rule) [] :=
  each_cutAfter none text [] rfl

/-- Every occurrence is what the rule takes at some place of some text. -/
theorem occurrence_of_cutAfter {P : Text → Prop}
    (taken : ∀ before text, rule before text ≠ 0 → P (text.take (rule before text)))
    (before : Option Char) (text : Text) :
    ∀ occurrence ∈ (cutAfter rule before text).occurrences, P occurrence := by
  fun_induction cutAfter rule before text with
  | case1 => simp [Segments.occurrences]
  | case2 before c rest nothing ih => simpa using ih
  | case3 before c rest more some occurrence ih =>
      intro candidate member
      rcases List.mem_cons.mp member with rfl | later
      · have here := taken before (c :: rest) (by omega)
        rwa [some, List.take_succ_cons] at here
      · exact ih candidate later

/-- Every character of a gap is one at which the rule takes nothing. -/
theorem gap_of_cutAfter {P : Char → Prop}
    (passed : ∀ before c rest, rule before (c :: rest) = 0 → P c)
    (before : Option Char) (text : Text) :
    ∀ gap ∈ (cutAfter rule before text).gaps, ∀ c ∈ gap, P c := by
  fun_induction cutAfter rule before text with
  | case1 => simp [Segments.gaps]
  | case2 before c rest nothing ih =>
      obtain ⟨gap, others, gaps, pushed⟩ := (cutAfter rule (some c) rest).gaps_push c
      rw [gaps] at ih
      rw [pushed]
      intro candidate member
      rcases List.mem_cons.mp member with rfl | later
      · intro d inside
        rcases List.mem_cons.mp inside with rfl | behind
        · exact passed before d rest nothing
        · exact ih gap (by simp) d behind
      · exact ih candidate (by simp [later])
  | case3 before c rest more some occurrence ih => simpa [Segments.gaps] using ih

end Text

/-- An occurrence with the text before it and the text behind it. -/
structure Site where
  left : Text
  occurrence : Text
  right : Text
deriving DecidableEq

/-- The one site begins farther to the left than the other. -/
def Site.Before (site other : Site) : Prop := site.left.length < other.left.length

instance : Std.Irrefl Site.Before := ⟨fun site => Nat.lt_irrefl site.left.length⟩

instance : Std.Antisymm Site.Before :=
  ⟨fun _ _ first second => absurd second (Nat.lt_asymm first)⟩

namespace Segments

variable {segments : Segments} {left : Text}

/-- The occurrences from left to right, where `left` is what comes before the cut text. -/
def sitesFrom (left : Text) : Segments → List Site
  | .last _ => []
  | .found gap occurrence rest =>
      ⟨left ++ gap, occurrence, rest.join⟩ :: rest.sitesFrom (left ++ gap ++ occurrence)

theorem each_iff {stands : Text → Text → Text → Prop} : segments.Each stands left ↔
    ∀ site ∈ segments.sitesFrom left, stands site.left site.occurrence site.right := by
  induction segments generalizing left with
  | last gap => exact ⟨fun _ => List.forall_mem_nil _, fun _ => trivial⟩
  | found gap occurrence rest ih => rw [Each, sitesFrom, List.forall_mem_cons, ih]

theorem map_sitesFrom (segments : Segments) (left : Text) :
    (segments.sitesFrom left).map Site.occurrence = segments.occurrences := by
  induction segments generalizing left with
  | last gap => rfl
  | found gap occurrence rest ih => rw [sitesFrom, List.map_cons, ih, occurrences]

theorem sitesFrom_push (c : Char) (segments : Segments) (left : Text) :
    (segments.push c).sitesFrom left = segments.sitesFrom (left ++ [c]) := by
  cases segments <;> simp [push, sitesFrom]

/-- Sites come in the order of the text. -/
theorem pairwise_sitesFrom (nonempty : ∀ occurrence ∈ segments.occurrences, occurrence ≠ [])
    (left : Text) : (segments.sitesFrom left).Pairwise Site.Before ∧
      ∀ site ∈ segments.sitesFrom left, left.length ≤ site.left.length := by
  induction segments generalizing left with
  | last gap => exact ⟨.nil, List.forall_mem_nil _⟩
  | found gap occurrence rest ih =>
      obtain ⟨here, later⟩ := List.forall_mem_cons.mp nonempty
      obtain ⟨ordered, behind⟩ := ih later (left ++ gap ++ occurrence)
      have positive := List.length_pos_iff.mpr here
      simp only [List.length_append] at behind
      refine ⟨List.pairwise_cons.mpr ⟨fun site member => ?_, ordered⟩,
        List.forall_mem_cons.mpr ⟨?_, fun site member => ?_⟩⟩
      · have after := behind site member
        simp only [Site.Before, List.length_append]
        omega
      · simp
      · have after := behind site member
        omega

theorem join_of_mem_sitesFrom {site : Site} (isSite : site ∈ segments.sitesFrom left) :
    site.left ++ site.occurrence ++ site.right = left ++ segments.join := by
  induction segments generalizing left with
  | last gap => contradiction
  | found gap occurrence rest ih =>
      rcases List.mem_cons.mp isSite with rfl | later
      · simp [join]
      · rw [ih later]
        simp [join]

end Segments

namespace Text

variable {rule : Rule} {passed gap text occurrence right : Text} {c : Char}
  {before : Option Char}

/-- A cut that has come to the text found nothing in the gap before it.  What it had passed before
the gap ends with an occurrence, unless it is the very beginning. -/
structure Scanned (rule : Rule) (passed gap text : Text) : Prop where
  behind : passed = [] ∨
    ∃ left earlier, passed = left ++ earlier ∧ TakenBy rule left earlier (gap ++ text)
  nothing : ∀ front back, gap = front ++ back → back ≠ [] →
    rule (passed ++ front).getLast? (back ++ text) = 0

theorem scanned_start (rule : Rule) (text : Text) : Scanned rule [] [] text := by
  refine ⟨.inl rfl, fun front back split nonempty => ?_⟩
  exact absurd (List.append_eq_nil_iff.mp split.symm).2 nonempty

theorem Scanned.step (scanned : Scanned rule passed gap (c :: text))
    (none : rule (passed ++ gap).getLast? (c :: text) = 0) :
    Scanned rule passed (gap ++ [c]) text := by
  constructor
  · simpa using scanned.behind
  · intro front back split nonempty
    obtain ⟨init, last, rfl⟩ := List.eq_nil_or_concat back |>.resolve_left nonempty
    rw [List.concat_eq_append, ← List.append_assoc] at split
    obtain ⟨rfl, same⟩ := List.append_inj' split rfl
    obtain rfl := List.singleton_inj.mp same
    rw [List.concat_eq_append, List.append_assoc, List.singleton_append]
    cases init with
    | nil => simpa using none
    | cons d init => exact scanned.nothing front (d :: init) rfl (List.cons_ne_nil d init)

theorem scanned_behind (taken : TakenBy rule (passed ++ gap) occurrence right) :
    Scanned rule (passed ++ gap ++ occurrence) [] right := by
  refine ⟨.inr ⟨passed ++ gap, occurrence, rfl, taken⟩, fun front back split nonempty => ?_⟩
  exact absurd (List.append_eq_nil_iff.mp split.symm).2 nonempty

/-- The occurrence is taken where a cut has come to it. -/
def ComesTo (rule : Rule) (left occurrence right : Text) : Prop :=
  TakenBy rule left occurrence right ∧
    ∃ passed gap, left = passed ++ gap ∧ Scanned rule passed gap (occurrence ++ right)

theorem each_scanned (scanned : Scanned rule passed gap text)
    (here : (passed ++ gap).getLast? = before) :
    (cutAfter rule before text).Each (ComesTo rule) (passed ++ gap) := by
  fun_induction cutAfter rule before text generalizing passed gap with
  | case1 => trivial
  | case2 before c rest nothing ih =>
      rw [Segments.each_push, List.append_assoc]
      exact ih (scanned.step (by rw [here, nothing])) (by simp)
  | case3 before c rest more some =>
      rename_i occurrence ih
      have each := @each_cutAfter rule before (c :: rest) (passed ++ gap) here
      rw [cutAfter, some] at each
      obtain ⟨taken, -⟩ := each
      have whole : occurrence ++ rest.drop more = c :: rest := by simp [occurrence]
      rw [List.append_nil, join_cutAfter] at taken
      refine ⟨⟨?_, passed, gap, List.append_nil _, ?_⟩, ?_⟩
      · rwa [List.append_nil, join_cutAfter]
      · rwa [join_cutAfter, whole]
      · have later := ih (scanned_behind taken) ?_
        · simpa using later
        · have found := List.getLast?_eq_some_getLast (List.cons_ne_nil c (rest.take more))
          rw [List.append_nil, List.getLast?_append, found]
          rfl

theorem pairwise_sites_cut (rule : Rule) (text : Text) :
    ((cut rule text).sitesFrom []).Pairwise Site.Before := by
  refine (Segments.pairwise_sitesFrom (fun occurrence found => ?_) []).1
  obtain ⟨left, right, -, taken⟩ := (each_cut text).exists_of_mem found
  exact taken.nonempty

theorem comesTo_of_mem_cut {site : Site} (isSite : site ∈ (cut rule text).sitesFrom []) :
    ComesTo rule site.left site.occurrence site.right :=
  Segments.each_iff.mp (each_scanned (scanned_start rule text) rfl) site isSite

end Text

open Text

/-- What the rule takes in front of one of its occurrences ends before that occurrence. -/
def Rule.Separate (rule : Rule) : Prop :=
  ∀ {front back occurrence right : Text}, back ≠ [] →
    TakenBy rule (front ++ back) occurrence right →
    rule front.getLast? (back ++ (occurrence ++ right)) ≤ back.length

namespace Rule.Separate

variable {rule : Rule} {text left occurrence right : Text}

/-- A cut comes to every occurrence in front of it, since nothing it takes reaches into that. -/
theorem mem_sitesFrom (separate : rule.Separate) (passed left : Text)
    (taken : TakenBy rule (passed ++ left) occurrence right) :
    ⟨passed ++ left, occurrence, right⟩ ∈
      (cutAfter rule passed.getLast? (left ++ (occurrence ++ right))).sitesFrom passed := by
  induction count : left.length using Nat.strongRecOn generalizing passed left with
  | ind length ih =>
      subst count
      cases left with
      | nil =>
          obtain ⟨c, more, rfl⟩ := List.exists_cons_of_ne_nil taken.nonempty
          rw [List.append_nil] at taken ⊢
          have whole := taken.left_over
          have own := taken.taken
          rw [List.nil_append, List.cons_append, cutAfter]
          rw [List.cons_append] at whole own
          cases size : rule passed.getLast? (c :: (more ++ right)) with
          | zero =>
              rw [size] at own
              contradiction
          | succ count =>
              rw [size, List.take_succ_cons] at own
              rw [size, List.drop_succ_cons] at whole
              simp only [Segments.sitesFrom, join_cutAfter, whole, own, List.append_nil]
              exact List.mem_cons_self
      | cons d front =>
          have within := @separate passed _ _ _ (List.cons_ne_nil d front) taken
          rw [List.cons_append, cutAfter]
          cases size : rule passed.getLast? (d :: (front ++ (occurrence ++ right))) with
          | zero =>
              have later := ih front.length (Nat.lt_succ_self _) (passed ++ [d]) front
                (by simpa using taken) rfl
              rw [List.getLast?_concat] at later
              dsimp only
              rw [Segments.sitesFrom_push]
              simpa using later
          | succ more =>
              have inFront : more ≤ front.length := by
                rw [List.cons_append, size, List.length_cons] at within
                omega
              have split : passed ++ d :: front =
                  passed ++ d :: front.take more ++ front.drop more := by
                simp
              have shorter : (front.drop more).length < (d :: front).length := by
                rw [List.length_drop, List.length_cons]
                omega
              have later := ih _ shorter (passed ++ d :: front.take more) (front.drop more)
                (split ▸ taken) rfl
              rw [List.getLast?_append_of_ne_nil passed (List.cons_ne_nil _ _), ← split] at later
              dsimp only
              rw [Segments.sitesFrom, List.append_nil, List.take_append_of_le_length inFront,
                List.drop_append_of_le_length inFront]
              exact List.mem_cons_of_mem _ later

/-- The sites of a cut are all places at which the rule takes something. -/
theorem mem_sites_iff (separate : rule.Separate) {site : Site} :
    site ∈ (cut rule text).sitesFrom [] ↔ site.left ++ site.occurrence ++ site.right = text ∧
      TakenBy rule site.left site.occurrence site.right := by
  constructor
  · intro isSite
    refine ⟨?_, (comesTo_of_mem_cut isSite).1⟩
    rw [Segments.join_of_mem_sitesFrom isSite, join_cut, List.nil_append]
  · rintro ⟨rfl, taken⟩
    have found := separate.mem_sitesFrom [] site.left taken
    rwa [← List.append_assoc] at found

theorem mem_occurrences_iff (separate : rule.Separate) :
    occurrence ∈ (cut rule text).occurrences ↔
      ∃ left right, text = left ++ (occurrence ++ right) ∧ TakenBy rule left occurrence right := by
  rw [← Segments.map_sitesFrom _ [], List.mem_map]
  constructor
  · rintro ⟨site, isSite, rfl⟩
    obtain ⟨whole, taken⟩ := separate.mem_sites_iff.mp isSite
    exact ⟨site.left, site.right, by rw [← whole, List.append_assoc], taken⟩
  · rintro ⟨left, right, rfl, taken⟩
    exact ⟨⟨left, occurrence, right⟩, separate.mem_sites_iff.mpr ⟨List.append_assoc .., taken⟩, rfl⟩

end Rule.Separate

end ProseTree
