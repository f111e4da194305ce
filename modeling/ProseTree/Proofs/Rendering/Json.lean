import Mathlib.Data.List.Basic
import ProseTree.Proofs.Node.Reconstruction
import ProseTree.Rendering.Format

namespace ProseTree

/-! Reading a tree off its JSON.

No escape is the beginning of another, so a quoted text ends where its closing quote stands,
whatever comes after it; and what comes after a label tells whether the node has a text, children
or neither.  So the objects of two nodes can only begin two equal texts when the nodes are alike,
and then what follows them is equal too. -/

namespace Json

variable {c other : Char} {left right after behind : Text} {depth : Nat}

/-- The characters that are escaped. -/
def escaped : Text := '"' :: '\\' :: (List.range 0x20).map Char.ofNat

theorem head?_escape : ∀ c ∈ escaped, (escape c).head? = some '\\' := by
  have checked : escaped.all fun c => (escape c).head? = some '\\' := by decide +kernel
  simpa only [List.all_eq_true, decide_eq_true_eq] using checked

/-- No escape is the beginning of another. -/
theorem escapes_apart :
    ∀ c ∈ escaped, ∀ other ∈ escaped, escape c <+: escape other → c = other := by
  have checked : escaped.all fun c =>
      escaped.all fun other => escape c <+: escape other → c = other := by decide +kernel
  simpa only [List.all_eq_true, decide_eq_true_eq] using checked

theorem escape_of_not_mem (plain : c ∉ escaped) :
    escape c = [c] ∧ c ≠ '"' ∧ c ≠ '\\' := by
  have notQuote : c ≠ '"' := by
    rintro rfl
    exact plain List.mem_cons_self
  have notSlash : c ≠ '\\' := by
    rintro rfl
    exact plain (List.mem_cons_of_mem _ List.mem_cons_self)
  have noControl : ¬c.toNat < 0x20 := by
    intro control
    refine plain (List.mem_cons_of_mem _ (List.mem_cons_of_mem _ ?_))
    exact List.mem_map.mpr ⟨c.toNat, List.mem_range.mpr control, Char.ofNat_toNat c⟩
  refine ⟨?_, notQuote, notSlash⟩
  unfold escape
  split
  · contradiction
  · contradiction
  · exact absurd (by decide) noControl
  · exact absurd (by decide) noControl
  · exact absurd (by decide) noControl
  · rw [if_neg (by omega), if_neg (by omega), if_neg noControl]

theorem escape_cases (c : Char) :
    (c ∈ escaped ∧ ∃ code, escape c = '\\' :: code) ∨
      (escape c = [c] ∧ c ≠ '"' ∧ c ≠ '\\') := by
  by_cases special : c ∈ escaped
  · exact .inl ⟨special, List.head?_eq_some_iff.mp (head?_escape c special)⟩
  · exact .inr (escape_of_not_mem special)

theorem escape_inj (same : escape c ++ after = escape other ++ behind) :
    c = other ∧ after = behind := by
  have characters : c = other := by
    rcases escape_cases c with ⟨special, code, form⟩ | ⟨plain, -, notSlash⟩
    · rcases escape_cases other with ⟨otherSpecial, -⟩ | ⟨otherPlain, -, otherNotSlash⟩
      · rcases List.append_eq_append_iff.mp same with ⟨more, longer, -⟩ | ⟨more, longer, -⟩
        · exact escapes_apart c special other otherSpecial ⟨more, longer.symm⟩
        · exact (escapes_apart other otherSpecial c special ⟨more, longer.symm⟩).symm
      · rw [form, otherPlain] at same
        exact absurd (List.cons.inj same).1.symm otherNotSlash
    · rcases escape_cases other with ⟨-, code, form⟩ | ⟨otherPlain, -⟩
      · rw [plain, form] at same
        exact absurd (List.cons.inj same).1 notSlash
      · rw [plain, otherPlain] at same
        exact (List.cons.inj same).1
  subst characters
  exact ⟨rfl, List.append_cancel_left same⟩

theorem escape_ne_quote (c : Char) (rest after : Text) : '"' :: after ≠ escape c ++ rest := by
  intro same
  rcases escape_cases c with ⟨-, code, form⟩ | ⟨plain, notQuote, -⟩
  · rw [form] at same
    exact absurd (List.cons.inj same).1 (by decide)
  · rw [plain] at same
    exact notQuote (List.cons.inj same).1.symm

theorem quote_inj (same : quote left ++ after = quote right ++ behind) :
    left = right ∧ after = behind := by
  simp only [quote, List.cons_append, List.append_assoc, List.nil_append, List.cons.injEq,
    true_and] at same
  induction left generalizing right with
  | nil =>
      cases right with
      | nil => exact ⟨rfl, (List.cons.inj same).2⟩
      | cons c rest =>
          rw [List.flatMap_cons, List.append_assoc] at same
          exact absurd same (escape_ne_quote c _ _)
  | cons c rest ih =>
      cases right with
      | nil =>
          rw [List.flatMap_cons, List.append_assoc] at same
          exact absurd same.symm (escape_ne_quote c _ _)
      | cons other others =>
          rw [List.flatMap_cons, List.append_assoc, List.flatMap_cons, List.append_assoc] at same
          obtain ⟨rfl, later⟩ := escape_inj same
          obtain ⟨rfl, ends⟩ := ih later
          exact ⟨rfl, ends⟩

theorem tag_inj {kind other : Kind} (same : kind.tag.toList = other.tag.toList) : kind = other := by
  revert same
  cases kind <;> cases other <;> decide

/-- The start of an object, up to the end of its label. -/
def opening (depth : Nat) (node : Node) : Text :=
  '{' :: margin (depth + 1) ++ member "node_type" ++ quote node.kind.tag.toList ++
    ',' :: margin (depth + 1) ++ member "label" ++ quote node.label

/-- The end of an object that has no member left. -/
def closing (depth : Nat) (after : Text) : Text := margin depth ++ '}' :: after

/-- The start of a further member of an object. -/
def further (depth : Nat) (name : String) (after : Text) : Text :=
  ',' :: margin (depth + 1) ++ member name ++ after

theorem object_leaf (depth : Nat) (id : Option NodeId) (kind : Kind) (text after : Text) :
    object depth (Node.leaf id kind text).labelled ++ after =
      opening depth (.leaf id kind text) ++
        further depth "text" (quote text ++ closing depth after) := by
  simp [Node.labelled, object, opening, further, closing, Node.kind]

theorem object_childless (depth : Nat) (id : Option NodeId) (kind : Kind) (after : Text) :
    object depth (Node.composite id kind []).labelled ++ after =
      opening depth (.composite id kind []) ++ closing depth after := by
  simp [Node.labelled, Node.labelledAll, object, opening, closing, Node.kind]

theorem object_composite (depth : Nat) (id : Option NodeId) (kind : Kind) (first : Node)
    (rest : List Node) (after : Text) :
    object depth (Node.composite id kind (first :: rest)).labelled ++ after =
      opening depth (.composite id kind (first :: rest)) ++
        further depth "children" ('[' :: (elements (depth + 2) (Node.labelledAll (first :: rest)) ++
          (margin (depth + 1) ++ ']' :: closing depth after))) := by
  simp [Node.labelled, Node.labelledAll, object, opening, further, closing, Node.kind]

theorem opening_inj {node other : Node}
    (same : opening depth node ++ after = opening depth other ++ behind) :
    node.kind = other.kind ∧ after = behind := by
  simp only [opening, List.append_assoc, List.cons_append, List.cons.injEq, true_and,
    List.append_cancel_left_eq] at same
  obtain ⟨tags, labels⟩ := quote_inj same
  simp only [List.cons.injEq, true_and, List.append_cancel_left_eq] at labels
  exact ⟨tag_inj tags, (quote_inj labels).2⟩

theorem further_inj {name otherName : String}
    (same : further depth name after = further depth otherName behind) :
    name.toList = otherName.toList ∧ after = behind := by
  simp only [further, member, List.append_assoc, List.cons_append, List.cons.injEq, true_and,
    List.append_cancel_left_eq] at same
  obtain ⟨names, values⟩ := quote_inj same
  exact ⟨names, by simpa using values⟩

theorem closing_ne_further (depth : Nat) (name : String) (after behind : Text) :
    closing depth after ≠ further depth name behind := by
  simp [closing, further, margin]

theorem elements_singleton (depth : Nat) (node : Node) (after : Text) :
    elements depth (Node.labelledAll [node]) ++ after =
      margin depth ++ (object depth node.labelled ++ after) := by
  simp [Node.labelledAll, elements]

theorem elements_cons_cons (depth : Nat) (node next : Node) (rest : List Node) (after : Text) :
    elements depth (Node.labelledAll (node :: next :: rest)) ++ after =
      margin depth ++ (object depth node.labelled ++
        ',' :: (elements depth (Node.labelledAll (next :: rest)) ++ after)) := by
  simp [Node.labelledAll, elements]

mutual
/-- An object ends where its node ends, and tells the node. -/
theorem object_inj (depth : Nat) : (left right : Node) → {after behind : Text} →
    object depth left.labelled ++ after = object depth right.labelled ++ behind →
    left.unmarked = right.unmarked ∧ after = behind
  -- What follows the label is a comma or a line feed, and the comma's member has a name.
  | .leaf id kind text, .leaf otherId otherKind otherText, after, behind, same => by
      rw [object_leaf, object_leaf] at same
      obtain ⟨rfl, texts⟩ := opening_inj same
      obtain ⟨rfl, ends⟩ := quote_inj (further_inj texts).2
      exact ⟨rfl, by simpa [closing] using ends⟩
  | .leaf id kind text, .composite otherId otherKind [], after, behind, same => by
      rw [object_leaf, object_childless] at same
      exact absurd (opening_inj same).2.symm (closing_ne_further depth _ _ _)
  | .leaf id kind text, .composite otherId otherKind (first :: rest), after, behind, same => by
      rw [object_leaf, object_composite] at same
      exact absurd (further_inj (opening_inj same).2).1 (by decide)
  | .composite id kind [], .leaf otherId otherKind text, after, behind, same => by
      rw [object_leaf, object_childless] at same
      exact absurd (opening_inj same).2 (closing_ne_further depth _ _ _)
  | .composite id kind [], .composite otherId otherKind [], after, behind, same => by
      rw [object_childless, object_childless] at same
      obtain ⟨rfl, ends⟩ := opening_inj same
      exact ⟨rfl, by simpa [closing] using ends⟩
  | .composite id kind [], .composite otherId otherKind (first :: rest), after, behind, same => by
      rw [object_childless, object_composite] at same
      exact absurd (opening_inj same).2 (closing_ne_further depth _ _ _)
  | .composite id kind (first :: rest), .leaf otherId otherKind text, after, behind, same => by
      rw [object_leaf, object_composite] at same
      exact absurd (further_inj (opening_inj same).2).1 (by decide)
  | .composite id kind (first :: rest), .composite otherId otherKind [], after, behind, same => by
      rw [object_childless, object_composite] at same
      exact absurd (opening_inj same).2.symm (closing_ne_further depth _ _ _)
  | .composite id kind (first :: rest), .composite otherId otherKind (other :: others), after,
      behind, same => by
      rw [object_composite, object_composite] at same
      obtain ⟨rfl, members⟩ := opening_inj same
      have lists := (List.cons.inj (further_inj members).2).2
      rw [margin, List.cons_append, List.cons_append] at lists
      obtain ⟨children, ends⟩ := elements_inj (depth + 2) (first :: rest) (other :: others)
        (List.cons_ne_nil _ _) (List.cons_ne_nil _ _) lists
      rw [Node.unmarked, Node.unmarked, children]
      exact ⟨rfl, by simpa [closing] using ends⟩

theorem elements_inj (depth : Nat) : (left right : List Node) → left ≠ [] → right ≠ [] →
    {after behind : Text} →
    elements depth (Node.labelledAll left) ++ '\n' :: after =
      elements depth (Node.labelledAll right) ++ '\n' :: behind →
    Node.unmarkedAll left = Node.unmarkedAll right ∧ after = behind
  | [], _, nonempty, _, _, _, _ => absurd rfl nonempty
  | _ :: _, [], _, nonempty, _, _, _ => absurd rfl nonempty
  | [node], [other], _, _, _, _, same => by
      rw [elements_singleton, elements_singleton] at same
      obtain ⟨alike, ends⟩ := object_inj depth node other (List.append_cancel_left same)
      exact ⟨congrArg ([·]) alike, (List.cons.inj ends).2⟩
  | [node], other :: next :: others, _, _, _, _, same => by
      rw [elements_singleton, elements_cons_cons] at same
      have ends := (object_inj depth node other (List.append_cancel_left same)).2
      exact absurd (List.cons.inj ends).1 (by decide)
  | node :: second :: rest, [other], _, _, _, _, same => by
      rw [elements_singleton, elements_cons_cons] at same
      have ends := (object_inj depth node other (List.append_cancel_left same)).2
      exact absurd (List.cons.inj ends).1 (by decide)
  | node :: second :: rest, other :: next :: others, _, _, _, _, same => by
      rw [elements_cons_cons, elements_cons_cons] at same
      obtain ⟨alike, ends⟩ := object_inj depth node other (List.append_cancel_left same)
      obtain ⟨later, last⟩ := elements_inj depth (second :: rest) (next :: others)
        (List.cons_ne_nil _ _) (List.cons_ne_nil _ _) (List.cons.inj ends).2
      exact ⟨congrArg₂ List.cons alike later, last⟩
end

end Json

/-- The JSON of a tree is its content: two trees have the same exactly when they agree in kinds,
texts and children. -/
theorem Node.json_eq_iff (left right : Node) : left.json = right.json ↔ left.alike right = true := by
  rw [Node.alike, beq_iff_eq]
  constructor
  · intro same
    have ended : Json.object 0 left.labelled ++ [] = Json.object 0 right.labelled ++ [] :=
      congrArg (· ++ []) same
    exact (Json.object_inj 0 left right ended).1
  · intro alike
    rw [Node.json, Node.json, ← Node.labelled_unmarked left, alike, Node.labelled_unmarked]

end ProseTree
