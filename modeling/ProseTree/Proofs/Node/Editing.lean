import ProseTree.Proofs.Node.Sharing

namespace ProseTree.Node

/-! Adding and removing children, one call after another.

A shared node is told by its identity, whatever it reads.  So a call takes away the first child
that is the very node, or nothing, and the children that stay are in the order in which they were
added. -/

/-- A call that changes the children of a node. -/
inductive Edit where
  | add (child : Node)
  | remove (child : Node)

namespace Edit

/-- The node that a call is about. -/
def node : Edit → Node
  | add child => child
  | remove child => child

/-- Whether a node is not the one that a call is to remove. -/
def spares (node : Node) : Edit → Bool
  | add _ => true
  | remove child => !child.same node

/-- The nodes that calls add, in the order of the calls. -/
def added : List Edit → List Node
  | [] => []
  | .add child :: rest => child :: added rest
  | .remove _ :: rest => added rest

end Edit

/-- Does one call after another, and collects the answers of those that remove. -/
def editAll (node : Node) : List Edit → Except StructuralError (Node × List (Option Node))
  | [] => .ok (node, [])
  | .add child :: rest => do
      let grown ← node.add child
      grown.editAll rest
  | .remove child :: rest => do
      let step ← node.remove child
      let last ← step.1.editAll rest
      return (last.1, step.2 :: last.2)

/-- What calls make of a list of children, and the answers of those that remove. -/
inductive Edited : List Node → List Edit → List (Option Node) → List Node → Prop where
  | done {children : List Node} : Edited children [] [] children
  | add {children after : List Node} {child : Node} {edits : List Edit}
      {answers : List (Option Node)} (rest : Edited (children ++ [child]) edits answers after) :
      Edited children (.add child :: edits) answers after
  /-- The first child that is the very node goes, and is the answer. -/
  | remove {front back after : List Node} {child : Node} {edits : List Edit}
      {answers : List (Option Node)} (first : ∀ other ∈ front, other.id ≠ child.id)
      (rest : Edited (front ++ back) edits answers after) :
      Edited (front ++ child :: back) (.remove child :: edits) (some child :: answers) after
  /-- No child is the node, and nothing changes. -/
  | absent {children after : List Node} {child : Node} {edits : List Edit}
      {answers : List (Option Node)} (stranger : ∀ other ∈ children, other.id ≠ child.id)
      (rest : Edited children edits answers after) :
      Edited children (.remove child :: edits) (none :: answers) after

variable {ledger : Ledger} {parent child other : Node} {children after : List Node}
  {edits : List Edit} {answers : List (Option Node)}

theorem Shared.same_iff (shared : child.Shared ledger) :
    child.same other = true ↔ other.id = child.id := by
  obtain ⟨identity, isOwn, -⟩ := shared.recorded
  rw [same, isOwn]
  cases other.id with
  | none => exact iff_of_false Bool.false_ne_true (Option.some_ne_none identity).symm
  | some otherIdentity =>
      rw [Option.some.injEq, beq_iff_eq]
      exact eq_comm

theorem Shared.not_same_iff (shared : child.Shared ledger) :
    ¬child.same other = true ↔ other.id ≠ child.id :=
  not_congr shared.same_iff

/-- Either the first child that is the very node goes, or no child is the node. -/
theorem remove_cases (shared : child.Shared ledger) (each : ∀ other ∈ children, other.Shared ledger)
    (id : Option NodeId) (kind : Kind) :
    (∃ front back, children = front ++ child :: back ∧
      (∀ other ∈ front, other.id ≠ child.id) ∧
      (composite id kind children).remove child =
        .ok (composite id kind (front ++ back), some child)) ∨
    (∀ other ∈ children, other.id ≠ child.id) ∧
      (composite id kind children).remove child = .ok (composite id kind children, none) := by
  cases found : children.find? child.same with
  | none =>
      have stranger := List.find?_eq_none.mp found
      refine .inr ⟨fun other member => shared.not_same_iff.mp (stranger other member), ?_⟩
      rw [remove, found, List.eraseP_of_forall_not stranger]
  | some held =>
      obtain ⟨isSame, front, back, rfl, before⟩ := List.find?_eq_some_iff_append.mp found
      have first : ∀ other ∈ front, ¬child.same other = true :=
        fun other member => by simpa using before other member
      obtain rfl : held = child :=
        shared.eq_of_id (each held (List.mem_append_right front List.mem_cons_self))
          (List.prefix_refl ledger) (shared.same_iff.mp isSame)
      refine .inl ⟨front, back, rfl,
        fun other member => shared.not_same_iff.mp (first other member), ?_⟩
      rw [remove, found, List.eraseP_append_right _ first, List.eraseP_cons_of_pos isSame]

theorem exists_edited (each : ∀ child ∈ children, child.Shared ledger)
    (about : ∀ edit ∈ edits, edit.node.Shared ledger) (id : Option NodeId) (kind : Kind) :
    ∃ after answers, (composite id kind children).editAll edits =
      .ok (composite id kind after, answers) ∧ Edited children edits answers after := by
  induction edits generalizing children with
  | nil => exact ⟨children, [], rfl, .done⟩
  | cons edit rest ih =>
      obtain ⟨own, others⟩ := List.forall_mem_cons.mp about
      cases edit with
      | add child =>
          change child.Shared ledger at own
          have grown : ∀ other ∈ children ++ [child], other.Shared ledger :=
            List.forall_mem_append.mpr ⟨each, List.forall_mem_singleton.mpr own⟩
          obtain ⟨after, answers, ran, edited⟩ := ih grown others
          exact ⟨after, answers, ran, .add edited⟩
      | remove child =>
          change child.Shared ledger at own
          rcases remove_cases own each id kind with
            ⟨front, back, rfl, first, removed⟩ | ⟨stranger, kept⟩
          · have left : ∀ other ∈ front ++ back, other.Shared ledger := fun other member =>
              each other (((List.sublist_cons_self child back).append_left front).subset member)
            obtain ⟨after, answers, ran, edited⟩ := ih left others
            refine ⟨after, some child :: answers, ?_, .remove first edited⟩
            simp only [editAll, removed, ran, bind, Except.bind, pure, Except.pure]
          · obtain ⟨after, answers, ran, edited⟩ := ih each others
            refine ⟨after, none :: answers, ?_, .absent stranger edited⟩
            simp only [editAll, kept, ran, bind, Except.bind, pure, Except.pure]

/-- A node is left as often as it was there and was added, less the times it was removed. -/
theorem Edited.count (edited : Edited children edits answers after) (node : Node) :
    after.count node + answers.count (some node) =
      (children ++ Edit.added edits).count node := by
  induction edited with
  | done => rw [Edit.added, List.append_nil, List.count_nil, Nat.add_zero]
  | add rest ih => rw [ih, Edit.added, List.append_assoc, List.singleton_append]
  | @remove front back after child edits answers first rest ih =>
      have moved : (front ++ child :: back ++ Edit.added edits).count node =
          (child :: (front ++ back ++ Edit.added edits)).count node := by
        rw [List.append_assoc, List.append_assoc]
        exact List.perm_middle.count_eq node
      rw [Edit.added, moved]
      by_cases own : child = node
      · rw [own, List.count_cons_self, List.count_cons_self, ← Nat.add_assoc, ih]
      · have otherAnswer : some child ≠ some node := fun same => own (Option.some.inj same)
        rw [List.count_cons_of_ne own, List.count_cons_of_ne otherAnswer, ih]
  | absent stranger rest ih =>
      rw [Edit.added, List.count_cons_of_ne (Option.some_ne_none node).symm, ih]

theorem Edited.sublist (edited : Edited children edits answers after) :
    after.Sublist (children ++ Edit.added edits) := by
  induction edited with
  | done => exact List.sublist_append_left _ _
  | add rest ih => rwa [List.append_assoc, List.singleton_append] at ih
  | @remove front back after child edits answers first rest ih =>
      exact ih.trans (((List.sublist_cons_self child back).append_left front).append_right _)
  | absent stranger rest ih => exact ih

/-- Nodes that no call is to remove all stay, in their order. -/
theorem Edited.filter {keeps : Node → Bool} (edited : Edited children edits answers after)
    (kept : ∀ child, Edit.remove child ∈ edits → keeps child = false) :
    after.filter keeps = (children ++ Edit.added edits).filter keeps := by
  induction edited with
  | done => rw [Edit.added, List.append_nil]
  | add rest ih =>
      rw [ih fun child later => kept child (List.mem_cons_of_mem _ later), Edit.added,
        List.append_assoc, List.singleton_append]
  | @remove front back after child edits answers first rest ih =>
      have goes : keeps child = false := kept child List.mem_cons_self
      rw [ih fun child later => kept child (List.mem_cons_of_mem _ later), Edit.added,
        List.append_assoc, List.append_assoc, List.cons_append, List.filter_append,
        List.filter_append front, List.filter_cons_of_neg (Bool.eq_false_iff.mp goes)]
  | absent stranger rest ih =>
      rw [ih fun child later => kept child (List.mem_cons_of_mem _ later), Edit.added]

/-- Adding puts a node behind the others, and removing takes away the first child that is the very
node and answers it, or changes nothing when no child is.  So however often nodes are added and
removed, each is left as often as it was there and was added, less the times it was removed.  The
nodes that are left are in the order in which they were added, and of those that no call was to
remove none is missing, whatever they read. -/
theorem editing_exact (isComposite : parent.isLeaf = false)
    (each : ∀ child ∈ parent.children, child.Shared ledger)
    (about : ∀ edit ∈ edits, edit.node.Shared ledger) :
    let inserted := parent.children ++ Edit.added edits
    ∃ after answers,
      parent.editAll edits = .ok (composite parent.id parent.kind after, answers) ∧
      Edited parent.children edits answers after ∧
      (∀ node, after.count node + answers.count (some node) = inserted.count node) ∧
      after.Sublist inserted ∧
      (after.filter fun node => edits.all (Edit.spares node)) =
        inserted.filter fun node => edits.all (Edit.spares node) := by
  cases parent with
  | leaf id kind text => contradiction
  | composite id kind children =>
      obtain ⟨after, answers, ran, edited⟩ := exists_edited each about id kind
      refine ⟨after, answers, ran, edited, edited.count, edited.sublist,
        edited.filter fun child isRemoved => ?_⟩
      have own : child.same child = true := (about _ isRemoved).same_iff.mpr rfl
      exact List.all_eq_false.mpr ⟨_, isRemoved, by simp [Edit.spares, own]⟩

/-- Three nodes that read the same, one of which is never a child. -/
theorem editing_exact_alike :
    let first := leaf (some 0) .word ['a']
    let second := leaf (some 1) .word ['a']
    let stranger := leaf (some 2) .word ['a']
    let ledger := [first, second, stranger]
    let parent := composite none .lexeme [first]
    let edits : List Edit :=
      [.add second, .add first, .add second, .remove second, .remove stranger, .remove first]
    parent.isLeaf = false ∧ (∀ child ∈ parent.children, child.Shared ledger) ∧
    (∀ edit ∈ edits, edit.node.Shared ledger) ∧ first.alike stranger = true ∧
    parent.editAll edits =
      .ok (composite none .lexeme [first, second], [some second, none, some first]) ∧
    Edited [first] edits [some second, none, some first] [first, second] := by
  intro first second stranger ledger parent edits
  have sharedFirst : first.Shared ledger := .leaf rfl rfl
  have sharedSecond : second.Shared ledger := .leaf rfl rfl
  have sharedStranger : stranger.Shared ledger := .leaf rfl rfl
  have each : ∀ child ∈ parent.children, child.Shared ledger :=
    List.forall_mem_singleton.mpr sharedFirst
  have about : ∀ edit ∈ edits, edit.node.Shared ledger := by
    simp [edits, Edit.node, sharedFirst, sharedSecond, sharedStranger]
  have computed : parent.editAll edits =
      .ok (composite none .lexeme [first, second], [some second, none, some first]) := rfl
  obtain ⟨after, answers, ran, edited, -⟩ := editing_exact rfl each about
  obtain ⟨same, rfl⟩ := Prod.mk.inj (Except.ok.inj (ran.symm.trans computed))
  obtain ⟨-, -, rfl⟩ := Node.composite.inj same
  exact ⟨rfl, each, about, rfl, computed, edited⟩

end ProseTree.Node
