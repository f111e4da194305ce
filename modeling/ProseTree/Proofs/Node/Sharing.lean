import Mathlib.Data.List.Basic
import ProseTree.Node.Edit
import ProseTree.Proofs.Node.Walk

namespace ProseTree.Node

/-! Nodes that are held by other nodes.

A ledger has every node that ever got an identity, at the place of its identity, and it only grows.
A node is shared in the sense of a ledger when the ledger has the node and all nodes below it as
they stand, so an identity never belongs to two different nodes. -/

/-- The nodes with an identity, each at the place of its identity. -/
abbrev Ledger := List Node

/-- A node that may be held by others.  Every kind in its tree carries the right payload. -/
inductive Shared (ledger : Ledger) : Node → Prop where
  | leaf {identity : NodeId} {kind : Kind} {text : Text} (isLeaf : kind.isLeaf = true)
      (recorded : ledger[identity]? = some (.leaf (some identity) kind text)) :
      Shared ledger (.leaf (some identity) kind text)
  | composite {identity : NodeId} {kind : Kind} {children : List Node}
      (isComposite : kind.isLeaf = false)
      (recorded : ledger[identity]? = some (.composite (some identity) kind children))
      (each : ∀ child ∈ children, Shared ledger child) :
      Shared ledger (.composite (some identity) kind children)

/-- A node that can be changed: it has no identity, and its children are shared. -/
inductive Opened (ledger : Ledger) : Node → Prop where
  | leaf {kind : Kind} {text : Text} (isLeaf : kind.isLeaf = true) :
      Opened ledger (.leaf none kind text)
  | composite {kind : Kind} {children : List Node} (isComposite : kind.isLeaf = false)
      (each : ∀ child ∈ children, child.Shared ledger) :
      Opened ledger (.composite none kind children)

/-- A node that is put together from shared nodes and from new ones. -/
inductive Assembled (ledger : Ledger) : Node → Prop where
  | shared {node : Node} (shared : node.Shared ledger) : Assembled ledger node
  | leaf {kind : Kind} {text : Text} (isLeaf : kind.isLeaf = true) :
      Assembled ledger (.leaf none kind text)
  | composite {kind : Kind} {children : List Node} (isComposite : kind.isLeaf = false)
      (each : ∀ child ∈ children, Assembled ledger child) :
      Assembled ledger (.composite none kind children)

/-- The node and the nodes below it. -/
def reachable (node : Node) : List Node := node :: node.descendants

/-- A leaf kind with a text and no children, or another kind without a text. -/
def FitsKind (node : Node) : Prop :=
  (node.kind.isLeaf = true ↔ node.text?.isSome = true) ∧
    (node.kind.isLeaf = true → node.children = [])

variable {ledger grown : Ledger} {node other : Node} {nodes : List Node} {identity : NodeId}

theorem fitsKind_leaf {id : Option NodeId} {kind : Kind} {text : Text}
    (isLeaf : kind.isLeaf = true) : (leaf id kind text).FitsKind := by
  simp [FitsKind, Node.kind, Node.text?, Node.children, isLeaf]

theorem fitsKind_composite {id : Option NodeId} {kind : Kind} {children : List Node}
    (isComposite : kind.isLeaf = false) : (composite id kind children).FitsKind := by
  simp [FitsKind, Node.kind, Node.text?, isComposite]

theorem mem_descendants_iff :
    other ∈ node.descendants ↔ ∃ child ∈ node.children, other ∈ child.reachable := by
  cases node with
  | leaf id kind text => simp [descendants, Node.children]
  | composite id kind children =>
      rw [descendants, preorderAll_eq, List.mem_flatMap]
      rfl

theorem getElem?_of_grows (grows : ledger <+: grown) (recorded : ledger[identity]? = some node) :
    grown[identity]? = some node := by
  obtain ⟨more, rfl⟩ := grows
  rw [List.getElem?_append_left (List.getElem?_eq_some_iff.mp recorded).1, recorded]

theorem Shared.mono (shared : node.Shared ledger) (grows : ledger <+: grown) :
    node.Shared grown := by
  induction shared with
  | leaf isLeaf recorded => exact .leaf isLeaf (getElem?_of_grows grows recorded)
  | composite isComposite recorded _ ih =>
      exact .composite isComposite (getElem?_of_grows grows recorded) ih

theorem Shared.recorded (shared : node.Shared ledger) :
    ∃ identity, node.id = some identity ∧ ledger[identity]? = some node := by
  cases shared with
  | leaf isLeaf recorded => exact ⟨_, rfl, recorded⟩
  | composite isComposite recorded each => exact ⟨_, rfl, recorded⟩

theorem Shared.of_mem_children (shared : node.Shared ledger) :
    ∀ child ∈ node.children, child.Shared ledger := by
  cases shared with
  | leaf isLeaf recorded => exact List.forall_mem_nil _
  | composite isComposite recorded each => exact each

theorem Shared.of_mem_reachable (shared : node.Shared ledger) :
    ∀ other ∈ node.reachable, other.Shared ledger := by
  induction shared with
  | leaf isLeaf recorded =>
      intro other member
      rw [List.mem_singleton.mp member]
      exact .leaf isLeaf recorded
  | composite isComposite recorded each ih =>
      intro other member
      rcases List.mem_cons.mp member with rfl | below
      · exact .composite isComposite recorded each
      · obtain ⟨child, isChild, within⟩ := mem_descendants_iff.mp below
        exact ih child isChild other within

/-- However the ledger has grown, an identity belongs to the same node. -/
theorem Shared.eq_of_id (shared : node.Shared ledger) (later : other.Shared grown)
    (grows : ledger <+: grown) (same : other.id = node.id) : other = node := by
  obtain ⟨identity, isOwn, recorded⟩ := shared.recorded
  obtain ⟨otherIdentity, isOther, otherRecorded⟩ := later.recorded
  obtain rfl : otherIdentity = identity := Option.some.inj (isOther.symm.trans (same.trans isOwn))
  exact Option.some.inj (otherRecorded.symm.trans (getElem?_of_grows grows recorded))

theorem Opened.mono (opened : node.Opened ledger) (grows : ledger <+: grown) :
    node.Opened grown := by
  cases opened with
  | leaf isLeaf => exact .leaf isLeaf
  | composite isComposite each =>
      exact .composite isComposite fun child member => (each child member).mono grows

theorem Opened.of_mem_children (opened : node.Opened ledger) :
    ∀ child ∈ node.children, child.Shared ledger := by
  cases opened with
  | leaf isLeaf => exact List.forall_mem_nil _
  | composite isComposite each => exact each

theorem Opened.id_eq_none (opened : node.Opened ledger) : node.id = none := by
  cases opened <;> rfl

theorem Opened.opened_withId (opened : node.Opened ledger) : (node.withId none).Opened ledger := by
  cases opened with
  | leaf isLeaf => exact .leaf isLeaf
  | composite isComposite each => exact .composite isComposite each

theorem Opened.assembled (opened : node.Opened ledger) : node.Assembled ledger := by
  cases opened with
  | leaf isLeaf => exact .leaf isLeaf
  | composite isComposite each =>
      exact .composite isComposite fun child member => .shared (each child member)

/-- A node without its identity is open. -/
theorem Shared.opened_withId (shared : node.Shared ledger) : (node.withId none).Opened ledger := by
  cases shared with
  | leaf isLeaf recorded => exact .leaf isLeaf
  | composite isComposite recorded each => exact .composite isComposite each

theorem Assembled.of_mem_children (assembled : node.Assembled ledger) :
    ∀ child ∈ node.children, child.Assembled ledger := by
  cases assembled with
  | shared shared => exact fun child member => .shared (shared.of_mem_children child member)
  | leaf isLeaf => exact List.forall_mem_nil _
  | composite isComposite each => exact each

theorem Assembled.fitsKind (assembled : node.Assembled ledger) : node.FitsKind := by
  cases assembled with
  | shared shared =>
      cases shared with
      | leaf isLeaf recorded => exact fitsKind_leaf isLeaf
      | composite isComposite recorded each => exact fitsKind_composite isComposite
  | leaf isLeaf => exact fitsKind_leaf isLeaf
  | composite isComposite each => exact fitsKind_composite isComposite

variable {rest edited : Node} {removed : Option Node} {index : Nat}

theorem Opened.add (opened : node.Opened ledger) (shared : other.Shared ledger)
    (outcome : node.add other = .ok edited) : edited.Opened ledger := by
  cases opened with
  | leaf isLeaf => contradiction
  | composite isComposite each =>
      obtain rfl := Except.ok.inj outcome
      refine .composite isComposite fun child member => ?_
      rcases List.mem_append.mp member with before | isNew
      · exact each child before
      · rw [List.mem_singleton.mp isNew]
        exact shared

theorem Opened.remove (opened : node.Opened ledger)
    (outcome : node.remove other = .ok (rest, removed)) :
    rest.Opened ledger ∧ ∀ child, removed = some child → child.Shared ledger := by
  cases opened with
  | leaf isLeaf => contradiction
  | composite isComposite each =>
      obtain ⟨rfl, rfl⟩ := Prod.mk.inj (Except.ok.inj outcome)
      exact ⟨.composite isComposite fun child member => each child (List.mem_of_mem_eraseP member),
        fun child found => each child (List.mem_of_find?_eq_some found)⟩

theorem mem_children_of_child (outcome : node.child index = .ok other) :
    other ∈ node.children := by
  cases node with
  | leaf id kind text => contradiction
  | composite id kind children =>
      simp only [child] at outcome
      split at outcome
      · rename_i found isFound
        obtain rfl := Except.ok.inj outcome
        exact List.mem_of_getElem? isFound
      · contradiction

theorem identifyAll_eq_self {next : NodeId}
    (each : ∀ node ∈ nodes, node.identify next = (node, next)) :
    identifyAll next nodes = (nodes, next) := by
  induction nodes with
  | nil => rfl
  | cons node rest ih =>
      obtain ⟨first, others⟩ := List.forall_mem_cons.mp each
      simp only [identifyAll, first, ih others]

/-- What is shared already keeps its identities. -/
theorem Shared.identify_eq (shared : node.Shared ledger) (next : NodeId) :
    node.identify next = (node, next) := by
  induction shared with
  | leaf isLeaf recorded => rfl
  | composite isComposite recorded _ ih => simp only [identify, identifyAll_eq_self ih]

/-- Sharing an open node gives it the next identity and changes nothing else. -/
theorem Opened.identify_eq (opened : node.Opened ledger) (next : NodeId) :
    node.identify next = (node.withId (some next), next + 1) := by
  cases opened with
  | leaf isLeaf => rfl
  | composite isComposite each =>
      have kept := identifyAll_eq_self fun child member => (each child member).identify_eq next
      simp only [identify, kept, withId]

theorem Opened.shared_withId (opened : node.Opened ledger) :
    (node.withId (some ledger.length)).Shared
      (ledger ++ [node.withId (some ledger.length)]) := by
  have recorded := List.getElem?_concat_length (l := ledger) (a := node.withId (some ledger.length))
  cases opened with
  | leaf isLeaf => exact .leaf isLeaf recorded
  | composite isComposite each =>
      exact .composite isComposite recorded fun child member =>
        (each child member).mono (List.prefix_append _ _)

/-- Identities counted up from the length of a ledger go on with the ledger. -/
def Identifies (ledger : Ledger) (node : Node) : Prop :=
  ∀ before, ledger <+: before → ∃ after, before <+: after ∧
    (node.identify before.length).2 = after.length ∧
    (node.identify before.length).1.Shared after

theorem identifies_all (each : ∀ node ∈ nodes, node.Identifies ledger) (before : Ledger)
    (grows : ledger <+: before) : ∃ after, before <+: after ∧
      (identifyAll before.length nodes).2 = after.length ∧
      ∀ node ∈ (identifyAll before.length nodes).1, node.Shared after := by
  -- Counting goes on from one node to the next, so the ledger before the nodes is general.
  induction nodes generalizing before with
  | nil => exact ⟨before, List.prefix_refl _, rfl, List.forall_mem_nil _⟩
  | cons node rest ih =>
      obtain ⟨first, others⟩ := List.forall_mem_cons.mp each
      obtain ⟨middle, begins, counted, shared⟩ := first before grows
      obtain ⟨after, goesOn, total, sharedRest⟩ := ih others middle (grows.trans begins)
      rw [← counted] at total sharedRest
      refine ⟨after, begins.trans goesOn, total, List.forall_mem_cons.mpr ⟨?_, sharedRest⟩⟩
      exact shared.mono goesOn

theorem Assembled.identifies (assembled : node.Assembled ledger) : node.Identifies ledger := by
  induction assembled with
  | shared shared =>
      intro before grows
      rw [shared.identify_eq]
      exact ⟨before, List.prefix_refl _, rfl, shared.mono grows⟩
  | @leaf kind text isLeaf =>
      intro before grows
      have opened : (Node.leaf none kind text).Opened before := .leaf isLeaf
      rw [opened.identify_eq]
      exact ⟨_, List.prefix_append _ _, by simp, opened.shared_withId⟩
  | @composite kind children isComposite each ih =>
      intro before grows
      obtain ⟨middle, begins, counted, shared⟩ := identifies_all ih before grows
      have opened : (Node.composite none kind (identifyAll before.length children).1).Opened middle :=
        .composite isComposite shared
      have identified : (Node.composite none kind children).identify before.length =
          ((Node.composite none kind (identifyAll before.length children).1).withId
            (some middle.length), middle.length + 1) := by
        simp only [identify, counted, withId]
      rw [identified]
      exact ⟨_, begins.trans (List.prefix_append _ _), by simp, opened.shared_withId⟩

/-- When the nodes below an assembled one are shared, it is open. -/
theorem Assembled.opened_identifyBelow (assembled : node.Assembled ledger) :
    ∃ after, ledger <+: after ∧ (node.identifyBelow ledger.length).2 = after.length ∧
      (node.identifyBelow ledger.length).1.Opened after := by
  have fits := assembled.fitsKind
  have each := assembled.of_mem_children
  cases node with
  | leaf id kind text =>
      exact ⟨ledger, List.prefix_refl _, rfl, .leaf (fits.1.mpr rfl)⟩
  | composite id kind children =>
      obtain ⟨after, grows, counted, shared⟩ := identifies_all
        (fun child member => (each child member).identifies) ledger (List.prefix_refl _)
      have isComposite : kind.isLeaf = false := by
        rw [Bool.eq_false_iff]
        exact fun isLeaf => Bool.false_ne_true (fits.1.mp isLeaf)
      exact ⟨after, grows, counted, .composite isComposite shared⟩

end ProseTree.Node
