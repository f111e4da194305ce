import Mathlib.Data.List.Basic
import ProseTree.Node.Edit
import ProseTree.Node.Walk

namespace ProseTree.Node

/-! Where the nodes of a tree stand.

The address of a node is the way to it from the root.  The shape of a tree, with the kinds of its
nodes, is known when it is known how deep the nodes stand one after the other. -/

/-- The indexes of the children to go to, one step after the other. -/
abbrev Address := List Nat

mutual
/-- The node and all nodes below it in document order, each with its address. -/
def placed : Node → List (Address × Node)
  | .leaf id kind text => [([], .leaf id kind text)]
  | .composite id kind children => ([], .composite id kind children) :: placedFrom 0 children

/-- The same for children that are counted from an index. -/
def placedFrom (index : Nat) : List Node → List (Address × Node)
  | [] => []
  | child :: rest =>
      (child.placed.map fun place => (index :: place.1, place.2)) ++ placedFrom (index + 1) rest
end

def nodeAt? (root : Node) (address : Address) : Option Node := (root.descend address).toOption

/-- Whether a sibling comes after the node at an address. -/
def hasLater (root : Node) (address : Address) : Bool :=
  match address.getLast?, root.nodeAt? address.dropLast with
  | some index, some parent => index + 1 < parent.children.length
  | _, _ => false

variable {node found child : Node} {children left right : List Node} {address : Address}
  {index depth : Nat}

theorem placed_eq (node : Node) : node.placed = ([], node) :: placedFrom 0 node.children := by
  cases node <;> rfl

theorem nodeAt?_nil (node : Node) : node.nodeAt? [] = some node := by
  rfl

theorem nodeAt?_cons (node : Node) (index : Nat) (address : Address) :
    node.nodeAt? (index :: address) = node.children[index]?.bind (·.nodeAt? address) := by
  cases node with
  | leaf id kind text => rfl
  | composite id kind children =>
      rw [nodeAt?, descend, Node.child, Node.children]
      cases children[index]? <;> rfl

theorem mem_placedFrom_iff : (address, found) ∈ placedFrom index children ↔
    ∃ offset child rest, address = (index + offset) :: rest ∧ children[offset]? = some child ∧
      (rest, found) ∈ child.placed := by
  induction children generalizing index with
  | nil => simp [placedFrom]
  | cons first others ih =>
      rw [placedFrom, List.mem_append, ih]
      constructor
      · rintro (inFirst | ⟨offset, child, rest, rfl, here, member⟩)
        · obtain ⟨⟨rest, node⟩, member, same⟩ := List.mem_map.mp inFirst
          obtain ⟨rfl, rfl⟩ := Prod.mk.inj same
          exact ⟨0, first, rest, rfl, rfl, member⟩
        · exact ⟨offset + 1, child, rest, by rw [Nat.add_right_comm, Nat.add_assoc], here, member⟩
      · rintro ⟨offset, child, rest, rfl, here, member⟩
        cases offset with
        | zero =>
            obtain rfl := Option.some.inj here
            exact .inl (List.mem_map_of_mem member)
        | succ offset =>
            exact .inr ⟨offset, child, rest, by rw [Nat.add_right_comm, Nat.add_assoc], here, member⟩

/-- Exactly the node at an address is placed at it. -/
theorem mem_placed_iff : (address, found) ∈ node.placed ↔ node.nodeAt? address = some found := by
  induction address generalizing node with
  | nil =>
      have noneBelow : ([], found) ∉ placedFrom 0 node.children := by
        intro member
        obtain ⟨offset, child, rest, same, -⟩ := mem_placedFrom_iff.mp member
        contradiction
      rw [placed_eq, List.mem_cons, or_iff_left noneBelow, nodeAt?_nil]
      simp [eq_comm]
  | cons index address ih =>
      rw [placed_eq, List.mem_cons, or_iff_right (by simp), mem_placedFrom_iff, nodeAt?_cons,
        Option.bind_eq_some_iff]
      simp only [Nat.zero_add, List.cons.injEq]
      constructor
      · rintro ⟨offset, child, rest, ⟨rfl, rfl⟩, here, member⟩
        exact ⟨child, here, ih.mp member⟩
      · rintro ⟨child, here, reached⟩
        exact ⟨index, child, address, ⟨rfl, rfl⟩, here, ih.mpr reached⟩

mutual
/-- The nodes are placed in document order. -/
theorem map_snd_placed : (node : Node) → node.placed.map Prod.snd = node :: node.descendants
  | .leaf id kind text => rfl
  | .composite id kind children => by
      rw [placed, List.map_cons, map_snd_placedFrom 0 children, descendants]

theorem map_snd_placedFrom (index : Nat) : (nodes : List Node) →
    (placedFrom index nodes).map Prod.snd = preorderAll nodes
  | [] => rfl
  | child :: rest => by
      rw [placedFrom, List.map_append, List.map_map, map_snd_placedFrom (index + 1) rest, preorderAll]
      exact congrArg (· ++ _) (map_snd_placed child)
end

theorem hasLater_cons (here : node.children[index]? = some child) (nonempty : address ≠ []) :
    node.hasLater (index :: address) = child.hasLater address := by
  rw [hasLater, hasLater, List.dropLast_cons_of_ne_nil nonempty, nodeAt?_cons, here,
    Option.bind_some, List.getLast?_cons_of_ne_nil nonempty]

mutual
/-- The kinds of the node and of all nodes below it in document order, each with its depth. -/
def depths (depth : Nat) : Node → List (Nat × Kind)
  | .leaf _ kind _ => [(depth, kind)]
  | .composite _ kind children => (depth, kind) :: depthsAll (depth + 1) children

def depthsAll (depth : Nat) : List Node → List (Nat × Kind)
  | [] => []
  | node :: rest => node.depths depth ++ depthsAll depth rest
end

mutual
/-- The tree with its kinds only. -/
def skeleton : Node → Node
  | .leaf _ kind _ => .composite none kind []
  | .composite _ kind children => .composite none kind (skeletonAll children)

def skeletonAll : List Node → List Node
  | [] => []
  | node :: rest => node.skeleton :: skeletonAll rest
end

theorem depths_eq (depth : Nat) (node : Node) :
    node.depths depth = (depth, node.kind) :: depthsAll (depth + 1) node.children := by
  cases node <;> rfl

theorem skeleton_eq (node : Node) :
    node.skeleton = .composite none node.kind (skeletonAll node.children) := by
  cases node <;> rfl

theorem skeletonAll_eq_map (nodes : List Node) : skeletonAll nodes = nodes.map skeleton := by
  induction nodes with
  | nil => rfl
  | cons node rest ih => rw [skeletonAll, ih, List.map_cons]

/-- What follows the nodes at a depth begins further up, if anything follows. -/
def BeginsAbove (depth : Nat) (follows : List (Nat × Kind)) : Prop :=
  ∀ entry ∈ follows.head?, entry.1 < depth

theorem BeginsAbove.depthsAll_append {follows : List (Nat × Kind)}
    (above : BeginsAbove depth follows) (nodes : List Node) :
    BeginsAbove (depth + 1) (depthsAll depth nodes ++ follows) := by
  cases nodes with
  | nil => exact fun entry first => Nat.lt_succ_of_lt (above entry first)
  | cons node rest =>
      intro entry first
      rw [depthsAll, depths_eq] at first
      obtain rfl := Option.some.inj first
      exact Nat.lt_succ_self depth

theorem not_beginsAbove (node : Node) (follows : List (Nat × Kind)) :
    ¬BeginsAbove depth (node.depths depth ++ follows) := by
  rw [depths_eq]
  exact fun above => Nat.lt_irrefl depth (above _ rfl)

theorem sizeOf_children_lt (node : Node) (rest : List Node) :
    sizeOf node.children < sizeOf (node :: rest) := by
  cases node with
  | leaf id kind text => simp [Node.children]; omega
  | composite id kind children => simp [Node.children]; omega

theorem sizeOf_rest_lt (node : Node) (rest : List Node) : sizeOf rest < sizeOf (node :: rest) := by
  rw [List.cons.sizeOf_spec]
  omega

/-- The depths of a forest tell where it ends and what its skeleton is. -/
theorem skeletonAll_eq_of_depthsAll {depth : Nat} {left right : List Node}
    {after behind : List (Nat × Kind)}
    (same : depthsAll depth left ++ after = depthsAll depth right ++ behind)
    (afterAbove : BeginsAbove depth after) (behindAbove : BeginsAbove depth behind) :
    skeletonAll left = skeletonAll right ∧ after = behind := by
  match left, right with
  | [], [] => exact ⟨rfl, same⟩
  | [], node :: rest =>
      rw [depthsAll, depthsAll, List.nil_append, List.append_assoc] at same
      exact absurd (same ▸ afterAbove) (not_beginsAbove node _)
  | node :: rest, [] =>
      rw [depthsAll, depthsAll, List.nil_append, List.append_assoc] at same
      exact absurd (same ▸ behindAbove) (not_beginsAbove node _)
  | leftNode :: leftRest, rightNode :: rightRest =>
      simp only [depthsAll, List.append_assoc, depths_eq, List.cons_append, List.cons.injEq,
        Prod.mk.injEq, true_and] at same
      obtain ⟨kinds, below⟩ := same
      obtain ⟨children, siblings⟩ := skeletonAll_eq_of_depthsAll below
        (afterAbove.depthsAll_append leftRest) (behindAbove.depthsAll_append rightRest)
      obtain ⟨others, ends⟩ := skeletonAll_eq_of_depthsAll siblings afterAbove behindAbove
      refine ⟨?_, ends⟩
      rw [skeletonAll, skeletonAll, skeleton_eq, skeleton_eq, kinds, children, others]
termination_by left
decreasing_by
  · exact sizeOf_children_lt leftNode leftRest
  · exact sizeOf_rest_lt leftNode leftRest

theorem skeleton_eq_of_depths {other : Node} (same : node.depths depth = other.depths depth) :
    node.skeleton = other.skeleton := by
  have forests : depthsAll depth [node] ++ [] = depthsAll depth [other] ++ [] := by
    simp only [depthsAll, same]
  exact (List.cons.inj (skeletonAll_eq_of_depthsAll forests nofun nofun).1).1

/-- A skeleton has the nodes of its tree at the same addresses and of the same kinds. -/
theorem kindAt?_skeleton (node : Node) (address : Address) :
    (node.skeleton.nodeAt? address).map kind = (node.nodeAt? address).map kind := by
  induction address generalizing node with
  | nil => rw [skeleton_eq, nodeAt?_nil, nodeAt?_nil, Option.map_some, Option.map_some, kind]
  | cons index address ih =>
      rw [nodeAt?_cons, nodeAt?_cons, skeleton_eq, Node.children, skeletonAll_eq_map,
        List.getElem?_map, Option.bind_map, Option.map_bind, Option.map_bind]
      exact congrArg _ (funext ih)

end ProseTree.Node
