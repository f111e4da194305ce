import ProseTree.Proofs.Node.Reconstruction

namespace ProseTree

/-! What is seen on a walk through a tree, and how the tree is found again in it.

Every node is visited once, parents before their children, and a composite is left as soon as all
below it has been walked.  So the visits are nested like parentheses, and a stack of the nodes
that are still open is enough to build the tree up again. -/

variable {visits inside before : List Visit} {kind : Kind} {count own : Nat}

/-- So many walks, one behind the other: a leaf is visited once, and a composite is left with the
kind and count that it was entered with, behind as many walks as it has children. -/
inductive Nested : Nat → List Visit → Prop where
  | done : Nested 0 []
  | leaf {count : Nat} {visits : List Visit} (kind : Kind) (text : Text)
      (rest : Nested count visits) : Nested (count + 1) (.leaf kind text :: visits)
  | composite {own count : Nat} {inside visits : List Visit} (kind : Kind)
      (inner : Nested own inside) (rest : Nested count visits) :
      Nested (count + 1) (.enter kind own :: (inside ++ .leave kind own :: visits))

/-- Whether a node is visited, rather than left. -/
def Visit.opens : Visit → Bool
  | .leave _ _ => false
  | _ => true

theorem Nested.append (first : Nested own inside) (second : Nested count visits) :
    Nested (count + own) (inside ++ visits) := by
  induction first with
  | done => exact second
  | leaf kind text rest ih => exact .leaf kind text ih
  | composite kind inner rest _ ih =>
      rw [List.cons_append, List.append_assoc, List.cons_append]
      exact .composite kind inner ih

namespace Node

mutual
/-- The recorder sees the steps of the walk. -/
theorem accept_recorder : (node : Node) → node.WellFormed → (seen : List Visit) →
    node.accept .recorder seen = seen ++ node.walk
  | .leaf id kind text, isLeaf, seen => by
      have isLeaf : kind.isLeaf = true := isLeaf
      simp only [accept, Visitor.close, Node.kind, isLeaf, if_true]
      rfl
  | .composite id kind children, ⟨notLeaf, wellFormed⟩, seen => by
      simp only [accept, Visitor.close, Node.kind, notLeaf, Bool.false_eq_true, if_false]
      rw [acceptAll_recorder children wellFormed, walk]
      simp [Visitor.recorder, Visit.of, Node.children]

theorem acceptAll_recorder : (nodes : List Node) → AllWellFormed nodes → (seen : List Visit) →
    acceptAll .recorder nodes seen = seen ++ walkAll nodes
  | [], _, seen => by rw [acceptAll, walkAll, List.append_nil]
  | node :: rest, ⟨here, later⟩, seen => by
      rw [acceptAll, accept_recorder node here, acceptAll_recorder rest later, walkAll,
        List.append_assoc]
end

mutual
theorem nested_walk : (node : Node) → Nested 1 node.walk
  | .leaf _ kind text => .leaf kind text .done
  | .composite _ kind children => .composite kind (nested_walkAll children) .done

theorem nested_walkAll : (nodes : List Node) → Nested nodes.length (walkAll nodes)
  | [] => .done
  | node :: rest => (nested_walk node).append (nested_walkAll rest)
end

/-- The nested visits are those of walks. -/
theorem nested_iff : Nested count visits ↔
    ∃ nodes : List Node, nodes.length = count ∧ walkAll nodes = visits := by
  constructor
  · intro nested
    induction nested with
    | done => exact ⟨[], rfl, rfl⟩
    | leaf kind text rest ih =>
        obtain ⟨nodes, rfl, rfl⟩ := ih
        exact ⟨.leaf none kind text :: nodes, rfl, rfl⟩
    | composite kind inner rest innerIH restIH =>
        obtain ⟨children, rfl, rfl⟩ := innerIH
        obtain ⟨nodes, rfl, rfl⟩ := restIH
        exact ⟨.composite none kind children :: nodes, rfl, by simp [walkAll, walk]⟩
  · rintro ⟨nodes, rfl, rfl⟩
    exact nested_walkAll nodes

mutual
/-- Every node is visited once, in document order. -/
theorem filter_opens_walk : (node : Node) →
    node.walk.filter Visit.opens = (node :: node.descendants).map Visit.of
  | .leaf id kind text => rfl
  | .composite id kind children => by
      rw [walk, descendants, List.map_cons, ← filter_opens_walkAll children, List.cons_append,
        List.filter_cons_of_pos rfl, List.filter_append]
      simp [Visit.opens, Visit.of]

theorem filter_opens_walkAll : (nodes : List Node) →
    (walkAll nodes).filter Visit.opens = (preorderAll nodes).map Visit.of
  | [] => rfl
  | node :: rest => by
      rw [walkAll, preorderAll, List.filter_append, filter_opens_walk node,
        filter_opens_walkAll rest, ← List.map_append]
end

theorem countP_opens_walk (node : Node) :
    node.walk.countP Visit.opens = (node :: node.descendants).length := by
  rw [List.countP_eq_length_filter, filter_opens_walk, List.length_map]

mutual
/-- A leaf is one step of the walk, a composite two. -/
theorem length_walk : (node : Node) → node.walk.length =
    (node :: node.descendants).countP Node.isLeaf +
      2 * (node :: node.descendants).countP (!·.isLeaf)
  | .leaf id kind text => rfl
  | .composite id kind children => by
      have below := length_walkAll children
      have notLeaf : (composite id kind children).isLeaf = false := rfl
      simp only [walk, descendants, List.length_append, List.length_cons, List.length_nil,
        List.countP_cons, notLeaf, Bool.false_eq_true, if_false, Bool.not_false, if_true]
      omega

theorem length_walkAll : (nodes : List Node) → (walkAll nodes).length =
    (preorderAll nodes).countP Node.isLeaf + 2 * (preorderAll nodes).countP (!·.isLeaf)
  | [] => rfl
  | node :: rest => by
      have here := length_walk node
      have later := length_walkAll rest
      rw [walkAll, preorderAll, List.length_append, List.countP_append, List.countP_append]
      omega
end

/-- The visit is to the node that stands at its place in document order, and is closed by a leave
of the same kind and count.  Between them are nested visits, as many walks as the count says, and
exactly the descendants of the node are visited. -/
def Closed (preorder : List Node) (before : List Visit) (kind : Kind) (count : Nat)
    (behind : List Visit) : Prop :=
  ∃ found inside rest, preorder[before.countP Visit.opens]? = some found ∧ found.kind = kind ∧
    found.children.length = count ∧ behind = inside ++ .leave kind count :: rest ∧
    Nested count inside ∧ inside.filter Visit.opens = found.descendants.map Visit.of

theorem Closed.append {preorder : List Node} {behind : List Visit}
    (closed : Closed preorder before kind count behind) (later : List Node) (rest : List Visit) :
    Closed (preorder ++ later) before kind count (behind ++ rest) := by
  obtain ⟨found, inside, after, here, isKind, isCount, rfl, nested, visited⟩ := closed
  have within := (List.getElem?_eq_some_iff.mp here).1
  exact ⟨found, inside, after ++ rest, by rwa [List.getElem?_append_left within], isKind, isCount,
    by simp, nested, visited⟩

theorem Closed.later {preorder earlier : List Node} {front behind : List Visit}
    (closed : Closed preorder before kind count behind)
    (visited : front.countP Visit.opens = earlier.length) :
    Closed (earlier ++ preorder) (front ++ before) kind count behind := by
  obtain ⟨found, inside, rest, here, isKind, isCount, isBehind, nested, inOrder⟩ := closed
  refine ⟨found, inside, rest, ?_, isKind, isCount, isBehind, nested, inOrder⟩
  rwa [List.countP_append, visited, List.getElem?_append_right (Nat.le_add_right _ _),
    Nat.add_sub_cancel_left]

mutual
theorem closed_walk : (node : Node) → {before behind : List Visit} →
    node.walk = before ++ .enter kind count :: behind →
    Closed (node :: node.descendants) before kind count behind
  | .leaf id own text, before, behind, spelled => by
      cases before with
      | nil => simp [walk] at spelled
      | cons first before => simp [walk] at spelled
  | .composite id own children, before, behind, spelled => by
      rw [walk, List.cons_append] at spelled
      cases before with
      | nil =>
          obtain ⟨same, isBehind⟩ := List.cons.inj spelled
          obtain ⟨rfl, rfl⟩ := Visit.enter.inj same
          exact ⟨.composite id own children, walkAll children, [], rfl, rfl, rfl, isBehind.symm,
            nested_walkAll children, filter_opens_walkAll children⟩
      | cons first before =>
          obtain ⟨rfl, further⟩ := List.cons.inj spelled
          -- The entered node is below this one, as the last visit only leaves this one.
          rcases List.append_eq_append_iff.mp further with
            ⟨more, -, last⟩ | ⟨more, below, last⟩
          · cases more <;> simp at last
          · cases more with
            | nil => simp at last
            | cons second more =>
                obtain ⟨rfl, rfl⟩ := List.cons.inj last
                have closed :=
                  (closed_walkAll children below).append [] [.leave own children.length]
                rw [List.append_nil] at closed
                have visited : [Visit.enter own children.length].countP Visit.opens =
                    [composite id own children].length := rfl
                exact closed.later visited

theorem closed_walkAll : (nodes : List Node) → {before behind : List Visit} →
    walkAll nodes = before ++ .enter kind count :: behind →
    Closed (preorderAll nodes) before kind count behind
  | [], before, behind, spelled => by simp [walkAll] at spelled
  | node :: rest, before, behind, spelled => by
      rw [walkAll] at spelled
      rw [preorderAll]
      rcases List.append_eq_append_iff.mp spelled with ⟨more, rfl, later⟩ | ⟨more, here, later⟩
      · exact (closed_walkAll rest later).later (countP_opens_walk node)
      · cases more with
        | nil =>
            rw [List.append_nil] at here
            have closed := (@closed_walkAll rest [] _ later.symm).later (countP_opens_walk node)
            rwa [List.append_nil, here] at closed
        | cons first more =>
            obtain ⟨rfl, rfl⟩ := List.cons.inj later
            exact (closed_walk node here).append _ _
end

/-- The nodes complete so far in each composite that is still open, and last those beside the
root; in all of them the latest node comes first. -/
abbrev Levels := List (List Node)

def Levels.step : Levels → Visit → Option Levels
  | level :: outer, .leaf kind text => some ((.leaf none kind text :: level) :: outer)
  | levels, .enter _ _ => some ([] :: levels)
  | level :: parent :: outer, .leave kind _ =>
      some ((.composite none kind level.reverse :: parent) :: outer)
  | _, _ => none

/-- The tree that was walked. -/
def rebuild (visits : List Visit) : Option Node :=
  match visits.foldlM Levels.step [[]] with
  | some [[node]] => some node
  | _ => none

mutual
/-- A walk puts its tree on the level where it begins. -/
theorem foldlM_walk : (node : Node) → (level : List Node) → (outer : Levels) →
    node.walk.foldlM Levels.step (level :: outer) = some ((node.unmarked :: level) :: outer)
  | .leaf id kind text, level, outer => rfl
  | .composite id kind children, level, outer => by
      rw [walk, List.cons_append, List.foldlM_cons]
      change (walkAll children ++ _).foldlM Levels.step ([] :: level :: outer) = _
      rw [List.foldlM_append, foldlM_walkAll children, List.append_nil]
      change some
        ((composite none kind (unmarkedAll children).reverse.reverse :: level) :: outer) = _
      rw [List.reverse_reverse, unmarked]

theorem foldlM_walkAll : (nodes : List Node) → (level : List Node) → (outer : Levels) →
    (walkAll nodes).foldlM Levels.step (level :: outer) =
      some (((unmarkedAll nodes).reverse ++ level) :: outer)
  | [], level, outer => rfl
  | node :: rest, level, outer => by
      rw [walkAll, List.foldlM_append, foldlM_walk node]
      change (walkAll rest).foldlM Levels.step ((node.unmarked :: level) :: outer) = _
      rw [foldlM_walkAll rest, unmarkedAll, List.reverse_cons, List.append_assoc,
        List.singleton_append]
end

theorem rebuild_walk (node : Node) : rebuild node.walk = some node.unmarked := by
  rw [rebuild, foldlM_walk]

mutual
theorem walk_unmarked : (node : Node) → node.unmarked.walk = node.walk
  | .leaf id kind text => rfl
  | .composite id kind children => by
      rw [unmarked, walk, walk, walkAll_unmarkedAll children, length_unmarkedAll]

theorem walkAll_unmarkedAll : (nodes : List Node) → walkAll (unmarkedAll nodes) = walkAll nodes
  | [] => rfl
  | node :: rest => by
      rw [unmarkedAll, walkAll, walkAll, walk_unmarked node, walkAll_unmarkedAll rest]
end

/-- The visits of a walk determine the tree.  What a visitor is called for, recorded with the text
of a leaf or the number of children, is the walk.  It is properly nested: where a composite is
entered it is also left, by a leave of the same kind and count, behind the visits to exactly its
descendants.  A leaf takes one step of it and a composite two.  The content of the tree is rebuilt
from it, so trees are walked alike only if they are alike. -/
theorem accept_determines {node other : Node} (wellFormed : node.WellFormed)
    (otherWellFormed : other.WellFormed) :
    let visits := node.accept .recorder []
    visits = node.walk ∧
    Nested 1 visits ∧
    (∀ before kind count behind, visits = before ++ .enter kind count :: behind →
      Closed (node :: node.descendants) before kind count behind) ∧
    visits.filter Visit.opens = (node :: node.descendants).map Visit.of ∧
    visits.length = (node :: node.descendants).countP Node.isLeaf +
      2 * (node :: node.descendants).countP (!·.isLeaf) ∧
    rebuild visits = some node.unmarked ∧
    (visits = other.accept .recorder [] ↔ node.unmarked = other.unmarked) := by
  have walked : node.accept .recorder [] = node.walk := accept_recorder node wellFormed []
  have otherWalked : other.accept .recorder [] = other.walk :=
    accept_recorder other otherWellFormed []
  dsimp only
  rw [walked, otherWalked]
  refine ⟨rfl, nested_walk node, fun before kind count behind => closed_walk node,
    filter_opens_walk node, length_walk node, rebuild_walk node, fun same => ?_, fun same => ?_⟩
  · have rebuilt := congrArg rebuild same
    rw [rebuild_walk, rebuild_walk] at rebuilt
    exact Option.some.inj rebuilt
  · rw [← walk_unmarked node, same, walk_unmarked]

/-- The levels do not matter, nor do identities, an empty composite or an empty text. -/
theorem accept_determines_unlevelled :
    let node := composite (some 1) .lexeme [composite (some 0) .document [], leaf none .symbol []]
    let other := composite none .lexeme [composite none .document [], leaf (some 2) .symbol []]
    node.WellFormed ∧ other.WellFormed ∧
    node.accept .recorder [] = [.enter .lexeme 2, .enter .document 0, .leave .document 0,
      .leaf .symbol [], .leave .lexeme 2] ∧
    rebuild (node.accept .recorder []) = some node.unmarked ∧
    node.accept .recorder [] = other.accept .recorder [] := by
  intro node other
  have wellFormed : node.WellFormed := ⟨rfl, ⟨rfl, trivial⟩, rfl, trivial⟩
  have otherWellFormed : other.WellFormed := ⟨rfl, ⟨rfl, trivial⟩, rfl, trivial⟩
  obtain ⟨walked, -, -, -, -, rebuilt, alike⟩ := accept_determines wellFormed otherWellFormed
  exact ⟨wellFormed, otherWellFormed, walked, rebuilt, alike.mpr rfl⟩

end Node

end ProseTree
