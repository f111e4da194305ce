import ProseTree.Proofs.Node.Address
import ProseTree.Proofs.Node.Walk

namespace ProseTree

/-! The ways through a tree.

Visitors, the list of descendants, the labelled view and the rebuilt text each go through a tree
in a recursion of their own.  All of them meet the nodes in document order, which is the order of
the addresses, so what one of them finds the others find too. -/

namespace Labelled

mutual
/-- Every entry strictly below this one, parents before their children. -/
def descendants : Labelled → List Labelled
  | .mk _ _ _ children => preorderAll children

def preorderAll : List Labelled → List Labelled
  | [] => []
  | entry :: rest => entry :: entry.descendants ++ preorderAll rest
end

end Labelled

namespace Node

variable {σ : Type} {visitor : Visitor σ} {node found : Node} {kind : Kind}
  {index : Nat} {address : Address}

mutual
/-- A visitor that does nothing where it leaves a node is a fold over the nodes. -/
theorem accept_eq_foldl (silent : ∀ kind node state, visitor.leave kind node state = state) :
    (node : Node) → (state : σ) → node.accept visitor state =
      (node :: node.descendants).foldl (fun state node => visitor.visit node.kind node state) state
  | .leaf id kind text, state => by
      rw [accept, Visitor.close, silent, ite_self, descendants, List.foldl_cons, List.foldl_nil,
        Node.kind]
  | .composite id kind children, state => by
      rw [accept, Visitor.close, silent, ite_self, acceptAll_eq_foldl silent children,
        descendants, List.foldl_cons, Node.kind]

theorem acceptAll_eq_foldl (silent : ∀ kind node state, visitor.leave kind node state = state) :
    (nodes : List Node) → (state : σ) → acceptAll visitor nodes state =
      (preorderAll nodes).foldl (fun state node => visitor.visit node.kind node state) state
  | [], state => rfl
  | node :: rest, state => by
      rw [acceptAll, accept_eq_foldl silent node, acceptAll_eq_foldl silent rest, preorderAll,
        List.foldl_append]
end

/-- What the collector of a kind gathers at a node. -/
def collected? (kind : Kind) (node : Node) : Option Text :=
  if node.kind.isLeaf && node.kind == kind then node.text? else none

theorem textsOfKind_eq (node : Node) (kind : Kind) :
    node.textsOfKind kind = (node :: node.descendants).filterMap (collected? kind) := by
  rw [textsOfKind, accept_eq_foldl (fun _ _ _ => rfl), List.filterMap_eq_flatMap_toList,
    List.flatMap_eq_foldl]
  congr 1
  funext texts node
  simp only [Visitor.collector, collected?]
  split <;> simp

/-- For a leaf kind, the collector gathers the texts of all nodes that are of the kind. -/
theorem textsOfKind_of_isLeaf (isLeaf : kind.isLeaf = true) (node : Node) :
    node.textsOfKind kind =
      ((node :: node.descendants).filter (·.kind == kind)).filterMap text? := by
  rw [textsOfKind_eq, List.filterMap_filter]
  apply List.filterMap_congr
  intro node _
  by_cases own : node.kind = kind
  · simp [collected?, own, isLeaf]
  · simp [collected?, own]

theorem textsOfKind_of_not_isLeaf (isComposite : kind.isLeaf = false) (node : Node) :
    node.textsOfKind kind = [] := by
  rw [textsOfKind_eq, List.filterMap_eq_nil_iff]
  intro node _
  by_cases own : node.kind = kind
  · simp [collected?, own, isComposite]
  · simp [collected?, own]

theorem WellFormed.text?_eq_none (wellFormed : node.WellFormed)
    (isComposite : node.kind.isLeaf = false) : node.text? = none := by
  cases node with
  | leaf id kind text => exact absurd (wellFormed.symm.trans isComposite) Bool.noConfusion
  | composite id kind children => rfl

/-- Where every kind carries the right payload, the texts are those of all nodes of the kind. -/
theorem WellFormed.textsOfKind_eq (wellFormed : node.WellFormed) (kind : Kind) :
    node.textsOfKind kind =
      ((node :: node.descendants).filter (·.kind == kind)).filterMap text? := by
  cases payload : kind.isLeaf with
  | true => exact textsOfKind_of_isLeaf payload node
  | false =>
      rw [textsOfKind_of_not_isLeaf payload, eq_comm, List.filterMap_eq_nil_iff]
      intro other member
      obtain ⟨reached, own⟩ := List.mem_filter.mp member
      have fits : other.WellFormed := by
        rcases List.mem_cons.mp reached with rfl | below
        · exact wellFormed
        · exact wellFormed_of_mem_descendants node wellFormed other below
      exact fits.text?_eq_none (eq_of_beq own ▸ payload)

mutual
/-- Document order is the lexicographic order of the addresses. -/
theorem pairwise_placed : (node : Node) →
    (node.placed.map Prod.fst).Pairwise (List.Lex (· < ·))
  | .leaf id kind text => List.pairwise_singleton _ _
  | .composite id kind children => by
      rw [placed, List.map_cons, List.pairwise_cons]
      refine ⟨fun address member => ?_, pairwise_placedFrom 0 children⟩
      obtain ⟨⟨address, found⟩, isPlaced, rfl⟩ := List.mem_map.mp member
      obtain ⟨offset, child, rest, rfl, -⟩ := mem_placedFrom_iff.mp isPlaced
      exact .nil

theorem pairwise_placedFrom (index : Nat) : (nodes : List Node) →
    ((placedFrom index nodes).map Prod.fst).Pairwise (List.Lex (· < ·))
  | [] => .nil
  | child :: rest => by
      rw [placedFrom, List.map_append, List.map_map, List.pairwise_append]
      refine ⟨?_, pairwise_placedFrom (index + 1) rest, fun earlier first later second => ?_⟩
      · have own := List.pairwise_map.mp (pairwise_placed child)
        exact List.pairwise_map.mpr (own.imp .cons)
      · obtain ⟨place, -, rfl⟩ := List.mem_map.mp first
        obtain ⟨⟨address, found⟩, member, rfl⟩ := List.mem_map.mp second
        obtain ⟨offset, other, further, rfl, -⟩ := mem_placedFrom_iff.mp member
        exact .rel (Nat.lt_of_lt_of_le (Nat.lt_succ_self index) (Nat.le_add_right _ offset))
end

/-- The addresses of the nodes of a kind below a root, each once and in document order. -/
structure Places (root : Node) (kind : Kind) (places : List Address) : Prop where
  ordered : places.Pairwise (List.Lex (· < ·))
  exact : ∀ address, address ∈ places ↔
    address ≠ [] ∧ ∃ found, root.nodeAt? address = some found ∧ found.kind = kind

theorem mem_placedFrom_children_iff : (address, found) ∈ placedFrom 0 node.children ↔
    address ≠ [] ∧ node.nodeAt? address = some found := by
  rw [← mem_placed_iff, placed_eq, List.mem_cons]
  constructor
  · intro member
    obtain ⟨offset, child, rest, rfl, -⟩ := mem_placedFrom_iff.mp member
    exact ⟨List.cons_ne_nil _ _, .inr member⟩
  · rintro ⟨nonempty, same | member⟩
    · exact absurd (congrArg Prod.fst same) nonempty
    · exact member

/-- The descendants of a kind are the nodes at these addresses. -/
theorem exists_places (node : Node) (kind : Kind) :
    ∃ places, Places node kind places ∧
      (node.descendantsOfKind kind).map some = places.map node.nodeAt? := by
  let placedOfKind := (placedFrom 0 node.children).filter (·.2.kind == kind)
  have member {address : Address} {found : Node} : (address, found) ∈ placedOfKind ↔
      (address ≠ [] ∧ node.nodeAt? address = some found) ∧ found.kind = kind := by
    rw [List.mem_filter, mem_placedFrom_children_iff, beq_iff_eq]
  have nodes : placedOfKind.map Prod.snd = node.descendantsOfKind kind := by
    rw [descendantsOfKind, descendants_eq, ← map_snd_placedFrom 0 node.children, List.filter_map]
    rfl
  refine ⟨placedOfKind.map Prod.fst, ⟨?_, fun address => ?_⟩, ?_⟩
  · exact (pairwise_placedFrom 0 node.children).sublist (List.filter_sublist.map Prod.fst)
  · constructor
    · intro isPlace
      obtain ⟨⟨address, found⟩, isPlaced, rfl⟩ := List.mem_map.mp isPlace
      obtain ⟨⟨nonempty, reached⟩, own⟩ := member.mp isPlaced
      exact ⟨nonempty, found, reached, own⟩
    · rintro ⟨nonempty, found, reached, own⟩
      exact List.mem_map_of_mem (member.mpr ⟨⟨nonempty, reached⟩, own⟩)
  · rw [← nodes, List.map_map, List.map_map]
    apply List.map_congr_left
    intro place isPlaced
    exact (member.mp isPlaced).1.2.symm

theorem kind_labelled (node : Node) : node.labelled.kind = node.kind := by
  cases node <;> rfl

theorem text?_labelled (node : Node) : node.labelled.text? = node.text? := by
  cases node <;> rfl

mutual
/-- The view has an entry for each node, in the same order. -/
theorem descendants_labelled : (node : Node) →
    node.labelled.descendants = node.descendants.map labelled
  | .leaf id kind text => rfl
  | .composite id kind children => by
      rw [labelled, Labelled.descendants, descendants, preorderAll_labelledAll children]

theorem preorderAll_labelledAll : (nodes : List Node) →
    Labelled.preorderAll (labelledAll nodes) = (preorderAll nodes).map labelled
  | [] => rfl
  | node :: rest => by
      rw [labelledAll, Labelled.preorderAll, preorderAll, descendants_labelled node,
        preorderAll_labelledAll rest, List.map_append, List.map_cons]
end

theorem entriesOfKind_labelled (node : Node) (kind : Kind) :
    (node.labelled.descendants.filter (·.kind == kind)).map (fun entry => (entry.kind, entry.text?)) =
      (node.descendantsOfKind kind).map fun found => (found.kind, found.text?) := by
  rw [descendants_labelled, List.filter_map, List.map_map]
  have sameKind : (fun entry : Labelled => entry.kind == kind) ∘ labelled = (·.kind == kind) :=
    funext fun node => by rw [Function.comp_apply, kind_labelled]
  rw [sameKind]
  apply List.map_congr_left
  intro found _
  rw [Function.comp_apply, kind_labelled, text?_labelled]

/-- The texts of the entries are those of the nodes. -/
theorem texts_labelled (node : Node) :
    (node.labelled :: node.labelled.descendants).filterMap Labelled.text? =
      (node :: node.descendants).filterMap text? := by
  rw [descendants_labelled, ← List.map_cons, List.filterMap_map]
  exact congrArg (List.filterMap · _) (funext text?_labelled)

/-- What a text is rebuilt from. -/
inductive Piece where
  | own (text : Text)
  | separator (mark : Char)

def Piece.written : Piece → Text
  | .own text => text
  | .separator mark => [mark]

def Piece.own? : Piece → Option Text
  | .own text => some text
  | .separator _ => none

mutual
/-- The texts of the leaves, and the separators that are written between two children. -/
def pieces : Node → List Piece
  | .leaf _ _ text => [.own text]
  | .composite _ _ [] => []
  | .composite _ kind (first :: rest) => first.pieces ++ piecesAfter kind rest

/-- Children that follow another, each after its separator. -/
def piecesAfter (parent : Kind) : List Node → List Piece
  | [] => []
  | child :: rest =>
      (parent.separatorBefore child.kind).toList.map .separator ++ child.pieces ++
        piecesAfter parent rest
end

theorem written_separators (marks : List Char) :
    (marks.map Piece.separator).flatMap Piece.written = marks := by
  rw [List.flatMap_map]
  exact List.flatMap_singleton' marks

mutual
theorem written_pieces : (node : Node) → node.pieces.flatMap Piece.written = node.reconstruct
  | .leaf _ _ text => by rw [pieces, List.flatMap_singleton, Piece.written, reconstruct]
  | .composite _ _ [] => rfl
  | .composite _ kind (first :: rest) => by
      rw [pieces, List.flatMap_append, written_pieces first, written_piecesAfter kind rest,
        reconstruct]

theorem written_piecesAfter (parent : Kind) : (nodes : List Node) →
    (piecesAfter parent nodes).flatMap Piece.written = reconstructAfter parent nodes
  | [] => rfl
  | child :: rest => by
      rw [piecesAfter, List.flatMap_append, List.flatMap_append, written_separators,
        written_pieces child, written_piecesAfter parent rest, reconstructAfter]
end

theorem own?_separators (marks : List Char) :
    (marks.map Piece.separator).filterMap Piece.own? = [] := by
  rw [List.filterMap_map]
  exact List.filterMap_eq_nil_iff.mpr fun _ _ => rfl

mutual
/-- Without the separators, the texts of the leaves are left. -/
theorem own?_pieces : (node : Node) →
    node.pieces.filterMap Piece.own? = (node :: node.descendants).filterMap text?
  | .leaf _ _ _ => rfl
  | .composite _ _ [] => rfl
  | .composite _ kind (first :: rest) => by
      rw [pieces, List.filterMap_append, own?_pieces first, own?_piecesAfter kind rest,
        descendants, preorderAll, ← List.filterMap_append]
      rfl

theorem own?_piecesAfter (parent : Kind) : (nodes : List Node) →
    (piecesAfter parent nodes).filterMap Piece.own? = (preorderAll nodes).filterMap text?
  | [] => rfl
  | child :: rest => by
      rw [piecesAfter, List.filterMap_append, List.filterMap_append, own?_separators,
        own?_pieces child, own?_piecesAfter parent rest, preorderAll, List.filterMap_append,
        List.nil_append]
end

/-- All ways through a tree find the same.  What the collector of a kind gathers are the texts of
the descendants of the kind in their order, behind the node's own text if it is a leaf of the kind.
The descendants of a kind are the nodes of the kind below the root, each at an address of its own,
in the order of the addresses; the entries of the labelled view of the kind match them one for one.
The rebuilt text, less the separators that are written between children, is made up of the texts of
the view in order. -/
theorem traversals_agree (wellFormed : node.WellFormed) (kind : Kind) :
    let view := node.labelled
    node.accept (.collector kind) [] =
      (if node.kind = kind then node.text?.toList else []) ++
        (node.descendantsOfKind kind).filterMap text? ∧
    (∃ places, Places node kind places ∧
      (node.descendantsOfKind kind).map some = places.map node.nodeAt?) ∧
    (view.descendants.filter (·.kind == kind)).map (fun entry => (entry.kind, entry.text?)) =
      (node.descendantsOfKind kind).map (fun found => (found.kind, found.text?)) ∧
    node.pieces.flatMap Piece.written = node.reconstruct ∧
    node.pieces.filterMap Piece.own? = (view :: view.descendants).filterMap Labelled.text? := by
  refine ⟨?_, exists_places node kind, entriesOfKind_labelled node kind, written_pieces node, ?_⟩
  · have gathered := wellFormed.textsOfKind_eq kind
    rw [textsOfKind] at gathered
    rw [gathered, descendantsOfKind]
    by_cases own : node.kind = kind
    · cases text : node.text? <;> simp [own, text]
    · simp [own]
  · rw [own?_pieces, texts_labelled]

/-- A sentence that stands in another and in a document below it, and a leaf that reads like a
separator. -/
theorem traversals_agree_nested :
    let word := leaf (some 0) .word ['a']
    let blank := leaf (some 1) .symbol [' ']
    let inner := composite (some 2) .sentence [word, blank, word]
    let node := composite none .sentence
      [inner, word, composite (some 3) .document [inner, blank], word]
    node.WellFormed ∧
    node.accept (.collector .word) [] = [['a'], ['a'], ['a'], ['a'], ['a'], ['a']] ∧
    (node.descendantsOfKind .word).filterMap text? =
      [['a'], ['a'], ['a'], ['a'], ['a'], ['a']] ∧
    (∃ places, Places node .sentence places ∧
      places.map node.nodeAt? = [some inner, some inner]) ∧
    node.reconstruct = "a  a aa  a\n  a".toList ∧
    node.pieces.filterMap Piece.own? =
      [['a'], [' '], ['a'], ['a'], ['a'], [' '], ['a'], [' '], ['a']] := by
  intro word blank inner node
  have wellFormed : node.WellFormed := by
    simp [node, inner, word, blank, WellFormed, AllWellFormed, Kind.isLeaf]
  obtain ⟨gathered, -⟩ := traversals_agree wellFormed .word
  obtain ⟨-, ⟨places, isPlaces, nodes⟩, -, -, own⟩ := traversals_agree wellFormed .sentence
  exact ⟨wellFormed, gathered, rfl, ⟨places, isPlaces, nodes.symm⟩, by decide, own⟩

end Node

end ProseTree
