import ProseTree.Node.Basic

namespace ProseTree

/-! Walking a tree in document order: the steps of a walk, the descendants of a kind, visitors
whose state changes at the nodes, and the view with a label at every node that the output formats
draw. -/

inductive Visit where
  | leaf (kind : Kind) (text : Text)
  | enter (kind : Kind) (count : Nat)
  | leave (kind : Kind) (count : Nat)
deriving DecidableEq

namespace Node

mutual
/-- The steps of a walk: a composite is entered before its children and left after
them, each time with the number of children. -/
def walk : Node → List Visit
  | .leaf _ kind text => [.leaf kind text]
  | .composite _ kind children =>
      .enter kind children.length :: walkAll children ++ [.leave kind children.length]

def walkAll : List Node → List Visit
  | [] => []
  | node :: rest => node.walk ++ walkAll rest
end

mutual
/-- Every node strictly below this one, parents before their children. -/
def descendants : Node → List Node
  | .leaf .. => []
  | .composite _ _ children => preorderAll children

def preorderAll : List Node → List Node
  | [] => []
  | node :: rest => node :: node.descendants ++ preorderAll rest
end

def descendantsOfKind (node : Node) (kind : Kind) : List Node :=
  node.descendants.filter (·.kind == kind)

end Node

/-- What is done at a node, by its kind.  Every node is visited before its children; a node of a
composite kind is left behind them.  Where a visitor says nothing, nothing is done. -/
structure Visitor (σ : Type) where
  visit : Kind → Node → σ → σ := fun _ _ state => state
  leave : Kind → Node → σ → σ := fun _ _ state => state

/-- What a visit to a node is recorded as. -/
def Visit.of : Node → Visit
  | .leaf _ kind text => .leaf kind text
  | .composite _ kind children => .enter kind children.length

namespace Visitor

/-- Only composite kinds are left. -/
def close {σ : Type} (visitor : Visitor σ) (node : Node) (state : σ) : σ :=
  if node.kind.isLeaf then state else visitor.leave node.kind node state

/-- Records all visits and leaves. -/
def recorder : Visitor (List Visit) where
  visit _ node seen := seen ++ [.of node]
  leave kind node seen := seen ++ [.leave kind node.children.length]

/-- Gathers the texts of the leaves of one kind.  A visit to a composite kind gives nothing. -/
def collector (kind : Kind) : Visitor (List Text) where
  visit visited node texts :=
    if visited.isLeaf && node.kind == kind then texts ++ node.text?.toList else texts

end Visitor

namespace Node

variable {σ : Type}

mutual
/-- Walks the tree with a visitor, depth first. -/
def accept (visitor : Visitor σ) : Node → σ → σ
  | .leaf id kind text, state =>
      let node := Node.leaf id kind text
      visitor.close node (visitor.visit kind node state)
  | .composite id kind children, state =>
      let node := Node.composite id kind children
      visitor.close node (acceptAll visitor children (visitor.visit kind node state))

def acceptAll (visitor : Visitor σ) : List Node → σ → σ
  | [], state => state
  | node :: rest, state => acceptAll visitor rest (node.accept visitor state)
end

/-- The texts of the leaves of one kind, the node itself included. -/
def textsOfKind (node : Node) (kind : Kind) : List Text := node.accept (.collector kind) []

end Node

inductive Labelled where
  | mk (kind : Kind) (label : Text) (text : Option Text) (children : List Labelled)

namespace Labelled

def kind : Labelled → Kind
  | .mk kind _ _ _ => kind

def label : Labelled → Text
  | .mk _ label _ _ => label

def text? : Labelled → Option Text
  | .mk _ _ text _ => text

def children : Labelled → List Labelled
  | .mk _ _ _ children => children

end Labelled

namespace Node

/-- A short description of a node.  A document tells how many paragraphs it has; any
other node shows its text on one line. -/
def label (node : Node) : Text :=
  if node.kind = .document then
    Text.digits node.children.length ++
      (if node.children.length = 1 then " paragraph" else " paragraphs").toList
  else node.reconstruct.map fun c => if c = '\n' then ' ' else c

mutual
def labelled : Node → Labelled
  | .leaf id kind text => .mk kind (Node.leaf id kind text).label (some text) []
  | .composite id kind children =>
      .mk kind (Node.composite id kind children).label none (labelledAll children)

def labelledAll : List Node → List Labelled
  | [] => []
  | node :: rest => node.labelled :: labelledAll rest
end

end Node

end ProseTree
