import ProseTree.Node.Basic

namespace ProseTree

/-! Access to single children and editing them by identity, giving identities to the nodes that
have none, and trees as they are written down, before anyone has checked that every kind carries
the right payload. -/

inductive ChildAccess where
  | add
  | remove
  | index
deriving DecidableEq

def ChildAccess.name : ChildAccess → String
  | .add => "add"
  | .remove => "remove"
  | .index => "index"

inductive StructuralError where
  | leafHasNoChildren (kind : Kind) (attempt : ChildAccess)
  | indexOutOfBounds (kind : Kind) (index count : Nat)
deriving DecidableEq

def StructuralError.message : StructuralError → String
  | .leafHasNoChildren kind attempt =>
      "cannot " ++ attempt.name ++ " children of " ++ kind.name ++ " leaf"
  | .indexOutOfBounds kind index count =>
      "child index " ++ toString index ++ " out of bounds (" ++ kind.name ++ " has " ++
        toString count ++ " children)"

namespace Node

/-- Whether both are held and are one and the same node.  Content does not count. -/
def same (left right : Node) : Bool :=
  match left.id, right.id with
  | some leftId, some rightId => leftId == rightId
  | _, _ => false

def child (node : Node) (index : Nat) : Except StructuralError Node :=
  match node with
  | .leaf _ kind _ => .error (.leafHasNoChildren kind .index)
  | .composite _ kind children =>
      match children[index]? with
      | some found => .ok found
      | none => .error (.indexOutOfBounds kind index children.length)

def descend (node : Node) : List Nat → Except StructuralError Node
  | [] => .ok node
  | index :: path =>
      match node.child index with
      | .error error => .error error
      | .ok found => found.descend path

def add (node child : Node) : Except StructuralError Node :=
  match node with
  | .leaf _ kind _ => .error (.leafHasNoChildren kind .add)
  | .composite id kind children => .ok (.composite id kind (children ++ [child]))

/-- The node without the first child that is the very node given, together with that
child; nothing changes when no child is. -/
def remove (node child : Node) : Except StructuralError (Node × Option Node) :=
  match node with
  | .leaf _ kind _ => .error (.leafHasNoChildren kind .remove)
  | .composite id kind children =>
      .ok (.composite id kind (children.eraseP child.same), children.find? child.same)

mutual
/-- Gives every node without an identity a new one, counting up from `next`, and
returns the first number that is still free. -/
def identify (next : NodeId) : Node → Node × NodeId
  | .leaf id kind text =>
      match id with
      | some _ => (.leaf id kind text, next)
      | none => (.leaf (some next) kind text, next + 1)
  | .composite id kind children =>
      let (identified, free) := identifyAll next children
      match id with
      | some _ => (.composite id kind identified, free)
      | none => (.composite (some free) kind identified, free + 1)

def identifyAll (next : NodeId) : List Node → List Node × NodeId
  | [] => ([], next)
  | node :: rest =>
      let (first, afterFirst) := identify next node
      let (others, free) := identifyAll afterFirst rest
      (first :: others, free)
end

/-- Gives identities to the nodes below a node that nobody holds yet. -/
def identifyBelow (next : NodeId) (node : Node) : Node × NodeId :=
  match node with
  | .leaf _ kind text => (.leaf none kind text, next)
  | .composite _ kind children =>
      let (identified, free) := identifyAll next children
      (.composite none kind identified, free)

end Node

inductive Draft where
  | leaf (kind : Kind) (text : Text)
  | composite (kind : Kind) (children : List Draft)

namespace Draft

mutual
/-- The tree of a draft, or the first wrong payload, children before their parent and
from left to right. -/
def build : Draft → Except Node.PayloadError Node
  | .leaf kind text => Node.ofText kind text
  | .composite kind children =>
      match buildAll children with
      | .error error => .error error
      | .ok nodes => Node.ofChildren kind nodes

def buildAll : List Draft → Except Node.PayloadError (List Node)
  | [] => .ok []
  | draft :: rest =>
      match draft.build with
      | .error error => .error error
      | .ok node =>
          match buildAll rest with
          | .error error => .error error
          | .ok nodes => .ok (node :: nodes)
end

end Draft

end ProseTree
