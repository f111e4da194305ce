import ProseTree.Node.Walk
import ProseTree.Text.Quoted

namespace ProseTree

/-! Expectations about a tree, checked one after the other, and what is said of the
first one that is not met. -/

inductive Expectation where
  | kind (expected : Kind)
  | childCount (expected : Nat)
  | child (index : Nat) (expectations : List Expectation)
  | text (expected : Text)
  | reconstruction (expected : Text)
  | words (expected : List Text)

/-- An expectation that is not met by the node at the end of a path of indexes. -/
structure Mismatch where
  path : List Nat
  node : Node
  expectation : Expectation

namespace Mismatch

def place (path : List Nat) : String :=
  "root" ++ String.join (path.map fun index => ".children[" ++ toString index ++ "]")

/-- A child in a list of children: its text, or how many children it has. -/
def summary (child : Node) : String :=
  match child.text? with
  | some text => child.kind.name ++ "(" ++ Text.quoted text ++ ")"
  | none => child.kind.name ++ "[" ++ toString child.children.length ++ "]"

def complaint (node : Node) : Expectation → String
  | .kind expected => "expected " ++ expected.name ++ " node, found " ++ node.kind.name
  | .childCount expected =>
      "expected " ++ toString expected ++ " children, found " ++
        toString node.children.length ++ ": [" ++
        ", ".intercalate (node.children.map summary) ++ "]"
  | .child index _ =>
      "child index " ++ toString index ++ " out of bounds (" ++ node.kind.name ++ " has " ++
        toString node.children.length ++ " children)"
  | .text expected =>
      match node.text? with
      | some found =>
          "expected leaf text " ++ Text.quoted expected ++ ", found " ++ Text.quoted found
      | none =>
          "expected a leaf with text " ++ Text.quoted expected ++ ", found " ++
            node.kind.name ++ " composite"
  | .reconstruction expected =>
      "expected reconstruction " ++ Text.quoted expected ++ ", found " ++
        Text.quoted node.reconstruct
  | .words _ => "word mismatch"

def message (mismatch : Mismatch) : String :=
  place mismatch.path ++ ": " ++ complaint mismatch.node mismatch.expectation

end Mismatch

namespace Expectation

mutual
def check (path : List Nat) (node : Node) : Expectation → Except Mismatch Unit
  | .kind expected =>
      if node.kind = expected then .ok () else .error ⟨path, node, .kind expected⟩
  | .childCount expected =>
      if node.children.length = expected then .ok ()
      else .error ⟨path, node, .childCount expected⟩
  | .child index expectations =>
      match node.children[index]? with
      | some found => checkAll (path ++ [index]) found expectations
      | none => .error ⟨path, node, .child index expectations⟩
  | .text expected =>
      if node.text? = some expected then .ok () else .error ⟨path, node, .text expected⟩
  | .reconstruction expected =>
      if node.reconstruct = expected then .ok ()
      else .error ⟨path, node, .reconstruction expected⟩
  | .words expected =>
      if (node.descendantsOfKind .word).filterMap Node.text? = expected then .ok ()
      else .error ⟨path, node, .words expected⟩

def checkAll (path : List Nat) (node : Node) : List Expectation → Except Mismatch Unit
  | [] => .ok ()
  | expectation :: rest =>
      match check path node expectation with
      | .error mismatch => .error mismatch
      | .ok () => checkAll path node rest
end

end Expectation

def Node.meets (node : Node) (expectations : List Expectation) : Except Mismatch Unit :=
  Expectation.checkAll [] node expectations

end ProseTree
