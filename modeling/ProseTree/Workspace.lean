import ProseTree.Analysis.Pipeline
import ProseTree.Node.Edit
import ProseTree.Segmentation.Chain
import ProseTree.Settings.Basic

namespace ProseTree

/-! Building and editing trees step by step, with names for the nodes at hand.

A name holds either an open node, which can still be changed, or a shared one, which
cannot.  A node is shared when another node takes it as a child, and stays so.  Every
shared node, and every node below a name, has an identity of its own. -/

inductive Holding where
  /-- A node that can be changed; nobody else holds it, so it has no identity. -/
  | opened (node : Node)
  /-- A node that is fixed, with its identity. -/
  | shared (node : Node)
deriving DecidableEq

def Holding.node : Holding → Node
  | .opened node => node
  | .shared node => node

structure Workspace where
  /-- The names in the order in which they were first used. -/
  slots : Entries String Holding
  /-- The first identity that no node has. -/
  nextId : NodeId
deriving DecidableEq

/-- A step of work.  Where `into` is given, the resulting node is stored under that
name. -/
inductive Command where
  | leaf (into : Option String) (kind : Kind) (text : Text)
  | composite (into : Option String) (kind : Kind)
  | build (into : Option String) (draft : Draft)
  | parse (into : Option String) (text : Text) (evaluates : Bool)
  | withChildren (into : Option String) (kind : Kind) (children : List String)
  /-- An open node with the same children as another. -/
  | copy (into : Option String) (source : String)
  | add (target child : String)
  | remove (source child : String) (into : Option String)
  | child (source : String) (index : Nat) (into : Option String)
  /-- The descendants are stored under the name followed by 0, 1, 2 and so on. -/
  | descendants (source : String) (kind : Kind) (into : Option String)
  | same (left right : String)
  | alike (left right : String)
  | operate (source : String) (selector : Text) (minimum : Nat) (into : Option String)
  | inspect (source : String)
  | drop (name : String)

inductive Outcome where
  | node (node : Node)
  | nodes (nodes : List Node)
  | removed (removed : Option Node) (rest : Node)
  | verdict (holds : Bool)
  | report (report : Report)
deriving DecidableEq

inductive CommandError where
  | noSlot
  /-- The node to be changed is shared. -/
  | frozen
  | payload (error : Node.PayloadError)
  | structural (error : StructuralError)
  | operation (error : OperationError)
deriving DecidableEq

namespace Workspace

def empty : Workspace := ⟨[], 0⟩

def find? (workspace : Workspace) (name : String) : Option Holding :=
  workspace.slots.lookup name

/-- Puts a holding under a name, in the place of what the name held before. -/
def put (workspace : Workspace) (name : String) (holding : Holding) : Workspace :=
  { workspace with slots := workspace.slots.put name holding }

def keepOpen (workspace : Workspace) (into : Option String) (node : Node) : Workspace :=
  match into with
  | none => workspace
  | some name =>
      let (identified, free) := node.identifyBelow workspace.nextId
      { workspace with nextId := free }.put name (.opened identified)

def keepShared (workspace : Workspace) (into : Option String) (node : Node) : Workspace :=
  match into with
  | none => workspace
  | some name =>
      let (identified, free) := node.identify workspace.nextId
      { workspace with nextId := free }.put name (.shared identified)

/-- Shares what a name holds, for good, and gives the node. -/
def share (workspace : Workspace) (name : String) : Workspace × Option Node :=
  match workspace.find? name with
  | none => (workspace, none)
  | some (.shared node) => (workspace, some node)
  | some (.opened node) =>
      let (identified, free) := node.identify workspace.nextId
      ({ workspace with nextId := free }.put name (.shared identified), some identified)

/-- Shares what several names hold, up to the first that holds nothing. -/
def shareAll (workspace : Workspace) : List String → Workspace × Option (List Node)
  | [] => (workspace, some [])
  | name :: rest =>
      match workspace.share name with
      | (next, none) => (next, none)
      | (next, some node) =>
          let (last, nodes) := next.shareAll rest
          (last, nodes.map (node :: ·))

def opened (workspace : Workspace) (name : String) : Except CommandError Node :=
  match workspace.find? name with
  | none => .error .noSlot
  | some (.shared _) => .error .frozen
  | some (.opened node) => .ok node

def held (workspace : Workspace) (name : String) : Except CommandError Node :=
  match workspace.find? name with
  | none => .error .noSlot
  | some holding => .ok holding.node

/-- Stores fixed nodes under a name followed by their positions. -/
def keepEach (workspace : Workspace) (into : Option String) (nodes : List Node) : Workspace :=
  match into with
  | none => workspace
  | some name =>
      nodes.zipIdx.foldl (fun workspace (node, index) =>
        workspace.keepShared (some (name ++ toString index)) node) workspace

/-- What a step comes to: the workspace after it, and its answer. -/
abbrev Step := Workspace × Except CommandError Outcome

def made (workspace : Workspace) (into : Option String)
    (made : Except Node.PayloadError Node) : Step :=
  match made with
  | .error error => (workspace, .error (.payload error))
  | .ok node => (workspace.keepOpen into node, .ok (.node node))

/-- Does one step.  A step that fails may have shared nodes already. -/
def run (workspace : Workspace) : Command → Step
  | .leaf into kind text => workspace.made into (Node.ofText kind text)
  | .composite into kind => workspace.made into (Node.ofChildren kind [])
  | .build into draft => workspace.made into draft.build
  | .parse into text evaluates =>
      workspace.made into (.ok ((Segmentation.Chain.full evaluates).parse text))
  | .withChildren into kind names =>
      match workspace.shareAll names with
      | (next, none) => (next, .error .noSlot)
      | (next, some children) => next.made into (Node.ofChildren kind children)
  | .copy into source =>
      match workspace.held source with
      | .error error => (workspace, .error error)
      | .ok node =>
          let copied := node.withId none
          (workspace.keepOpen into copied, .ok (.node copied))
  | .add target child =>
      match workspace.share child with
      | (next, none) => (next, .error .noSlot)
      | (next, some node) =>
          match next.opened target with
          | .error error => (next, .error error)
          | .ok parent =>
              match parent.add node with
              | .error error => (next, .error (.structural error))
              | .ok grown => (next.put target (.opened grown), .ok (.node grown))
  | .remove source child into =>
      match workspace.share child with
      | (next, none) => (next, .error .noSlot)
      | (next, some node) =>
          match next.opened source with
          | .error error => (next, .error error)
          | .ok parent =>
              match parent.remove node with
              | .error error => (next, .error (.structural error))
              | .ok (rest, none) =>
                  (next.put source (.opened rest), .ok (.removed none rest))
              | .ok (rest, some removed) =>
                  ((next.put source (.opened rest)).keepShared into removed,
                    .ok (.removed (some removed) rest))
  | .child source index into =>
      match workspace.held source with
      | .error error => (workspace, .error error)
      | .ok node =>
          match node.child index with
          | .error error => (workspace, .error (.structural error))
          | .ok found => (workspace.keepShared into found, .ok (.node found))
  | .descendants source kind into =>
      match workspace.held source with
      | .error error => (workspace, .error error)
      | .ok node =>
          let found := node.descendantsOfKind kind
          (workspace.keepEach into found, .ok (.nodes found))
  | .same left right =>
      match workspace.share left with
      | (next, none) => (next, .error .noSlot)
      | (next, some leftNode) =>
          match next.share right with
          | (last, none) => (last, .error .noSlot)
          | (last, some rightNode) => (last, .ok (.verdict (leftNode.same rightNode)))
  | .alike left right =>
      match workspace.held left, workspace.held right with
      | .error error, _ => (workspace, .error error)
      | _, .error error => (workspace, .error error)
      | .ok leftNode, .ok rightNode =>
          (workspace, .ok (.verdict (leftNode.alike rightNode)))
  | .operate source selector minimum into =>
      match workspace.held source with
      | .error error => (workspace, .error error)
      | .ok node =>
          match (Menu.builtIn minimum).execute selector node with
          | .error error => (workspace, .error (.operation error))
          | .ok report =>
              match report.tree with
              | none => (workspace, .ok (.report report))
              | some tree => (workspace.keepShared into tree, .ok (.report report))
  | .inspect source =>
      match workspace.held source with
      | .error error => (workspace, .error error)
      | .ok node => (workspace, .ok (.node node))
  | .drop name =>
      ({ workspace with slots := workspace.slots.filter (·.1 != name) },
        .ok (.verdict (workspace.find? name).isSome))

def runAll (workspace : Workspace) : List Command → Workspace × List (Except CommandError Outcome)
  | [] => (workspace, [])
  | command :: rest =>
      let (next, outcome) := workspace.run command
      let (last, outcomes) := next.runAll rest
      (last, outcome :: outcomes)

end Workspace

end ProseTree
