import ProseTree.Analysis.Words

namespace ProseTree

/-! The menu of operations, in the order in which they were registered, and running them one after
the other.

An operation is chosen by its place, counted from one, or by its name.  When a report comes with a
tree, the next operation runs on that tree; otherwise it runs on the same one. -/

attribute [local instance (high)] instPowNat

structure Menu where
  operations : List Operation

inductive OperationError where
  | unknown (selector : Text)
  | unsupported (cause : Unsupported)
deriving DecidableEq

def OperationError.message : OperationError → String
  | .unknown selector => "Unknown operation '" ++ String.ofList selector ++ "'"
  | .unsupported cause => cause.message

namespace Menu

def empty : Menu := ⟨[]⟩

/-- Puts an operation in the place of the one that has its name, or at the end. -/
def insertNamed (operation : Operation) : List Operation → List Operation
  | [] => [operation]
  | existing :: rest =>
      if existing.name = operation.name then operation :: rest
      else existing :: insertNamed operation rest

def register (menu : Menu) (operation : Operation) : Menu :=
  ⟨insertNamed operation menu.operations⟩

/-- The operation at a place, counted from one. -/
def byNumber? (menu : Menu) (number : Nat) : Option Operation :=
  if number = 0 then none else menu.operations[number - 1]?

def byName? (menu : Menu) (name : Text) : Option Operation :=
  menu.operations.find? (·.name == String.ofList name)

/-- Reads a place: digits, a plus sign before them or not, of up to 64 bits. -/
def readNumber? (selector : Text) : Option Nat :=
  let run :=
    match selector with
    | '+' :: rest => rest
    | other => other
  if run.isEmpty ∨ ¬run.all Text.isDigit then none
  else
    let number := Text.ofDigits run
    if number < 2 ^ (64 : Nat) then some number else none

/-- The operation that a selector chooses.  White space around it does not count, and
a selector that reads as a number is a place, never a name. -/
def get (menu : Menu) (selector : Text) : Except OperationError Operation :=
  let wanted := selector.trim
  let found :=
    match readNumber? wanted with
    | some number => menu.byNumber? number
    | none => menu.byName? wanted
  match found with
  | some operation => .ok operation
  | none => .error (.unknown wanted)

def execute (menu : Menu) (selector : Text) (node : Node) : Except OperationError Report :=
  match menu.get selector with
  | .error error => .error error
  | .ok operation => (operation.run node).mapError .unsupported

def list (menu : Menu) : List (Nat × String × String) :=
  (menu.operations.zipIdx 1).map fun (operation, number) =>
    (number, operation.name, operation.description)

/-- The five operations of the library, where sentences need `minimum` words. -/
def builtIn (minimum : Nat) : Menu :=
  [Analysis.sortParagraphs, Analysis.longestWord, Analysis.removeShortSentences minimum,
    Analysis.identicalWords, Analysis.vowelsConsonants].foldl register empty

/-- A stage of a pipeline: what the operation answered, and the node to go on with. -/
structure Stage where
  answer : Except OperationError Report
  current : Node

def nextNode (current : Node) : Except OperationError Report → Node
  | .error _ => current
  | .ok report => report.tree.getD current

/-- The stages of a pipeline that starts at a node. -/
def pipeline (menu : Menu) (current : Node) : List Text → List Stage
  | [] => []
  | selector :: rest =>
      let answer := menu.execute selector current
      let next := nextNode current answer
      ⟨answer, next⟩ :: menu.pipeline next rest

def pipelineResult (menu : Menu) (start : Node) (selectors : List Text) : Node :=
  ((menu.pipeline start selectors).getLast?.map Stage.current).getD start

end Menu

end ProseTree
