import ProseTree.Node.Walk

namespace ProseTree

/-! Reports, the operations that make them from a tree, and the two operations that answer with
another tree: putting the paragraphs of a document in order of their number of sentences, and
dropping the sentences that have too few words. -/

structure Report where
  title : String
  body : String
  tree : Option Node := none
deriving DecidableEq

def Report.text (report : Report) : String :=
  "=== " ++ report.title ++ " ===\n\n" ++ report.body

structure Unsupported where
  operation : String
  kind : Kind
deriving DecidableEq

def Unsupported.message (error : Unsupported) : String :=
  "Operation '" ++ error.operation ++ "' cannot run on a " ++ error.kind.name ++ " node"

/-- A named way to make a report from a tree, which it leaves as it is. -/
structure Operation where
  name : String
  description : String
  run : Node → Except Unsupported Report

def Operation.transcript (name description : String) : Operation where
  name := name
  description := description
  run node := .ok { title := name, body := String.ofList node.reconstruct }

namespace Node

/-- The sentences below a node, or the node itself when it is one. -/
def sentences (node : Node) : List Node :=
  if node.kind = .sentence then [node] else node.descendantsOfKind .sentence

def wordCount (node : Node) : Nat := (node.descendantsOfKind .word).length

end Node

namespace Analysis

/-- A child with its position, counted from one. -/
abbrev Placed := Node × Nat

/-- The children in ascending order of their own number of children; children of equal
number stay in the order they had. -/
def orderParagraphs (document : Node) : List Placed :=
  (document.children.zipIdx 1).mergeSort fun left right =>
    left.1.children.length ≤ right.1.children.length

def paragraphEntry (placed : Placed) : String :=
  let count := placed.1.children.length
  "Paragraph " ++ toString placed.2 ++ " (" ++ toString count ++
    (if count = 1 then " sentence" else " sentences") ++ "):\n" ++
    String.ofList placed.1.reconstruct ++ "\n\n"

def sortParagraphs : Operation where
  name := "sort-paragraphs"
  description := "Sort paragraphs by sentence count, ascending"
  run node :=
    if node.kind ≠ .document then .error ⟨"sort-paragraphs", node.kind⟩
    else
      let ordered := orderParagraphs node
      .ok {
        title := "Paragraphs sorted by sentence count"
        body := String.join (ordered.map paragraphEntry)
        tree := some (.composite none .document (ordered.map Prod.fst)) }

/-- The least number of words a sentence needs unless another number is given. -/
def defaultMinimum : Nat := 3

/-- A minimum that is used: zero stands for the default. -/
def effectiveMinimum (minimum : Nat) : Nat :=
  if minimum = 0 then defaultMinimum else minimum

def longEnough (minimum : Nat) (paragraph : Node) : List Node :=
  paragraph.children.filter fun sentence => minimum ≤ sentence.wordCount

def filterParagraph (minimum : Nat) (paragraph : Node) : Node :=
  .composite none .paragraph (longEnough minimum paragraph)

def filterDocument (minimum : Nat) (document : Node) : Node :=
  .composite none .document
    ((document.children.map (filterParagraph minimum)).filter (!·.children.isEmpty))

def removeShortSentences (minimum : Nat) : Operation :=
  let least := effectiveMinimum minimum
  let report (tree : Node) : Report := {
    title := "Removed sentences with fewer than " ++ toString least ++ " words"
    body := "Resulting text:\n" ++ String.ofList tree.reconstruct ++ "\n"
    tree := some tree }
  { name := "remove-short-sentences"
    description := "Remove sentences with fewer than " ++ toString least ++ " words"
    run := fun node =>
      match node.kind with
      | .document => .ok (report (filterDocument least node))
      | .paragraph => .ok (report (filterParagraph least node))
      | kind => .error ⟨"remove-short-sentences", kind⟩ }

end Analysis

end ProseTree
