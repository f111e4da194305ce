import ProseTree.Text.Basic

namespace ProseTree

/-! The tree of prose and the seven kinds of its nodes.

A node that other nodes may hold has an identity, so that two nodes of equal content
can be told apart; a node nobody holds yet has none.  `unmarked` forgets identities
and is the content of a tree; `reconstruct` is its text. -/

/-- The level a node stands on.  The last three are leaves and carry text; the others
carry children. -/
inductive Kind where
  | document
  | paragraph
  | sentence
  | lexeme
  | word
  | punctuation
  | symbol
deriving DecidableEq, Repr

namespace Kind

def all : List Kind :=
  [.document, .paragraph, .sentence, .lexeme, .word, .punctuation, .symbol]

def name : Kind → String
  | .document => "Document"
  | .paragraph => "Paragraph"
  | .sentence => "Sentence"
  | .lexeme => "Lexeme"
  | .word => "Word"
  | .punctuation => "Punctuation"
  | .symbol => "Symbol"

def tag : Kind → String
  | .document => "document"
  | .paragraph => "paragraph"
  | .sentence => "sentence"
  | .lexeme => "lexeme"
  | .word => "word"
  | .punctuation => "punctuation"
  | .symbol => "symbol"

/-- Whether nodes of this kind carry text instead of children. -/
def isLeaf : Kind → Bool
  | .word | .punctuation | .symbol => true
  | _ => false

/-- What is written between a child and the one before it.  Paragraphs of a document
stand on lines of their own; inside a sentence a space goes before words and lexemes,
while punctuation stays attached. -/
def separatorBefore (parent next : Kind) : Option Char :=
  match parent, next with
  | .document, _ => some '\n'
  | .sentence, .word => some ' '
  | .sentence, .lexeme => some ' '
  | _, _ => none

end Kind

/-- Tells apart nodes that are held by other nodes. -/
abbrev NodeId := Nat

inductive Node where
  | leaf (id : Option NodeId) (kind : Kind) (text : Text)
  | composite (id : Option NodeId) (kind : Kind) (children : List Node)

namespace Node

instance : Inhabited Node := ⟨.leaf none .word []⟩

mutual
private def decideEq : (left right : Node) → Decidable (left = right)
  | .leaf leftId leftKind leftText, .leaf rightId rightKind rightText =>
      if same : leftId = rightId ∧ leftKind = rightKind ∧ leftText = rightText then
        isTrue (by simp [same])
      else isFalse (by simpa using same)
  | .composite leftId leftKind leftChildren, .composite rightId rightKind rightChildren =>
      if same : leftId = rightId ∧ leftKind = rightKind then
        match decideEqAll leftChildren rightChildren with
        | isTrue equal => isTrue (by simp [same, equal])
        | isFalse different => isFalse (by simp [different])
      else isFalse (by intro equal; injection equal; simp_all)
  | .leaf .., .composite .. => isFalse (by simp)
  | .composite .., .leaf .. => isFalse (by simp)

private def decideEqAll : (left right : List Node) → Decidable (left = right)
  | [], [] => isTrue rfl
  | [], _ :: _ => isFalse (by simp)
  | _ :: _, [] => isFalse (by simp)
  | left :: leftRest, right :: rightRest =>
      match decideEq left right, decideEqAll leftRest rightRest with
      | isTrue head, isTrue tail => isTrue (by rw [head, tail])
      | isFalse different, _ => isFalse (by simp [different])
      | _, isFalse different => isFalse (by simp [different])
end

instance : DecidableEq Node := decideEq

def id : Node → Option NodeId
  | .leaf id _ _ => id
  | .composite id _ _ => id

def kind : Node → Kind
  | .leaf _ kind _ => kind
  | .composite _ kind _ => kind

def text? : Node → Option Text
  | .leaf _ _ text => some text
  | .composite .. => none

def isLeaf : Node → Bool
  | .leaf .. => true
  | .composite .. => false

/-- The children in order; a leaf has none. -/
def children : Node → List Node
  | .leaf .. => []
  | .composite _ _ children => children

def withId (id : Option NodeId) : Node → Node
  | .leaf _ kind text => .leaf id kind text
  | .composite _ kind children => .composite id kind children

mutual
/-- Every node of the tree has a leaf kind exactly when it carries text. -/
def WellFormed : Node → Prop
  | .leaf _ kind _ => kind.isLeaf = true
  | .composite _ kind children => kind.isLeaf = false ∧ AllWellFormed children

def AllWellFormed : List Node → Prop
  | [] => True
  | node :: rest => node.WellFormed ∧ AllWellFormed rest
end

mutual
/-- The content of a tree: the same nodes without identities. -/
def unmarked : Node → Node
  | .leaf _ kind text => .leaf none kind text
  | .composite _ kind children => .composite none kind (unmarkedAll children)

def unmarkedAll : List Node → List Node
  | [] => []
  | node :: rest => node.unmarked :: unmarkedAll rest
end

/-- Whether two trees agree in kinds, texts and children, whatever their identities. -/
def alike (left right : Node) : Bool := left.unmarked == right.unmarked

mutual
/-- The tree put back into text: leaves in order, with the parent's separators. -/
def reconstruct : Node → Text
  | .leaf _ _ text => text
  | .composite _ _ [] => []
  | .composite _ kind (first :: rest) => first.reconstruct ++ reconstructAfter kind rest

/-- Children that follow another, each after its separator. -/
def reconstructAfter (parent : Kind) : List Node → Text
  | [] => []
  | child :: rest =>
      (parent.separatorBefore child.kind).toList ++ child.reconstruct ++
        reconstructAfter parent rest
end

/-- A constructor was asked for a payload that the kind does not carry. -/
inductive PayloadError where
  | leafWithChildren (kind : Kind)
  | compositeWithText (kind : Kind)
deriving DecidableEq

def PayloadError.message : PayloadError → String
  | .leafWithChildren kind => kind.name ++ " is a leaf kind and cannot be a composite"
  | .compositeWithText kind => kind.name ++ " is a composite kind and cannot be a leaf"

/-- A leaf nobody holds yet. -/
def ofText (kind : Kind) (text : Text) : Except PayloadError Node :=
  if kind.isLeaf then .ok (.leaf none kind text) else .error (.compositeWithText kind)

/-- A composite nobody holds yet. -/
def ofChildren (kind : Kind) (children : List Node) : Except PayloadError Node :=
  if kind.isLeaf then .error (.leafWithChildren kind) else .ok (.composite none kind children)

end Node

end ProseTree
