import ProseTree.Rendering.Yaml

namespace ProseTree

/-! The output formats and their names, with two of them: JSON, an object for each node, and the
outline, one line for each node in document order.

Members of a JSON object stand on lines of their own, indented by two spaces for each level.  A
line of the outline knows its place by the nodes on the way to it: for each one below the root,
whether it is the last child.  Guides and connector are drawn from that alone. -/

namespace Json

def escape (c : Char) : Text :=
  match c with
  | '"' => ['\\', '"']
  | '\\' => ['\\', '\\']
  | '\n' => ['\\', 'n']
  | '\r' => ['\\', 'r']
  | '\t' => ['\\', 't']
  | c =>
      if c.toNat = 0x08 then ['\\', 'b']
      else if c.toNat = 0x0C then ['\\', 'f']
      else if c.toNat < 0x20 then '\\' :: 'u' :: Text.hexDigits 4 c.toNat
      else [c]

def quote (text : Text) : Text := '"' :: text.flatMap escape ++ ['"']

/-- The start of a line at a depth. -/
def margin (depth : Nat) : Text := '\n' :: List.replicate (2 * depth) ' '

/-- The name of a member with what follows it up to the value. -/
def member (name : String) : Text := quote name.toList ++ [':', ' ']

mutual
/-- The object of a node, where `depth` levels are open around it. -/
def object (depth : Nat) : Labelled → Text
  | .mk kind label text children =>
      let inner := margin (depth + 1)
      '{' :: inner ++ member "node_type" ++ quote kind.tag.toList ++
        ',' :: inner ++ member "label" ++ quote label ++
        (match text with
        | none => []
        | some text => ',' :: inner ++ member "text" ++ quote text) ++
        (if children.isEmpty then []
        else
          ',' :: inner ++ member "children" ++ '[' :: elements (depth + 2) children ++
            inner ++ [']']) ++
        margin depth ++ ['}']

def elements (depth : Nat) : List Labelled → Text
  | [] => []
  | child :: rest =>
      margin depth ++ object depth child ++
        (if rest.isEmpty then [] else [',']) ++ elements depth rest
end

end Json

def Node.json (node : Node) : Text := Json.object 0 node.labelled

def Kind.icon : Kind → Char
  | .document => '⧉'
  | .paragraph => '¶'
  | .sentence => '↵'
  | .lexeme => '⊡'
  | .word => '◦'
  | .punctuation => '∙'
  | .symbol => '※'

namespace Outline

/-- How many characters of a label are shown unless another width is given. -/
def defaultWidth : Nat := 30

structure Line where
  /-- Whether each node on the way is the last child, from the root's child down to
  the node itself; nothing for the root. -/
  lastOnPath : List Bool
  kind : Kind
  label : Text
deriving DecidableEq

def truncate (width : Nat) (label : Text) : Text :=
  if width < label.length then label.take width ++ ['.', '.', '.'] else label

/-- The column below a node that is passed on the way: a rule if siblings follow it. -/
def cell (last : Bool) : Text := if last then [' ', ' '] else ['│', ' ']

def connector (last : Bool) : Text := if last then ['└', '─'] else ['├', '─']

def guides : List Bool → Text
  | [] => []
  | [last] => connector last ++ [' ']
  | last :: rest => cell last ++ guides rest

def Line.text (width : Nat) (line : Line) : Text :=
  guides line.lastOnPath ++ line.kind.icon :: ' ' :: truncate width line.label

mutual
/-- The lines of a node that stands at the end of a path. -/
def linesFrom (path : List Bool) : Labelled → List Line
  | .mk kind label _ children => ⟨path, kind, label⟩ :: linesBelow path children

def linesBelow (path : List Bool) : List Labelled → List Line
  | [] => []
  | child :: rest => linesFrom (path ++ [rest.isEmpty]) child ++ linesBelow path rest
end

def lines (node : Node) : List Line := linesFrom [] node.labelled

end Outline

def Node.outline (node : Node) (width : Nat) : Text :=
  (Outline.lines node).flatMap fun line => line.text width ++ ['\n']

inductive Format where
  | text
  | outline
  | json
  | yaml
deriving DecidableEq

structure UnknownFormat where
  name : String
deriving DecidableEq

def UnknownFormat.message (error : UnknownFormat) : String :=
  "Format '" ++ error.name ++ "' not found"

namespace Format

/-- The formats in the order in which they are listed. -/
def all : List Format := [.text, .outline, .json, .yaml]

def name : Format → String
  | .text => "text"
  | .outline => "treeviz"
  | .json => "json"
  | .yaml => "yaml"

def description : Format → String
  | .text => "Canonical text rebuilt from the tree"
  | .outline => "Visual tree representation with indentation and Unicode icons"
  | .json => "Tree snapshot as pretty-printed JSON"
  | .yaml => "Tree snapshot as YAML"

/-- Writes a tree; `width` is where outline labels are cut. -/
def render (format : Format) (width : Nat) (node : Node) : Text :=
  match format with
  | .text => node.reconstruct
  | .outline => node.outline width
  | .json => node.json
  | .yaml => node.yaml

def find (name : String) : Except UnknownFormat Format :=
  match all.find? (·.name == name) with
  | some format => .ok format
  | none => .error ⟨name⟩

end Format

def Node.render (node : Node) (name : String) (width : Nat) : Except UnknownFormat Text :=
  (Format.find name).map fun format => format.render width node

end ProseTree
