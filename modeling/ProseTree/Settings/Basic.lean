import ProseTree.Analysis.Sentences
import ProseTree.Entries
import ProseTree.Rendering.Format
import ProseTree.Text.Lowercase

namespace ProseTree

/-! The settings of a run, the values that configure them, and the paths to these, such as
`output.format` or `servers[0].name`.

A configured value is what a settings file or an override gives for a key, before it is known
which type the key wants.  It remembers the file it came from. -/

structure Settings where
  evaluatesArithmetic : Bool
  /-- The least number of words that a sentence needs, as it was configured. -/
  minWordCount : Int
  format : String
  /-- How many characters of a label an outline shows. -/
  labelWidth : Nat
  /-- What is logged. -/
  filter : String
deriving DecidableEq

namespace Settings

def default : Settings where
  evaluatesArithmetic := true
  minWordCount := Analysis.defaultMinimum
  format := "text"
  labelWidth := Outline.defaultWidth
  filter := "warn"

/-- A configured minimum that is used: zero and negative numbers stand for the default. -/
def effectiveMinimum (configured : Int) : Nat :=
  if 0 < configured then configured.toNat else Analysis.defaultMinimum

/-- A value without parts. -/
inductive Scalar where
  | nothing
  | boolean (value : Bool)
  | integer (value : Int)
  | float (value : Binary64)
  | text (value : Text)
deriving DecidableEq

inductive Value where
  | scalar (origin : Option String) (content : Scalar)
  | array (origin : Option String) (items : List Value)
  | table (origin : Option String) (entries : List (Text × Value))

namespace Value

def nothing : Value := .scalar none .nothing

def emptyTable : Value := .table none []

/-- The entries of a table; any other value has none. -/
def entries : Value → Entries Text Value
  | .table _ entries => entries
  | _ => []

/-- The items of an array; any other value has none. -/
def items : Value → List Value
  | .array _ items => items
  | _ => []

def tableOrigin : Value → Option String
  | .table origin _ => origin
  | _ => none

def arrayOrigin : Value → Option String
  | .array origin _ => origin
  | _ => none

mutual
/-- Sets a key of a table; a value that is no table becomes one.  Keys lose their case.
A table is not put in place of another but merged into it, key by key. -/
def assign (key : Text) (value : Value) (root : Value) : Value :=
  let name := Text.lower key
  let replacement :=
    match value with
    | .table _ incoming => assignAll incoming ((root.entries.lookup name).getD emptyTable)
    | .scalar origin content => .scalar origin content
    | .array origin items => .array origin items
  .table root.tableOrigin (root.entries.put name replacement)

def assignAll (incoming : List (Text × Value)) (root : Value) : Value :=
  match incoming with
  | [] => root
  | (key, value) :: rest => assignAll rest (assign key value root)
end

end Value

attribute [local instance (high)] instPowNat

inductive KeyStep where
  | key (name : Text)
  /-- An item of an array; negative numbers count from its end. -/
  | index (position : Int)
deriving DecidableEq

/-- The steps from the whole settings to a value, the first of them a key. -/
abbrev KeyPath := List KeyStep

namespace KeyPath

/-- What the name of a key is made of. -/
def isNameChar (c : Char) : Bool := c.isAlphanum || c == ' ' || c == '_' || c == '-'

/-- A number in brackets: blanks around it are allowed, and a minus sign before it. -/
def readIndex? (inside : Text) : Option Int :=
  let isPadding (c : Char) : Bool := c == ' ' || c == '\t'
  let number := ((inside.dropWhile isPadding).reverse.dropWhile isPadding).reverse
  if number.head? = some '+' then none
  else
    match Text.readInteger? number with
    | some position => if -(2 ^ (63 : Nat)) ≤ position ∧ position < 2 ^ (63 : Nat) then some position else none
    | none => none

/-- Reads the steps behind the first key. -/
def readSteps? (limit : Nat) (text : Text) : Option KeyPath :=
  match limit, text with
  | _, [] => some []
  | 0, _ => none
  | limit + 1, '.' :: rest =>
      let name := rest.takeWhile isNameChar
      if name.isEmpty then none
      else (readSteps? limit (rest.drop name.length)).map (.key name :: ·)
  | limit + 1, '[' :: rest =>
      let inside := rest.takeWhile (· != ']')
      match rest.drop inside.length, readIndex? inside with
      | _ :: behind, some position => (readSteps? limit behind).map (.index position :: ·)
      | _, _ => none
  | _, _ => none

/-- Reads a path; every step takes at least one character. -/
def read? (text : Text) : Option KeyPath :=
  let name := text.takeWhile isNameChar
  if name.isEmpty then none
  else (readSteps? text.length (text.drop name.length)).map (.key name :: ·)

/-- The place of an item in an array of a length; a position before the first item
stands for the first. -/
def place (position : Int) (length : Nat) : Nat :=
  if 0 ≤ position then position.toNat else length - position.natAbs

/-- The items with one of them changed; missing ones before it are filled with nothing. -/
def modifyItem (place : Nat) (change : Value → Value) (items : List Value) : List Value :=
  let filled := items ++ List.replicate (place + 1 - items.length) Value.nothing
  filled.modify place change

/-- Sets the value at the end of a path.  Whatever stands in the way of the path is
replaced by a table or an array. -/
def set (value : Value) : KeyPath → Value → Value
  | [], root => root
  | [.key name], root => Value.assign name value root
  | .key name :: rest, root =>
      let key := Text.lower name
      let target := (root.entries.lookup key).getD .nothing
      .table root.tableOrigin (root.entries.put key (set value rest target))
  | [.index position], root =>
      .array root.arrayOrigin
        (modifyItem (place position root.items.length) (fun _ => value) root.items)
  | .index position :: rest, root =>
      .array root.arrayOrigin
        (modifyItem (place position root.items.length) (set value rest) root.items)

end KeyPath

/-- Sets a value under the name of a key as it stands in a file: as a path if it reads
as one, and as a plain key otherwise. -/
def Value.assignTop (root : Value) (name : Text) (value : Value) : Value :=
  match KeyPath.read? name with
  | some path => KeyPath.set value path root
  | none => Value.assign name value root

end Settings

end ProseTree
