import ProseTree.Settings.Conversion
import ProseTree.Settings.Toml.Document

namespace ProseTree.Settings

/-! Settings and the table that configures them, in both directions, and settings put together from
layers: the defaults, files over them in order, and single values over all files. -/

namespace Part

def parsing : Part := ⟨"parsing", "ParsingConfig", ["evaluate_arithmetic"]⟩

def operations : Part := ⟨"operations", "OperationsConfig", ["min_word_count"]⟩

def output : Part := ⟨"output", "OutputConfig", ["format", "treeviz_label_width"]⟩

def logging : Part := ⟨"logging", "LoggingConfig", ["filter"]⟩

/-- The value of a field by its place in the part, and the key that messages give it.
A table holds the fields by name, an array in order. -/
def field? (part : Part) (index : Nat) (value : Value) : Option (String × Value) :=
  match value with
  | .table _ entries =>
      (part.fields[index]?).bind fun name =>
        (entries.lookup name.toList).map fun found => (part.key ++ "." ++ name, found)
  | .array _ items =>
      (items[index]?).map fun found => (part.key ++ "[" ++ toString index ++ "]", found)
  | .scalar .. => none

def absent (part : Part) (index : Nat) (value : Value) : Error :=
  match value with
  | .scalar _ content => .notAPart content part
  | .array .. => .missingItem index part
  | .table .. => .missingField ((part.fields[index]?).getD "")

/-- Reads the field at a place, if it is there. -/
def read {α : Type} (part : Part) (index : Nat) (wanted : Wanted) (convert : Value → Option α)
    (value : Value) : Except Error (Option α) :=
  match part.field? index value with
  | none => .ok none
  | some (key, found) =>
      match convert found with
      | some result => .ok (some result)
      | none => .error (.wrongType found wanted key)

def demand {α : Type} (part : Part) (index : Nat) (value : Value) :
    Option α → Except Error α
  | some result => .ok result
  | none => .error (part.absent index value)

end Part

def partOf (root : Value) (part : Part) : Except Error Value :=
  match root.entries.lookup part.key.toList with
  | some value => .ok value
  | none => .error (.missingField part.key)

/-- Reads settings from their table.  A field that is there but has the wrong type is
reported before one that is not there. -/
def ofValue (root : Value) : Except Error Settings := do
  let parsing ← partOf root .parsing
  let operations ← partOf root .operations
  let output ← partOf root .output
  let logging ← partOf root .logging
  let evaluates ← Part.parsing.read 0 .boolean Value.toBoolean? parsing
  let minimum ← Part.operations.read 0 .integer Value.toInteger? operations
  let format ← Part.output.read 0 .text Value.toText? output
  let width ← Part.output.read 1 .natural Value.toNatural? output
  let filter ← Part.logging.read 0 .text Value.toText? logging
  return {
    evaluatesArithmetic := ← Part.parsing.demand 0 parsing evaluates
    minWordCount := ← Part.operations.demand 0 operations minimum
    format := String.ofList (← Part.output.demand 0 output format)
    labelWidth := ← Part.output.demand 1 output width
    filter := String.ofList (← Part.logging.demand 0 logging filter) }

def toValue (settings : Settings) : Value :=
  let part (part : Part) (values : List Scalar) : Text × Value :=
    (part.key.toList, .table none ((part.fields.zip values).map fun (name, value) =>
      (name.toList, .scalar none value)))
  .table none [
    part .parsing [.boolean settings.evaluatesArithmetic],
    part .operations [.integer settings.minWordCount],
    part .output [.text settings.format.toList, .integer settings.labelWidth],
    part .logging [.text settings.filter.toList]]

inductive Layer where
  | file (name : String) (content : Text)
  /-- A file that is not there, and whether it is needed. -/
  | missing (name : String) (isNeeded : Bool)
  | unreadable (cause : ReadError)
  /-- A value under the path of a key. -/
  | override (key : Text) (value : Scalar)

namespace Layer

/-- The value that the layer puts over all files, and where. -/
def override? : Layer → Except Error (Option (KeyPath × Scalar))
  | .override key value =>
      match KeyPath.read? key with
      | some path => .ok (some (path, value))
      | none => .error (.badPath key)
  | _ => .ok none

def addFile (root : Value) : Layer → Except Error Value
  | .file name content =>
      match Toml.read? (some name) content with
      | some entries =>
          .ok (entries.foldl (fun root (key, value) => root.assignTop key value) root)
      | none => .error (.badFile name)
  | .missing name true => .error (.missingFile name)
  | .unreadable cause => .error (.unreadable cause)
  | _ => .ok root

end Layer

/-- Reads settings from layers over the defaults.  The paths of all overrides are read
before any file. -/
def load (layers : List Layer) : Except Error Settings := do
  let overrides ← layers.mapM Layer.override?
  let root ← layers.foldlM Layer.addFile Settings.default.toValue
  ofValue ((overrides.filterMap id).foldl
    (fun root (path, value) => KeyPath.set (.scalar none value) path root) root)

end ProseTree.Settings
