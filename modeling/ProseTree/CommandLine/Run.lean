import ProseTree.Analysis.Pipeline
import ProseTree.CommandLine.Arguments
import ProseTree.Segmentation.Chain
import ProseTree.Settings.Layers

namespace ProseTree.CommandLine

/-! A run of the program: it reads a file, writes its tree and then the reports that
were asked for.  What has been written when a run fails stays written. -/

inductive Failure where
  | unreadable (path : String) (cause : ReadError)
  | settings (cause : Settings.Error)
  | format (cause : UnknownFormat)
  | operation (cause : OperationError)

def Failure.message : Failure → String
  | .unreadable path cause => "Failed to read " ++ path ++ ": " ++ cause.message
  | .settings cause => "Configuration error: " ++ cause.message
  | .format cause => cause.message
  | .operation cause => cause.message

/-- A part of a run: it adds to what is written and may fail. -/
abbrev Run := ExceptT Failure (StateM Text)

namespace Run

def write (text : Text) : Run Unit := modify (· ++ text)

/-- Goes on with a result or fails with its error. -/
def orFail {ε α : Type} (failure : ε → Failure) : Except ε α → Run α
  | .ok result => pure result
  | .error error => throw (failure error)

end Run

def withExtension? (path : String) : Option String :=
  let steps := ((path.splitOn "/").reverse.dropWhile fun step => step == "" || step == ".").reverse
  match steps.getLast? with
  | none => none
  | some ".." => none
  | some _ => some ("/".intercalate steps ++ ".toml")

def shownPath (path : String) : String :=
  if path.startsWith "/" then path else "/".intercalate (pathSteps path)

/-- The layer of a settings file: the path itself, or else the path with the extension. -/
def settingsLayer (files : Files) (path : String) : Settings.Layer :=
  match (path :: (withExtension? path).toList).find? files.isFile with
  | none => .missing path true
  | some found =>
      match files.readText found with
      | .ok text => .file (shownPath found) text
      | .error cause => .unreadable cause

/-- The layers that the arguments put over the defaults. -/
def Arguments.layers (files : Files) (arguments : Arguments) : List Settings.Layer :=
  (arguments.config.map (settingsLayer files)).toList ++
    (arguments.format.map fun format =>
      Settings.Layer.override "output.format".toList (.text format.toList)).toList ++
    (arguments.minWords.map fun least =>
      Settings.Layer.override "operations.min_word_count".toList (.integer least)).toList

def formatList : Text :=
  ("Available output formats:\n\n" ++
    String.join (Format.all.map fun format =>
      "  " ++ format.name ++ "\n    " ++ format.description ++ "\n\n")).toList

def operationList (menu : Menu) : Text :=
  ("Available operations:\n\n" ++
    String.join (menu.list.map fun (number, name, description) =>
      "  " ++ toString number ++ ". " ++ name ++ "\n     " ++ description ++ "\n\n")).toList

def withLineEnd (text : Text) : Text :=
  if text.getLast? = some '\n' then text else text ++ ['\n']

/-- Writes the tree of a text, and the report of every selector on it.  All selectors
are looked up before anything is written. -/
def writeTree (settings : Settings) (menu : Menu) (selectors : List Text) (text : Text) :
    Run Unit := do
  selectors.forM fun selector => do
    let _ ← Run.orFail .operation (menu.get selector)
  let tree := (Segmentation.Chain.full settings.evaluatesArithmetic).parse text
  let rendering ← Run.orFail .format (tree.render settings.format settings.labelWidth)
  Run.write (withLineEnd rendering)
  selectors.forM fun selector => do
    let report ← Run.orFail .operation (menu.execute selector tree)
    Run.write ('\n' :: report.text.toList)

def Arguments.run (files : Files) (arguments : Arguments) : Run Unit := do
  let settings ← Run.orFail .settings (Settings.load (arguments.layers files))
  let menu := Menu.builtIn (Settings.effectiveMinimum settings.minWordCount)
  if arguments.listsFormats then Run.write formatList
  else if arguments.listsOperations then Run.write (operationList menu)
  else
    match arguments.path with
    | none => pure ()
    | some path =>
        let text ← Run.orFail (.unreadable path) (files.readText path)
        writeTree settings menu (arguments.operations.map String.toList) text

structure Outcome where
  /-- Zero for success, one for failure and two for words that make no sense. -/
  code : Nat
  written : Text
  complaint : Option String

def usage : String :=
  "Usage: textree <path> [--format <format>] [--operation <operation>]... " ++
    "[--config <file>] [--min-words <number>]\n" ++
    "       textree --list-formats | --list-operations | --version | --help\n"

def execute (files : Files) (words : List Text) : Outcome :=
  match Arguments.read words with
  | .error .misuse => ⟨2, [], some usage⟩
  | .error .version => ⟨0, "textree 0.1.0\n".toList, none⟩
  | .error .help => ⟨0, usage.toList, none⟩
  | .ok arguments =>
      match (arguments.run files).run.run [] with
      | (.ok (), written) => ⟨0, written, none⟩
      | (.error failure, written) => ⟨1, written, some ("Error: " ++ failure.message ++ "\n")⟩

/-- The paths that a command line may read. -/
def pathsRead (words : List Text) : List String :=
  match Arguments.read words with
  | .error _ => []
  | .ok arguments =>
      arguments.path.toList ++
        (arguments.config.map fun path => path :: (withExtension? path).toList).getD []

end ProseTree.CommandLine
