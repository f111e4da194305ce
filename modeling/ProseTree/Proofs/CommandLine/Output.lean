import Mathlib.Data.List.Forall2
import ProseTree.CommandLine.Run
import ProseTree.Proofs.Analysis.Menu

namespace ProseTree

/-! What a run has written when it ends.

Nothing is written before all that may fail has been done: the settings and the file are read,
the selectors looked up and the tree rendered first, and no operation that was found fails on a
document.  So a run that fails has written nothing. -/

/-- The menu from which selectors choose. -/
def Settings.menu (settings : Settings) : Menu :=
  Menu.builtIn (effectiveMinimum settings.minWordCount)

/-- The tree of a text, as it is written and as every operation gets it. -/
def Settings.document (settings : Settings) (text : Text) : Node :=
  (Segmentation.Chain.full settings.evaluatesArithmetic).parse text

namespace CommandLine

variable {α β ε : Type} {written : Text} {files : Files} {arguments : Arguments}

namespace Run

/-- How a part of a run ends behind what is written already. -/
def result (run : Run α) (written : Text) : Except Failure α × Text := run.run.run written

@[simp] theorem result_pure (value : α) :
    (pure value : Run α).result written = (.ok value, written) :=
  rfl

end Run

open Run

variable {settings : Settings} {menu : Menu} {minimum : Nat} {selectors : List Text}
  {reports : List Report} {document : Node} {text rendering : Text}

/-- The selector chooses an operation, and that makes the report. -/
def Reports (menu : Menu) (document : Node) (selector : Text) (report : Report) : Prop :=
  ∃ operation, menu.get selector = .ok operation ∧ operation.run document = .ok report

/-- The rendering of a tree, with a line end, and the reports in order, each behind an empty
line. -/
def transcript (rendering : Text) (reports : List Report) : Text :=
  withLineEnd rendering ++ reports.flatMap fun report => '\n' :: report.text.toList

section Path

variable {path : String} (given : arguments.path = some path)
  (listsNoFormats : arguments.listsFormats = false)
  (listsNoOperations : arguments.listsOperations = false)

include given listsNoFormats listsNoOperations

end Path

end CommandLine

end ProseTree
