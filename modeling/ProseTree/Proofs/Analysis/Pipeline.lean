import Mathlib.Data.List.Perm.Subperm
import ProseTree.Node.Edit
import ProseTree.Proofs.Analysis.Menu
import ProseTree.Proofs.Analysis.Regrouping
import ProseTree.Proofs.Segmentation.Shape
import ProseTree.Settings.Basic

namespace ProseTree.Menu

/-! Pipelines of operations on a document.

An operation that comes with a tree keeps a document one, and regroups the sentences of what it
ran on; so does what they make one after the other. -/

open Analysis

variable {menu : Menu} {start : Node} {selector : Text} {selectors : List Text}
  {minimum : Nat} {evaluates : Bool} {text : Text}

theorem pipelineResult_cons (menu : Menu) (start : Node) (selector : Text) (rest : List Text) :
    menu.pipelineResult start (selector :: rest) =
      menu.pipelineResult (nextNode start (menu.execute selector start)) rest := by
  cases rest with
  | nil => rfl
  | cons next rest =>
      simp only [pipelineResult, pipeline, List.getLast?_cons_cons]
      rfl

/-- The last selector runs on what the others arrived at. -/
theorem pipelineResult_append_singleton (menu : Menu) (start : Node) (selectors : List Text)
    (selector : Text) :
    menu.pipelineResult start (selectors ++ [selector]) =
      nextNode (menu.pipelineResult start selectors)
        (menu.execute selector (menu.pipelineResult start selectors)) := by
  induction selectors generalizing start with
  | nil => rfl
  | cons first rest ih =>
      rw [List.cons_append, pipelineResult_cons, ih, pipelineResult_cons]

/-- Some selector chooses the operation of a name. -/
def Runs (menu : Menu) (name : String) (selectors : List Text) : Prop :=
  ∃ selector ∈ selectors, ∃ operation, menu.get selector = .ok operation ∧ operation.name = name

theorem runs_append_of_error {name : String} {error : OperationError}
    (missing : menu.get selector = .error error) :
    menu.Runs name (selectors ++ [selector]) ↔ menu.Runs name selectors := by
  simp [Runs, or_and_right, exists_or, missing]

theorem runs_append_of_ok {name : String} {operation : Operation}
    (chosen : menu.get selector = .ok operation) :
    menu.Runs name (selectors ++ [selector]) ↔
      menu.Runs name selectors ∨ operation.name = name := by
  simp [Runs, or_and_right, exists_or, chosen]

/-- The invariant of a pipeline: its document has the sentences of the first one, without the
short ones if those have been removed. -/
def Arrives (minimum : Nat) (start : Node) (selectors : List Text) (current : Node) : Prop :=
  ∃ keeps : Node → Bool,
    (∀ sentence, keeps sentence = true ↔
      ((builtIn minimum).Runs "remove-short-sentences" selectors →
        Analysis.effectiveMinimum minimum ≤ sentence.wordCount)) ∧
    Regroups keeps start current

/-- A selector that does not choose the filter goes on with a document of the same sentences. -/
theorem Arrives.congr {current next : Node} {others : List Text}
    (arrives : Arrives minimum start selectors current)
    (same : (builtIn minimum).Runs "remove-short-sentences" others ↔
      (builtIn minimum).Runs "remove-short-sentences" selectors)
    (regroups : ∀ keeps, Regroups keeps start current → Regroups keeps start next) :
    Arrives minimum start others next := by
  obtain ⟨keeps, kept, before⟩ := arrives
  exact ⟨keeps, fun sentence => by rw [kept, same], regroups keeps before⟩

theorem Arrives.step {current : Node} (arrives : Arrives minimum start selectors current)
    (selector : Text) :
    Arrives minimum start (selectors ++ [selector])
      (nextNode current ((builtIn minimum).execute selector current)) := by
  have ⟨keeps, kept, regroups⟩ := arrives
  rcases execute_cases minimum regroups.isDocument.layered.kind_eq selector with
    ⟨missing, failed⟩ | ⟨operation, report, chosen, -, reported, makes⟩
  · rw [failed]
    exact arrives.congr (runs_append_of_error missing) fun _ => id
  · rw [reported, nextNode]
    have runs : (builtIn minimum).Runs "remove-short-sentences" (selectors ++ [selector]) ↔
        (builtIn minimum).Runs "remove-short-sentences" selectors ∨
          operation.name = "remove-short-sentences" := runs_append_of_ok chosen
    generalize operation.name = name at makes runs
    generalize report.tree = tree at makes
    cases makes with
    | sorted => exact arrives.congr (runs.trans (by simp)) fun _ => .sorted
    | shortened =>
        refine ⟨_, fun sentence => ?_, regroups.shortened _⟩
        rw [Bool.and_eq_true, decide_eq_true_eq, kept, runs]
        exact ⟨fun long _ => long.1, fun long => ⟨long (.inr rfl), fun _ => long (.inr rfl)⟩⟩
    | nothing other => exact arrives.congr (runs.trans (by simp [other.2])) fun _ => id

theorem arrives (isDocument : start.IsDocument) (minimum : Nat) (selectors : List Text) :
    Arrives minimum start selectors ((builtIn minimum).pipelineResult start selectors) := by
  induction selectors using List.reverseRecOn with
  | nil =>
      refine ⟨fun _ => true, fun sentence => ?_, .refl isDocument⟩
      simp [Runs]
  | append_singleton selectors selector ih =>
      rw [pipelineResult_append_singleton]
      exact ih.step selector

theorem Arrives.regroups_of_not_runs {current : Node}
    (arrives : Arrives minimum start selectors current)
    (never : ¬(builtIn minimum).Runs "remove-short-sentences" selectors) :
    Regroups (fun _ => true) start current := by
  obtain ⟨keeps, kept, regroups⟩ := arrives
  obtain rfl : keeps = fun _ => true :=
    funext fun sentence => (kept sentence).mpr fun ran => absurd ran never
  exact regroups

theorem Arrives.regroups_of_runs {current : Node}
    (arrives : Arrives minimum start selectors current)
    (ran : (builtIn minimum).Runs "remove-short-sentences" selectors) :
    Regroups (fun sentence => Analysis.effectiveMinimum minimum ≤ sentence.wordCount) start
      current := by
  obtain ⟨keeps, kept, regroups⟩ := arrives
  obtain rfl : keeps =
      fun sentence => decide (Analysis.effectiveMinimum minimum ≤ sentence.wordCount) := by
    funext sentence
    rw [Bool.eq_iff_iff, kept, decide_eq_true_eq]
    exact ⟨fun long => long ran, fun long _ => long⟩
  exact regroups

/-- A configured minimum is used as it is. -/
theorem effectiveMinimum_effectiveMinimum (configured : Int) :
    Analysis.effectiveMinimum (Settings.effectiveMinimum configured) =
      Settings.effectiveMinimum configured := by
  apply if_neg
  unfold Settings.effectiveMinimum
  split
  · omega
  · decide

/-- A pipeline of any selectors on the document of a text, wherever its nodes are held.  No
operation fails on what the pipeline arrived at, and a selector that chooses none leaves it as
it is.  That is a document again, whose sentences are the same nodes as before: all of them, or
those of enough words once the others have been removed, together as in their paragraphs and in
their order there. -/
theorem pipeline_regroups
    (parsed : start.unmarked = (Segmentation.Chain.full evaluates).parse text)
    (configured : Int) (selectors : List Text) :
    let minimum := Settings.effectiveMinimum configured
    let menu := builtIn minimum
    let current := menu.pipelineResult start selectors
    let isLong := fun sentence : Node => decide (minimum ≤ sentence.wordCount)
    (∀ index operation, menu.operations[index]? = some operation →
      menu.get (toString (index + 1)).toList = .ok operation ∧
      menu.get operation.name.toList = .ok operation) ∧
    (∀ selector,
      (menu.get selector = .error (.unknown selector.trim) ∧
        menu.execute selector current = .error (.unknown selector.trim) ∧
        menu.pipelineResult start (selectors ++ [selector]) = current) ∨
      ∃ operation report, menu.get selector = .ok operation ∧
        menu.execute selector current = .ok report ∧
        menu.pipelineResult start (selectors ++ [selector]) = report.tree.getD current) ∧
    current.IsDocument ∧
    current.sentences.Subperm start.sentences ∧
    (¬menu.Runs "remove-short-sentences" selectors →
      current.sentences.Perm start.sentences ∧
      current.sentenceGroups.Perm start.sentenceGroups) ∧
    (menu.Runs "remove-short-sentences" selectors →
      current.sentences.Perm (start.sentences.filter isLong) ∧
      current.sentenceGroups.Perm (keptGroups isLong start.sentenceGroups)) := by
  intro minimum menu current isLong
  have isDocument : start.IsDocument := by
    apply Node.IsDocument.of_unmarked
    rw [parsed]
    exact Segmentation.isDocument_parse_full evaluates text
  have arrived : Arrives minimum start selectors current := arrives isDocument minimum selectors
  have ⟨keeps, _, regroups⟩ := arrived
  refine ⟨fun index operation here => get_builtIn here, fun selector => ?_, regroups.isDocument,
    ?_, fun never => ?_, fun ran => ?_⟩
  · rw [pipelineResult_append_singleton]
    rcases execute_cases minimum regroups.isDocument.layered.kind_eq selector with
      ⟨missing, failed⟩ | ⟨operation, report, chosen, -, reported, -⟩
    · exact .inl ⟨missing, failed, congrArg (nextNode current) failed⟩
    · exact .inr ⟨operation, report, chosen, reported, congrArg (nextNode current) reported⟩
  · exact (regroups.sentences isDocument).subperm.trans List.filter_sublist.subperm
  · have whole := arrived.regroups_of_not_runs never
    have sentences := whole.sentences isDocument
    have groups := whole.groups
    rw [List.filter_true] at sentences
    rw [keptGroups_eq_self isDocument.ne_nil_of_mem_sentenceGroups] at groups
    exact ⟨sentences, groups⟩
  · have long := arrived.regroups_of_runs ran
    rw [effectiveMinimum_effectiveMinimum] at long
    exact ⟨long.sentences isDocument, long.groups⟩

/-- The short sentence goes, and the paragraphs change places; the sentences that stay have the
identities that they had. -/
theorem pipeline_regroups_sorted :
    let text : Text := ['A', ' ', 'b', '.', ' ', 'C', '.', '\n', '\n', 'D', ' ', 'e', '.']
    let start := (((Segmentation.Chain.full true).parse text).identifyBelow 0).1
    let menu := builtIn (Settings.effectiveMinimum 2)
    let selectors : List Text := [['1'], ['?'], ['3']]
    start.unmarked = (Segmentation.Chain.full true).parse text ∧
    menu.Runs "remove-short-sentences" selectors ∧
    start.sentences.map Node.id = [some 5, some 9, some 16] ∧
    ((menu.pipelineResult start selectors).sentences.map Node.id).Perm [some 5, some 16] := by
  intro text start menu selectors
  have parsed : start.unmarked = (Segmentation.Chain.full true).parse text := by decide +kernel
  have ran : menu.Runs "remove-short-sentences" selectors :=
    ⟨['3'], by decide, removeShortSentences 2, rfl, rfl⟩
  have long : (start.sentences.filter fun sentence => 2 ≤ sentence.wordCount).map Node.id =
      [some 5, some 16] := by
    decide +kernel
  refine ⟨parsed, ran, by decide +kernel, ?_⟩
  rw [← long]
  exact ((pipeline_regroups parsed 2 selectors).2.2.2.2.2 ran).1.map Node.id

end ProseTree.Menu
