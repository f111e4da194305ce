import Mathlib.Data.List.Basic
import ProseTree.Analysis.Pipeline

namespace ProseTree.Menu

/-! What the built-in operations do with a document.

Each of them runs on every document.  Two come with a tree, and the others leave the document
that they describe where it is. -/

open Analysis

variable {menu : Menu} {operation : Operation} {selector : Text} {node : Node} {minimum : Nat}

theorem operations_builtIn (minimum : Nat) : (builtIn minimum).operations =
    [sortParagraphs, longestWord, removeShortSentences minimum, identicalWords,
      vowelsConsonants] := by
  rfl

theorem mem_of_byNumber? {number : Nat} (found : menu.byNumber? number = some operation) :
    operation ∈ menu.operations := by
  unfold byNumber? at found
  split at found
  · contradiction
  · exact List.mem_of_getElem? found

theorem mem_of_get (found : menu.get selector = .ok operation) : operation ∈ menu.operations := by
  unfold get at found
  dsimp only at found
  split at found
  · rename_i chosen here
    obtain rfl := Except.ok.inj found
    split at here
    · exact mem_of_byNumber? here
    · exact List.mem_of_find?_eq_some here
  · contradiction

/-- A selector that chooses nothing is reported without the white space around it. -/
theorem get_eq_error {error : OperationError} (missing : menu.get selector = .error error) :
    error = .unknown selector.trim := by
  unfold get at missing
  dsimp only at missing
  split at missing
  · contradiction
  · exact (Except.error.inj missing).symm

/-- The number of a built-in operation chooses it, and so does its name. -/
theorem get_builtIn {index : Nat} (here : (builtIn minimum).operations[index]? = some operation) :
    (builtIn minimum).get (toString (index + 1)).toList = .ok operation ∧
      (builtIn minimum).get operation.name.toList = .ok operation := by
  rw [operations_builtIn] at here
  match index with
  | 0 | 1 | 3 | 4 =>
      obtain rfl := Option.some.inj here
      exact ⟨rfl, rfl⟩
  | 2 =>
      obtain rfl := Option.some.inj here
      have name : (removeShortSentences minimum).name = "remove-short-sentences" := rfl
      rw [name]
      exact ⟨rfl, rfl⟩
  | index + 5 => contradiction

/-- What a built-in operation makes of a document: the paragraphs in another order, or without
the short sentences, or nothing. -/
inductive Makes (minimum : Nat) (document : Node) : (name : String) → Option Node → Prop where
  | sorted : Makes minimum document "sort-paragraphs"
      (some (.composite none .document ((orderParagraphs document).map Prod.fst)))
  | shortened : Makes minimum document "remove-short-sentences"
      (some (filterDocument (Analysis.effectiveMinimum minimum) document))
  | nothing {name : String}
      (other : name ≠ "sort-paragraphs" ∧ name ≠ "remove-short-sentences") :
      Makes minimum document name none

theorem exists_report (member : operation ∈ (builtIn minimum).operations)
    (isDocument : node.kind = .document) :
    ∃ report, operation.run node = .ok report ∧ Makes minimum node operation.name report.tree := by
  rw [operations_builtIn] at member
  simp only [List.mem_cons, List.not_mem_nil, or_false] at member
  rcases member with rfl | rfl | rfl | rfl | rfl
  · exact ⟨_, if_neg (not_not.mpr isDocument), .sorted⟩
  · simp only [longestWord]
    split <;> exact ⟨_, rfl, .nothing (by decide)⟩
  · simp only [removeShortSentences, isDocument]
    exact ⟨_, rfl, .shortened⟩
  · simp only [identicalWords]
    split <;> exact ⟨_, rfl, .nothing (by decide)⟩
  · simp only [vowelsConsonants]
    split <;> exact ⟨_, rfl, .nothing (by decide)⟩

/-- What a selector does on a document: it chooses an operation and that reports, or it chooses
none, which is the only failure. -/
theorem execute_cases (minimum : Nat) (isDocument : node.kind = .document) (selector : Text) :
    ((builtIn minimum).get selector = .error (.unknown selector.trim) ∧
      (builtIn minimum).execute selector node = .error (.unknown selector.trim)) ∨
    ∃ operation report, (builtIn minimum).get selector = .ok operation ∧
      operation.run node = .ok report ∧ (builtIn minimum).execute selector node = .ok report ∧
      Makes minimum node operation.name report.tree := by
  cases chosen : (builtIn minimum).get selector with
  | error error =>
      obtain rfl := get_eq_error chosen
      exact .inl ⟨rfl, by rw [execute, chosen]⟩
  | ok operation =>
      obtain ⟨report, reported, makes⟩ := exists_report (mem_of_get chosen) isDocument
      refine .inr ⟨operation, report, rfl, reported, ?_, makes⟩
      rw [execute, chosen]
      dsimp only
      rw [reported]
      rfl

end ProseTree.Menu
