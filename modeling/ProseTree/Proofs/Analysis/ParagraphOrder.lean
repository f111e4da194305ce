import ProseTree.Proofs.Analysis.Menu
import ProseTree.Proofs.Workspace.Soundness

namespace ProseTree

/-! Paragraphs in order of their number of sentences.

Sorting is stable, so a document has one order only: its children by the number of their children
first, and by their places then.  Operations leave alone what they run on. -/

section Stable

variable {α : Type} {le : α → α → Bool} {keeps : α → Bool}

/-- Sorting leaves elements that may stand in either order as they were to each other. -/
theorem filter_mergeSort (trans : ∀ a b c, le a b → le b c → le a c)
    (total : ∀ a b, le a b || le b a) (alike : ∀ a b, keeps a → keeps b → le a b) (list : List α) :
    (list.mergeSort le).filter keeps = list.filter keeps := by
  have inOrder : (list.filter keeps).Pairwise fun a b => le a b :=
    List.pairwise_of_forall_mem_list fun a isKept b isKeptToo =>
      alike a b (List.mem_filter.mp isKept).2 (List.mem_filter.mp isKeptToo).2
  have within := (List.sublist_mergeSort trans total inOrder List.filter_sublist).filter keeps
  have same := (List.mergeSort_perm list le).filter keeps
  rw [List.filter_filter] at within
  simp only [Bool.and_self] at within
  exact (within.eq_of_length same.length_eq.symm).symm

end Stable

namespace Analysis

variable {document : Node} {order others : List Placed} {left right : Placed}

/-- The number of children decides. -/
def fewer (left right : Placed) : Bool := left.1.children.length ≤ right.1.children.length

theorem fewer_iff : fewer left right = true ↔
    left.1.children.length ≤ right.1.children.length := by
  rw [fewer, decide_eq_true_eq]

theorem fewer_trans (first second third : Placed) (less : fewer first second = true)
    (lessThen : fewer second third = true) : fewer first third = true :=
  fewer_iff.mpr (Nat.le_trans (fewer_iff.mp less) (fewer_iff.mp lessThen))

theorem fewer_total (left right : Placed) : (fewer left right || fewer right left) = true := by
  rw [Bool.or_eq_true, fewer_iff, fewer_iff]
  exact Nat.le_total _ _

theorem orderParagraphs_eq (document : Node) :
    orderParagraphs document = (document.children.zipIdx 1).mergeSort fewer := by
  rfl

/-- The children of a document, each with its place, in the order of their number of children. -/
structure Ascending (document : Node) (order : List Placed) : Prop where
  whole : order.Perm (document.children.zipIdx 1)
  sorted : order.Pairwise fun left right => left.1.children.length ≤ right.1.children.length
  /-- Children of equal number stay in the order of their places. -/
  stable : order.Pairwise fun left right =>
    left.1.children.length = right.1.children.length → left.2 < right.2

theorem places_ascend (children : List Node) :
    (children.zipIdx 1).Pairwise fun left right => left.2 < right.2 := by
  have places : ((children.zipIdx 1).map Prod.snd).Pairwise (· < ·) := by
    rw [List.zipIdx_map_snd]
    exact List.pairwise_lt_range'
  exact List.pairwise_map.mp places

theorem ascending_orderParagraphs (document : Node) :
    Ascending document (orderParagraphs document) := by
  rw [orderParagraphs_eq]
  refine ⟨List.mergeSort_perm _ _, ?_, List.pairwise_iff_forall_sublist.mpr ?_⟩
  · exact (List.pairwise_mergeSort fewer_trans fewer_total _).imp fewer_iff.mp
  · intro left right within same
    -- Both are among the children of their number, which sorting leaves in the order of places.
    let keeps : Placed → Bool := fun placed =>
      placed.1.children.length == left.1.children.length
    have alike : ∀ first second, keeps first → keeps second → fewer first second := by
      intro first second ofNumber ofNumberToo
      exact fewer_iff.mpr (Nat.le_of_eq
        ((beq_iff_eq.mp ofNumber).trans (beq_iff_eq.mp ofNumberToo).symm))
    have kept : [left, right].filter keeps = [left, right] := by simp [keeps, same]
    have among := within.filter keeps
    rw [kept, filter_mergeSort fewer_trans fewer_total alike] at among
    exact List.pairwise_iff_forall_sublist.mp (places_ascend document.children)
      (among.trans List.filter_sublist)

/-- There is one such order. -/
theorem Ascending.unique (first : Ascending document order) (second : Ascending document others) :
    order = others := by
  refine List.Perm.eq_of_pairwise ?_ (first.sorted.and first.stable)
    (second.sorted.and second.stable) (first.whole.trans second.whole.symm)
  intro left right _ _ before behind
  have same := Nat.le_antisymm before.1 behind.1
  exact absurd (before.2 same) (Nat.lt_asymm (behind.2 same.symm))

/-- What stands in order stays as it is. -/
theorem orderParagraphs_eq_of_pairwise
    (sorted : document.children.Pairwise fun left right =>
      left.children.length ≤ right.children.length) :
    orderParagraphs document = document.children.zipIdx 1 := by
  rw [orderParagraphs_eq]
  apply List.mergeSort_of_pairwise
  have children : ((document.children.zipIdx 1).map Prod.fst).Pairwise fun left right =>
      left.children.length ≤ right.children.length := by rwa [List.zipIdx_map_fst]
  exact (List.pairwise_map.mp children).imp fewer_iff.mpr

theorem run_sortParagraphs {node : Node} (isDocument : node.kind = .document) :
    sortParagraphs.run node = .ok {
      title := "Paragraphs sorted by sentence count"
      body := String.join ((orderParagraphs node).map paragraphEntry)
      tree := some (.composite none .document ((orderParagraphs node).map Prod.fst)) } :=
  if_neg (not_not.mpr isDocument)

theorem execute_sortParagraphs (minimum : Nat) (node : Node) :
    (Menu.builtIn minimum).execute "sort-paragraphs".toList node =
      (sortParagraphs.run node).mapError .unsupported := by
  have chosen : (Menu.builtIn minimum).get "sort-paragraphs".toList = .ok sortParagraphs :=
    (@Menu.get_builtIn sortParagraphs minimum 0 rfl).2
  rw [Menu.execute, chosen]

/-- Sorting the paragraphs of a document gives a document of the very same children, each once, in
ascending order of their number of children, those of equal number in the order they had; there
is one such order.  The report lists them in that order with the places they had.  Sorting again
changes nothing, and nothing that is held is changed by sorting.  A node that is no document is
refused. -/
theorem sortParagraphs_sorts (node : Node) :
    (node.kind = .document → ∃ order report,
      sortParagraphs.run node = .ok report ∧
      Ascending node order ∧ (∀ others, Ascending node others → others = order) ∧
      report.tree = some (.composite none .document (order.map Prod.fst)) ∧
      report.body = String.join (order.map fun (paragraph, place) =>
        "Paragraph " ++ toString place ++ " (" ++ toString paragraph.children.length ++
          (if paragraph.children.length = 1 then " sentence" else " sentences") ++ "):\n" ++
          String.ofList paragraph.reconstruct ++ "\n\n") ∧
      (∀ id, ∃ again,
        sortParagraphs.run (.composite id .document (order.map Prod.fst)) = .ok again ∧
        again.tree = report.tree) ∧
      ∀ (workspace : Workspace) source minimum into, workspace.held source = .ok node →
        let step := workspace.run (.operate source "sort-paragraphs".toList minimum into)
        step.2 = .ok (.report report) ∧
        ∀ name, into ≠ some name → step.1.find? name = workspace.find? name) ∧
    (node.kind ≠ .document →
      sortParagraphs.run node = .error ⟨"sort-paragraphs", node.kind⟩) := by
  refine ⟨fun isDocument => ?_, fun isOther => if_pos isOther⟩
  have ran := run_sortParagraphs isDocument
  have ascending := ascending_orderParagraphs node
  refine ⟨orderParagraphs node, _, ran, ascending, fun others other => other.unique ascending, rfl,
    rfl, fun id => ⟨_, run_sortParagraphs rfl, ?_⟩, ?_⟩
  · have again : orderParagraphs (.composite id .document ((orderParagraphs node).map Prod.fst)) =
        ((orderParagraphs node).map Prod.fst).zipIdx 1 :=
      orderParagraphs_eq_of_pairwise (List.pairwise_map.mpr ascending.sorted)
    rw [again, List.zipIdx_map_fst]
  · intro workspace source minimum into held
    have reported := execute_sortParagraphs minimum node
    rw [ran] at reported
    exact ⟨Workspace.run_operate held reported, fun name => Workspace.find?_operate⟩

/-- Two nodes that are children twice stand in order with a leaf, which has no children, and the
document is held as it was. -/
theorem sortParagraphs_sorts_shared :
    let mark := Node.leaf (some 0) .symbol ['*']
    let one := Node.composite (some 2) .paragraph [.leaf (some 1) .word ['a']]
    let two := Node.composite (some 3) .paragraph [one, mark]
    let node := Node.composite (some 4) .document [two, one, mark, two, one]
    let workspace : Workspace := ⟨[("text", .shared node)], 5⟩
    let step := workspace.run (.operate "text" "sort-paragraphs".toList 3 (some "sorted"))
    node.kind = .document ∧ mark.kind ≠ .document ∧ workspace.held "text" = .ok node ∧
    (∃ report, sortParagraphs.run node = .ok report ∧ step.2 = .ok (.report report) ∧
      report.tree = some (.composite none .document [mark, one, one, two, two])) ∧
    step.1.find? "text" = some (.shared node) ∧
    sortParagraphs.run mark = .error ⟨"sort-paragraphs", .symbol⟩ := by
  intro mark one two node workspace step
  have isOther : mark.kind ≠ .document := by decide
  have held : workspace.held "text" = .ok node := rfl
  have ascending : Ascending node [(mark, 3), (one, 2), (one, 5), (two, 1), (two, 4)] :=
    ⟨by decide, by decide, by decide⟩
  obtain ⟨order, report, ran, -, only, tree, -, -, changes⟩ := (sortParagraphs_sorts node).1 rfl
  obtain ⟨outcome, kept⟩ := changes workspace "text" 3 (some "sorted") held
  rw [← only _ ascending] at tree
  exact ⟨rfl, isOther, held, ⟨report, ran, outcome, tree⟩, kept "text" (by decide),
    (sortParagraphs_sorts mark).2 isOther⟩

end Analysis

end ProseTree
