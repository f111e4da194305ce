import Mathlib.Data.List.Basic
import ProseTree.Proofs.Node.Walk

namespace ProseTree

/-! What the operations that come with a tree do to the paragraphs of a document: they put
them in another order, or leave sentences out.  The sentences themselves are the same nodes.

What leaving out short sentences leaves depends only on the children of the paragraphs, and the
paragraphs around them are new.  So one minimum after another leaves what the greater one
leaves. -/

/-- The tree that comes with the report of an operation. -/
def Operation.tree? (operation : Operation) (node : Node) : Option Node :=
  (operation.run node).toOption.bind Report.tree

namespace Analysis

open Node

variable {document start current : Node} {minimum : Nat} {keeps : Node → Bool}
  {groups others : List (List Node)}

/-- The groups without the sentences that are not kept, and without groups that get empty. -/
def keptGroups (keeps : Node → Bool) (groups : List (List Node)) : List (List Node) :=
  (groups.map (List.filter keeps)).filter (!·.isEmpty)

theorem keptGroups_eq_self (inhabited : ∀ group ∈ groups, group ≠ []) :
    keptGroups (fun _ => true) groups = groups := by
  have whole : groups.map (List.filter fun _ => true) = groups :=
    List.map_id'' (fun group => List.filter_true group) groups
  rw [keptGroups, whole, List.filter_eq_self]
  simpa using inhabited

theorem flatten_keptGroups (keeps : Node → Bool) (groups : List (List Node)) :
    (keptGroups keeps groups).flatten = groups.flatten.filter keeps := by
  rw [keptGroups, List.flatten_filter_not_isEmpty, List.filter_flatten]

/-- Which groups get empty can be told before. -/
theorem keptGroups_eq (keeps : Node → Bool) (groups : List (List Node)) :
    keptGroups keeps groups =
      (groups.filter fun group => !(group.filter keeps).isEmpty).map (List.filter keeps) := by
  rw [keptGroups, List.filter_map]
  rfl

theorem keptGroups_keptGroups (more keeps : Node → Bool) (groups : List (List Node)) :
    keptGroups more (keptGroups keeps groups) =
      keptGroups (fun sentence => more sentence && keeps sentence) groups := by
  have stays (group : List Node) :
      (!(group.filter more).isEmpty && !group.isEmpty) = !(group.filter more).isEmpty := by
    cases group <;> simp
  calc keptGroups more (keptGroups keeps groups)
      = ((keptGroups keeps groups).filter fun group => !(group.filter more).isEmpty).map
          (List.filter more) := keptGroups_eq more _
    _ = ((groups.map (List.filter keeps)).filter fun group => !(group.filter more).isEmpty).map
          (List.filter more) := by
        rw [keptGroups, List.filter_filter, funext stays]
    _ = keptGroups more (groups.map (List.filter keeps)) := (keptGroups_eq more _).symm
    _ = keptGroups (fun sentence => more sentence && keeps sentence) groups := by
        rw [keptGroups, List.map_map]
        exact congrArg _ (List.map_congr_left fun group _ => List.filter_filter)

theorem keptGroups_perm (same : groups.Perm others) :
    (keptGroups keeps groups).Perm (keptGroups keeps others) :=
  (same.map _).filter _

theorem isDocument_filterDocument (isDocument : document.IsDocument) :
    (filterDocument minimum document).IsDocument := by
  refine ⟨layered_composite.mpr fun paragraph member => ?_, fun paragraph member => ?_⟩
  · obtain ⟨whole, isParagraph, rfl⟩ := List.mem_map.mp (List.mem_filter.mp member).1
    have layered := isDocument.layered.of_mem_children whole isParagraph
    exact layered_composite.mpr fun sentence kept =>
      layered.of_mem_children sentence (List.mem_filter.mp kept).1
  · simpa using (List.mem_filter.mp member).2

/-- Only the children of the paragraphs count. -/
theorem filterDocument_eq (minimum : Nat) (document : Node) :
    filterDocument minimum document = .composite none .document
      ((keptGroups (fun sentence => minimum ≤ sentence.wordCount) document.sentenceGroups).map
        (.composite none .paragraph)) := by
  have paragraphs : document.children.map (filterParagraph minimum) =
      (document.sentenceGroups.map (List.filter fun sentence => minimum ≤ sentence.wordCount)).map
        (.composite none .paragraph) := by
    rw [sentenceGroups, List.map_map, List.map_map]
    rfl
  rw [filterDocument, paragraphs, List.filter_map]
  rfl

theorem sentenceGroups_filterDocument (minimum : Nat) (document : Node) :
    (filterDocument minimum document).sentenceGroups =
      keptGroups (fun sentence => minimum ≤ sentence.wordCount) document.sentenceGroups := by
  rw [filterDocument_eq, sentenceGroups, Node.children, List.map_map]
  exact List.map_id _

theorem orderParagraphs_perm (document : Node) :
    ((orderParagraphs document).map Prod.fst).Perm document.children := by
  have placed := (List.mergeSort_perm (document.children.zipIdx 1) fun left right =>
    left.1.children.length ≤ right.1.children.length).map Prod.fst
  rwa [List.zipIdx_map_fst] at placed

/-- The paragraphs of a document in any order make a document. -/
theorem isDocument_of_perm {id : Option NodeId} {children : List Node}
    (isDocument : document.IsDocument) (same : children.Perm document.children) :
    (composite id .document children).IsDocument :=
  ⟨layered_composite.mpr fun paragraph member =>
      isDocument.layered.of_mem_children paragraph (same.subset member),
    fun paragraph member => isDocument.inhabited paragraph (same.subset member)⟩

/-- A document with those sentences of another that are kept, together as they were there. -/
structure Regroups (keeps : Node → Bool) (start current : Node) : Prop where
  isDocument : current.IsDocument
  groups : current.sentenceGroups.Perm (keptGroups keeps start.sentenceGroups)

namespace Regroups

theorem refl (isDocument : start.IsDocument) : Regroups (fun _ => true) start start where
  isDocument := isDocument
  groups := by rw [keptGroups_eq_self isDocument.ne_nil_of_mem_sentenceGroups]

theorem sorted (regroups : Regroups keeps start current) : Regroups keeps start
    (.composite none .document ((orderParagraphs current).map Prod.fst)) where
  isDocument := isDocument_of_perm regroups.isDocument (orderParagraphs_perm current)
  groups := ((orderParagraphs_perm current).map Node.children).trans regroups.groups

theorem shortened (regroups : Regroups keeps start current) (minimum : Nat) :
    Regroups (fun sentence => minimum ≤ sentence.wordCount && keeps sentence) start
      (filterDocument minimum current) where
  isDocument := isDocument_filterDocument regroups.isDocument
  groups := by
    rw [sentenceGroups_filterDocument, ← keptGroups_keptGroups]
    exact keptGroups_perm regroups.groups

theorem sentences (regroups : Regroups keeps start current) (isDocument : start.IsDocument) :
    current.sentences.Perm (start.sentences.filter keeps) := by
  rw [regroups.isDocument.sentences_eq, isDocument.sentences_eq, ← flatten_keptGroups]
  exact regroups.groups.flatten

end Regroups

variable {held tree : Node} {first second : Nat}

/-- A document of new paragraphs around the grandchildren of another: those with so many words
below them, in their order and grouping, without the groups that get empty. -/
structure Shortened (minimum : Nat) (document tree : Node) : Prop where
  isDocument : tree.kind = .document
  isParagraph : ∀ paragraph ∈ tree.children, paragraph.kind = .paragraph ∧ paragraph.id = none
  inhabited : ∀ paragraph ∈ tree.children, paragraph.children ≠ []
  groups : tree.sentenceGroups = keptGroups
    (fun sentence => minimum ≤ (sentence.descendantsOfKind .word).length) document.sentenceGroups

theorem tree?_removeShortSentences (isDocument : document.kind = .document)
    (positive : 1 ≤ minimum) :
    (removeShortSentences minimum).tree? document = some (filterDocument minimum document) := by
  have least : effectiveMinimum minimum = minimum := if_neg (Nat.ne_of_gt positive)
  simp only [Operation.tree?, removeShortSentences, isDocument, least]
  rfl

theorem shortened_filterDocument (minimum : Nat) (document : Node) :
    Shortened minimum document (filterDocument minimum document) where
  isDocument := rfl
  isParagraph paragraph member := by
    obtain ⟨whole, -, rfl⟩ := List.mem_map.mp (List.mem_filter.mp member).1
    exact ⟨rfl, rfl⟩
  inhabited paragraph member := by simpa using (List.mem_filter.mp member).2
  groups := sentenceGroups_filterDocument minimum document

/-- A minimum after another leaves what the greater one leaves. -/
theorem filterDocument_max (same : held.sentenceGroups =
      (filterDocument second document).sentenceGroups) :
    filterDocument first held = filterDocument (max first second) document := by
  have both : (fun sentence : Node =>
        decide (first ≤ sentence.wordCount) && decide (second ≤ sentence.wordCount)) =
      fun sentence => decide (max first second ≤ sentence.wordCount) := by
    funext sentence
    simp only [Nat.max_le, Bool.decide_and]
  rw [filterDocument_eq, filterDocument_eq, same, sentenceGroups_filterDocument,
    keptGroups_keptGroups, both]

theorem tree?_of_sentenceGroups (isDocument : held.kind = .document) (positive : 1 ≤ first)
    (same : held.sentenceGroups = (filterDocument second document).sentenceGroups) :
    (removeShortSentences first).tree? held =
      some (filterDocument (max first second) document) := by
  rw [tree?_removeShortSentences isDocument positive, filterDocument_max same]

/-- Leaving out the sentences with fewer words than one minimum, and then those with fewer than
another, leaves what the greater minimum leaves, whatever identities the new paragraphs get in
between.  So leaving them out again changes nothing, and either minimum may come first.  Each
time, exactly the grandchildren with enough words stay, the same nodes in the same order and
together as before, and no paragraph is empty. -/
theorem removeShortSentences_composes (isDocument : document.kind = .document)
    (positive : 1 ≤ first) (positiveToo : 1 ≤ second) :
    ∃ tree shorter,
      (removeShortSentences second).tree? document = some tree ∧
      Shortened second document tree ∧
      (removeShortSentences first).tree? tree = some shorter ∧
      Shortened first tree shorter ∧
      (removeShortSentences (max first second)).tree? document = some shorter ∧
      (∀ held, held.kind = .document → held.sentenceGroups = tree.sentenceGroups →
        (removeShortSentences first).tree? held = some shorter) ∧
      (removeShortSentences second).tree? tree = some tree ∧
      ∃ other, (removeShortSentences first).tree? document = some other ∧
        (removeShortSentences second).tree? other = some shorter := by
  have greater : 1 ≤ max first second := Nat.le_trans positive (Nat.le_max_left first second)
  refine ⟨filterDocument second document, filterDocument (max first second) document,
    tree?_removeShortSentences isDocument positiveToo, shortened_filterDocument second document,
    tree?_of_sentenceGroups rfl positive rfl, ?_, tree?_removeShortSentences isDocument greater,
    fun held isDocument => tree?_of_sentenceGroups isDocument positive, ?_,
    filterDocument first document, tree?_removeShortSentences isDocument positive, ?_⟩
  · rw [← filterDocument_max rfl]
    exact shortened_filterDocument first _
  · rw [tree?_of_sentenceGroups rfl positiveToo rfl, Nat.max_self]
  · rw [tree?_of_sentenceGroups rfl positiveToo rfl, Nat.max_comm]

/-- A sentence that stands in two paragraphs stays in both, with the words of the sentence in it;
a paragraph goes when its last sentence goes. -/
theorem removeShortSentences_composes_nested :
    let word := Node.leaf (some 0) .word ['a']
    let short := Node.composite (some 1) .sentence [word]
    let middle := Node.composite (some 2) .sentence [word, .leaf (some 3) .symbol ['+'], short]
    let long := Node.composite (some 4) .sentence [middle, short]
    let document := Node.composite none .document [.composite (some 5) .paragraph [short, long],
      .composite (some 6) .paragraph [middle], .leaf (some 7) .punctuation [],
      .composite (some 8) .lexeme [long, middle, short]]
    document.kind = .document ∧ 1 ≤ 3 ∧ 1 ≤ 2 ∧
    ∃ tree shorter,
      (removeShortSentences 2).tree? document = some tree ∧
      tree.sentenceGroups = [[long], [middle], [long, middle]] ∧
      (removeShortSentences 3).tree? tree = some shorter ∧
      shorter.sentenceGroups = [[long], [long]] ∧
      (removeShortSentences 3).tree? document = some shorter ∧
      (removeShortSentences 3).tree? (tree.withId (some 9)) = some shorter := by
  intro word short middle long document
  have positive : 1 ≤ 3 := by decide
  have positiveToo : 1 ≤ 2 := by decide
  obtain ⟨tree, shorter, once, shortened, twice, shortenedAgain, direct, held, -, -⟩ :=
    @removeShortSentences_composes document 3 2 rfl positive positiveToo
  have groups : tree.sentenceGroups = [[long], [middle], [long, middle]] := by
    rw [shortened.groups]
    decide
  have groupsAgain : shorter.sentenceGroups = [[long], [long]] := by
    rw [shortenedAgain.groups, groups]
    decide
  have isDocument := shortened.isDocument
  refine ⟨rfl, positive, positiveToo, tree, shorter, once, groups, twice, groupsAgain, direct,
    held _ ?_ ?_⟩
  · cases tree <;> exact isDocument
  · cases tree <;> rfl

end Analysis

end ProseTree
