import Mathlib.Data.List.Basic
import ProseTree.Analysis.Sentences

namespace ProseTree.Node

/-! The descendants of a node, child by child, and trees in which every level has one kind. -/

variable {node : Node} {kind : Kind} {children : List Node}

theorem preorderAll_eq (nodes : List Node) :
    preorderAll nodes = nodes.flatMap fun node => node :: node.descendants := by
  induction nodes with
  | nil => rfl
  | cons node rest ih => rw [preorderAll, ih, List.flatMap_cons]

theorem descendants_eq (node : Node) : node.descendants = preorderAll node.children := by
  cases node <;> rfl

theorem descendantsOfKind_composite (id : Option NodeId) (own kind : Kind) (children : List Node) :
    (composite id own children).descendantsOfKind kind =
      children.flatMap fun child => [child].filter (·.kind == kind) ++ child.descendantsOfKind kind := by
  rw [descendantsOfKind, descendants, preorderAll_eq, List.filter_flatMap]
  exact congrArg (children.flatMap ·) (funext fun child => List.filter_append [child] child.descendants)

/-- Nothing of a kind stands below a node when no child is of it, nor anything below one. -/
theorem descendantsOfKind_eq_nil
    (none : ∀ child ∈ node.children, child.kind ≠ kind ∧ child.descendantsOfKind kind = []) :
    node.descendantsOfKind kind = [] := by
  cases node with
  | leaf id own text => rfl
  | composite id own children =>
      rw [descendantsOfKind_composite, List.flatMap_eq_nil_iff]
      intro child member
      obtain ⟨other, nothing⟩ := none child member
      simp [other, nothing]

/-- The descendants of a kind are the children, when all are of it and nothing below them is. -/
theorem descendantsOfKind_eq_children
    (each : ∀ child ∈ node.children, child.kind = kind ∧ child.descendantsOfKind kind = []) :
    node.descendantsOfKind kind = node.children := by
  cases node with
  | leaf id own text => rfl
  | composite id own children =>
      rw [descendantsOfKind_composite]
      change children.flatMap _ = children
      induction children with
      | nil => rfl
      | cons child rest ih =>
          obtain ⟨⟨same, nothing⟩, others⟩ := List.forall_mem_cons.mp each
          rw [List.flatMap_cons, ih others, nothing]
          simp [same]

/-- Children that are of another kind only hand on what is below them. -/
theorem descendantsOfKind_eq_flatMap (other : ∀ child ∈ node.children, child.kind ≠ kind) :
    node.descendantsOfKind kind = node.children.flatMap (·.descendantsOfKind kind) := by
  cases node with
  | leaf id own text => rfl
  | composite id own children =>
      rw [descendantsOfKind_composite]
      apply List.flatMap_congr
      intro child member
      simp [other child member]

mutual
theorem wellFormed_of_mem_descendants : (node : Node) → node.WellFormed →
    ∀ other ∈ node.descendants, other.WellFormed
  | .leaf .., _ => List.forall_mem_nil _
  | .composite _ _ children, wellFormed => wellFormed_of_mem_preorderAll children wellFormed.2

theorem wellFormed_of_mem_preorderAll : (nodes : List Node) → AllWellFormed nodes →
    ∀ other ∈ preorderAll nodes, other.WellFormed
  | [], _ => List.forall_mem_nil _
  | node :: rest, wellFormed => by
      rw [preorderAll]
      exact List.forall_mem_cons.mpr ⟨wellFormed.1, List.forall_mem_append.mpr
        ⟨wellFormed_of_mem_descendants node wellFormed.1,
          wellFormed_of_mem_preorderAll rest wellFormed.2⟩⟩
end

/-- Composites of the kinds in order, each the parent of the next, and leaves below the last. -/
def Layered : List Kind → Node → Prop
  | [], node => ∃ id kind text, node = .leaf id kind text ∧ kind.isLeaf = true
  | kind :: kinds, node =>
      ∃ id children, node = .composite id kind children ∧ ∀ child ∈ children, child.Layered kinds

variable {document : Node} {kinds : List Kind} {id : Option NodeId}

theorem layered_composite : (composite id kind children).Layered (kind :: kinds) ↔
    ∀ child ∈ children, child.Layered kinds := by
  constructor
  · intro ⟨_, _, same, each⟩
    obtain ⟨-, -, rfl⟩ := composite.inj same
    exact each
  · exact fun each => ⟨id, children, rfl, each⟩

theorem Layered.of_mem_children (layered : node.Layered (kind :: kinds)) :
    ∀ child ∈ node.children, child.Layered kinds := by
  obtain ⟨id, children, rfl, each⟩ := layered
  exact each

theorem Layered.kind_eq (layered : node.Layered (kind :: kinds)) : node.kind = kind := by
  obtain ⟨id, children, rfl, -⟩ := layered
  rfl

/-- A composite kind that is none of the levels is not the kind of the tree. -/
theorem Layered.kind_ne (layered : node.Layered kinds) (absent : kind ∉ kinds)
    (composite : kind.isLeaf = false) : node.kind ≠ kind := by
  rintro rfl
  cases kinds with
  | nil =>
      obtain ⟨id, kind, text, rfl, isLeaf⟩ := layered
      exact Bool.eq_false_iff.mp composite isLeaf
  | cons own kinds => exact absent (layered.kind_eq ▸ List.mem_cons_self)

theorem Layered.descendantsOfKind_eq_nil (layered : node.Layered kinds)
    (absent : kind ∉ kinds.tail) (composite : kind.isLeaf = false) :
    node.descendantsOfKind kind = [] := by
  induction kinds generalizing node with
  | nil =>
      obtain ⟨id, kind, text, rfl, -⟩ := layered
      rfl
  | cons own kinds ih =>
      apply Node.descendantsOfKind_eq_nil
      intro child member
      have below := layered.of_mem_children child member
      exact ⟨below.kind_ne absent composite,
        ih below fun deeper => absent (List.mem_of_mem_tail deeper)⟩

theorem unmarkedAll_eq_map (nodes : List Node) : unmarkedAll nodes = nodes.map unmarked := by
  induction nodes with
  | nil => rfl
  | cons node rest ih => rw [unmarkedAll, ih, List.map_cons]

theorem Layered.of_unmarked (layered : node.unmarked.Layered kinds) : node.Layered kinds := by
  induction kinds generalizing node with
  | nil =>
      obtain ⟨id, kind, text, same, isLeaf⟩ := layered
      cases node with
      | leaf own ownKind ownText =>
          obtain ⟨-, rfl, -⟩ := leaf.inj same
          exact ⟨own, ownKind, ownText, rfl, isLeaf⟩
      | composite own ownKind children => contradiction
  | cons kind kinds ih =>
      cases node with
      | leaf own ownKind ownText =>
          obtain ⟨_, _, same, -⟩ := layered
          contradiction
      | composite own ownKind children =>
          obtain rfl : ownKind = kind := layered.kind_eq
          rw [unmarked, layered_composite, unmarkedAll_eq_map] at layered
          exact layered_composite.mpr fun child member =>
            ih (layered child.unmarked (List.mem_map_of_mem member))

/-- A document of paragraphs of sentences of lexemes of leaves.  No paragraph is empty. -/
structure IsDocument (node : Node) : Prop where
  layered : node.Layered [.document, .paragraph, .sentence, .lexeme]
  inhabited : ∀ paragraph ∈ node.children, paragraph.children ≠ []

theorem IsDocument.of_unmarked (isDocument : node.unmarked.IsDocument) : node.IsDocument := by
  refine ⟨isDocument.layered.of_unmarked, fun paragraph member empty => ?_⟩
  cases node with
  | leaf id kind text => contradiction
  | composite id kind children =>
      have below : paragraph.unmarked ∈ (composite id kind children).unmarked.children := by
        rw [unmarked, unmarkedAll_eq_map]
        exact List.mem_map_of_mem member
      apply isDocument.inhabited paragraph.unmarked below
      cases paragraph with
      | leaf id kind text => rfl
      | composite id kind sentences =>
          obtain rfl : sentences = [] := empty
          rfl

/-- The children of a document's children, paragraph by paragraph. -/
def sentenceGroups (document : Node) : List (List Node) := document.children.map Node.children

theorem IsDocument.ne_nil_of_mem_sentenceGroups (isDocument : document.IsDocument) :
    ∀ group ∈ document.sentenceGroups, group ≠ [] :=
  List.forall_mem_map.mpr isDocument.inhabited

theorem IsDocument.sentences_eq (isDocument : document.IsDocument) :
    document.sentences = document.sentenceGroups.flatten := by
  have isOther : document.kind ≠ .sentence := isDocument.layered.kind_eq ▸ nofun
  have paragraphs := isDocument.layered.of_mem_children
  rw [sentences, if_neg isOther, descendantsOfKind_eq_flatMap, sentenceGroups, ← List.flatMap_def]
  · apply List.flatMap_congr
    intro paragraph isParagraph
    apply descendantsOfKind_eq_children
    intro sentence isSentence
    have layered := (paragraphs paragraph isParagraph).of_mem_children sentence isSentence
    exact ⟨layered.kind_eq, layered.descendantsOfKind_eq_nil (by decide) rfl⟩
  · exact fun paragraph member => (paragraphs paragraph member).kind_eq ▸ nofun

end ProseTree.Node
