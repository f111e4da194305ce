import Mathlib.Data.List.Basic
import ProseTree.Node.Walk
import ProseTree.Proofs.Text.Blank

namespace ProseTree

/-! The text of a tree: it depends on the content of the tree only, as do the labels of its nodes,
it has the ink of the leaves, and the text of a composite is put together from the texts of its
children. -/

namespace Node

theorem kind_unmarked (node : Node) : node.unmarked.kind = node.kind := by
  cases node <;> rfl

theorem length_unmarkedAll (nodes : List Node) : (unmarkedAll nodes).length = nodes.length := by
  induction nodes with
  | nil => rfl
  | cons node rest ih => rw [unmarkedAll, List.length_cons, List.length_cons, ih]

mutual
theorem reconstruct_unmarked : (node : Node) → node.unmarked.reconstruct = node.reconstruct
  | .leaf _ _ _ => rfl
  | .composite _ _ [] => rfl
  | .composite _ kind (first :: rest) => by
      rw [unmarked, unmarkedAll, reconstruct, reconstruct, reconstruct_unmarked first,
        reconstructAfter_unmarkedAll kind rest]

theorem reconstructAfter_unmarkedAll (parent : Kind) : (nodes : List Node) →
    reconstructAfter parent (unmarkedAll nodes) = reconstructAfter parent nodes
  | [] => rfl
  | child :: rest => by
      rw [unmarkedAll, reconstructAfter, reconstructAfter, kind_unmarked,
        reconstruct_unmarked child, reconstructAfter_unmarkedAll parent rest]
end

theorem label_unmarked (node : Node) : node.unmarked.label = node.label := by
  rw [label, label, kind_unmarked, reconstruct_unmarked]
  cases node with
  | leaf id kind text => rfl
  | composite id kind children =>
      rw [unmarked, Node.children, Node.children, length_unmarkedAll]

mutual
theorem labelled_unmarked : (node : Node) → node.unmarked.labelled = node.labelled
  | .leaf _ _ _ => rfl
  | .composite id kind children => by
      have labels := label_unmarked (.composite id kind children)
      rw [unmarked] at labels
      rw [unmarked, labelled, labelled, labels, labelledAll_unmarkedAll children]

theorem labelledAll_unmarkedAll : (nodes : List Node) →
    labelledAll (unmarkedAll nodes) = labelledAll nodes
  | [] => rfl
  | node :: rest => by
      rw [unmarkedAll, labelledAll, labelledAll, labelled_unmarked node,
        labelledAll_unmarkedAll rest]
end

mutual
/-- The texts of the leaves in document order. -/
def leafTexts : Node → List Text
  | .leaf _ _ text => [text]
  | .composite _ _ children => leafTextsAll children

def leafTextsAll : List Node → List Text
  | [] => []
  | node :: rest => node.leafTexts ++ leafTextsAll rest
end

theorem leafTextsAll_eq (nodes : List Node) : leafTextsAll nodes = nodes.flatMap leafTexts := by
  induction nodes with
  | nil => rfl
  | cons node rest ih => simp [leafTextsAll, ih]

theorem ink_separatorBefore (parent next : Kind) :
    Text.ink (parent.separatorBefore next).toList = [] := by
  cases parent <;> cases next <;> decide

mutual
/-- Rebuilding a text adds nothing but white space to the leaves. -/
theorem ink_reconstruct : (node : Node) →
    Text.ink node.reconstruct = Text.ink node.leafTexts.flatten
  | .leaf _ _ text => by simp [reconstruct, leafTexts]
  | .composite _ _ [] => by simp [reconstruct, leafTexts, leafTextsAll]
  | .composite _ kind (first :: rest) => by
      simp only [reconstruct, leafTexts, leafTextsAll, Text.ink_append, List.flatten_append]
      rw [ink_reconstruct first, ink_reconstructAfter kind rest]

theorem ink_reconstructAfter (parent : Kind) : (nodes : List Node) →
    Text.ink (reconstructAfter parent nodes) = Text.ink (leafTextsAll nodes).flatten
  | [] => rfl
  | child :: rest => by
      simp only [reconstructAfter, leafTextsAll, Text.ink_append, List.flatten_append]
      rw [ink_separatorBefore, ink_reconstruct child, ink_reconstructAfter parent rest,
        List.nil_append]
end

variable {id : Option NodeId} {parent : Kind} {separator : Char}

theorem reconstruct_of_no_separator (none : ∀ next, parent.separatorBefore next = none)
    (children : List Node) :
    (composite id parent children).reconstruct = (children.map reconstruct).flatten := by
  have after : ∀ nodes, reconstructAfter parent nodes = (nodes.map reconstruct).flatten := by
    intro nodes
    induction nodes with
    | nil => rfl
    | cons node rest ih => simp [reconstructAfter, none, ih]
  cases children with
  | nil => rfl
  | cons first rest => rw [reconstruct, after, List.map_cons, List.flatten_cons]

theorem reconstruct_of_separator {children : List Node}
    (each : ∀ child ∈ children, parent.separatorBefore child.kind = some separator) :
    (composite id parent children).reconstruct =
      [separator].intercalate (children.map reconstruct) := by
  have after : ∀ (first : Text) (nodes : List Node),
      (∀ node ∈ nodes, parent.separatorBefore node.kind = some separator) →
      first ++ reconstructAfter parent nodes =
        [separator].intercalate (first :: nodes.map reconstruct) := by
    intro first nodes each
    induction nodes generalizing first with
    | nil => simp [reconstructAfter]
    | cons node rest ih =>
        obtain ⟨own, others⟩ := List.forall_mem_cons.mp each
        rw [reconstructAfter, own, List.map_cons, List.intercalate_cons_cons, ← ih _ others]
        simp
  cases children with
  | nil => rfl
  | cons first rest =>
      rw [reconstruct, after _ _ (List.forall_mem_cons.mp each).2, List.map_cons]

end Node

end ProseTree
