import ProseTree.Proofs.Analysis.Menu
import ProseTree.Proofs.Analysis.Regrouping
import ProseTree.Proofs.Node.Sharing
import ProseTree.Proofs.Segmentation.Shape

namespace ProseTree

/-! Where nodes come from: constructors, drafts, parsing, and the operations that come with a
tree.  All of them put nodes together from new ones and from shared ones. -/

variable {ledger : Node.Ledger} {node tree : Node} {children nodes : List Node} {kind : Kind}
  {text : Text}

namespace Node

theorem assembled_ofText (made : ofText kind text = .ok node) : node.Assembled ledger := by
  unfold ofText at made
  split at made
  · rename_i isLeaf
    obtain rfl := Except.ok.inj made
    exact .leaf isLeaf
  · contradiction

theorem assembled_ofChildren (each : ∀ child ∈ children, child.Assembled ledger)
    (made : ofChildren kind children = .ok node) : node.Assembled ledger := by
  unfold ofChildren at made
  split at made
  · contradiction
  · rename_i isComposite
    obtain rfl := Except.ok.inj made
    exact .composite (Bool.eq_false_iff.mpr isComposite) each

end Node

namespace Draft

mutual
theorem assembled_build : (draft : Draft) → {node : Node} → draft.build = .ok node →
    node.Assembled ledger
  | .leaf kind text, node, built => Node.assembled_ofText built
  | .composite kind drafts, node, built => by
      rw [build] at built
      split at built
      · contradiction
      · rename_i nodes builtAll
        exact Node.assembled_ofChildren (assembled_buildAll drafts builtAll) built

theorem assembled_buildAll : (drafts : List Draft) → {nodes : List Node} →
    buildAll drafts = .ok nodes → ∀ node ∈ nodes, node.Assembled ledger
  | [], nodes, built => by
      obtain rfl := Except.ok.inj built
      exact List.forall_mem_nil _
  | draft :: rest, nodes, built => by
      rw [buildAll] at built
      split at built
      · contradiction
      · rename_i first builtFirst
        split at built
        · contradiction
        · rename_i others builtRest
          obtain rfl := Except.ok.inj built
          exact List.forall_mem_cons.mpr
            ⟨assembled_build draft builtFirst, assembled_buildAll rest builtRest⟩
end

end Draft

namespace Segmentation.Chain

theorem isLeaf_kind_level (level : Level) : level.kind.isLeaf = false := by
  cases level <;> rfl

theorem assembled_parse (chain : Chain) (text : Text) : (chain.parse text).Assembled ledger := by
  induction chain generalizing text with
  | nil => exact .composite rfl (List.forall_mem_nil _)
  | cons level rest ih =>
      by_cases isLexeme : level = .lexeme
      · subst isLexeme
        rw [parse_lexeme]
        refine .composite rfl fun leaf member => ?_
        obtain ⟨kind, text, rfl, isKind, -⟩ := isLexemeLeaf_of_mem (Text.each_cut text) leaf member
        exact .leaf (by rcases isKind with rfl | rfl <;> rfl)
      · by_cases empty : rest = []
        · subst empty
          rw [parse_singleton isLexeme]
          exact .composite (isLeaf_kind_level level) (List.forall_mem_nil _)
        · rw [parse_cons isLexeme empty]
          refine .composite (isLeaf_kind_level level) (List.forall_mem_map.mpr fun piece _ => ?_)
          exact ih piece

end Segmentation.Chain

namespace Menu

open Analysis

variable {minimum : Nat} {operation : Operation} {report : Report} {selector : Text}

/-- The trees that reports come with: the children in another order, or fewer of the nodes that
are two steps or one step below. -/
theorem tree_cases (member : operation ∈ (builtIn minimum).operations)
    (ran : operation.run node = .ok report) (made : report.tree = some tree) :
    tree = .composite none .document ((orderParagraphs node).map Prod.fst) ∨
      ∃ least, tree = filterDocument least node ∨ tree = filterParagraph least node := by
  rw [operations_builtIn] at member
  simp only [List.mem_cons, List.not_mem_nil, or_false] at member
  rcases member with rfl | rfl | rfl | rfl | rfl
  · simp only [sortParagraphs] at ran
    split at ran
    · contradiction
    · obtain rfl := Except.ok.inj ran
      exact .inl (Option.some.inj made).symm
  · simp only [longestWord] at ran
    split at ran <;> obtain rfl := Except.ok.inj ran <;> contradiction
  · simp only [removeShortSentences] at ran
    split at ran
    · obtain rfl := Except.ok.inj ran
      exact .inr ⟨_, .inl (Option.some.inj made).symm⟩
    · obtain rfl := Except.ok.inj ran
      exact .inr ⟨_, .inr (Option.some.inj made).symm⟩
    · contradiction
  · simp only [identicalWords] at ran
    split at ran <;> obtain rfl := Except.ok.inj ran <;> contradiction
  · simp only [vowelsConsonants] at ran
    split at ran <;> obtain rfl := Except.ok.inj ran <;> contradiction

theorem assembled_filterParagraph (least : Nat)
    (each : ∀ child ∈ node.children, child.Shared ledger) :
    (filterParagraph least node).Assembled ledger :=
  .composite rfl fun sentence kept => .shared (each sentence (List.mem_filter.mp kept).1)

theorem assembled_tree (each : ∀ child ∈ node.children, child.Shared ledger)
    (ran : (builtIn minimum).execute selector node = .ok report) (made : report.tree = some tree) :
    tree.Assembled ledger := by
  unfold execute at ran
  split at ran
  · contradiction
  · rename_i operation chosen
    cases outcome : operation.run node with
    | error error =>
        rw [outcome] at ran
        contradiction
    | ok found =>
        rw [outcome] at ran
        obtain rfl := Except.ok.inj ran
        rcases tree_cases (mem_of_get chosen) outcome made with rfl | ⟨least, rfl | rfl⟩
        · exact .composite rfl fun child member =>
            .shared (each child ((orderParagraphs_perm node).subset member))
        · refine .composite rfl fun paragraph member => ?_
          obtain ⟨whole, isChild, rfl⟩ := List.mem_map.mp (List.mem_filter.mp member).1
          exact assembled_filterParagraph least (each whole isChild).of_mem_children
        · exact assembled_filterParagraph least each

end Menu

end ProseTree
