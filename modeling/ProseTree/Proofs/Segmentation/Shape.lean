import ProseTree.Proofs.Expression.Kept
import ProseTree.Proofs.Node.Walk
import ProseTree.Proofs.Segmentation.Paragraphs
import ProseTree.Proofs.Segmentation.Typesetting

namespace ProseTree

/-! The shape of the trees that chains build.

The nodes at a depth of the tree are what the levels from that depth on make of pieces of
the text, and a piece of a text that is not blank is not blank.  So all that is to be said
about a node is said about the root of a tree. -/

open Text

namespace Node

variable {node : Node} {depth : Nat}

/-- The nodes so many steps below a node. -/
def atDepth : Nat → Node → List Node
  | 0, node => [node]
  | depth + 1, node => node.children.flatMap (atDepth depth)

theorem atDepth_add (first second : Nat) (node : Node) :
    node.atDepth (first + second) = (node.atDepth first).flatMap (atDepth second) := by
  induction first generalizing node with
  | zero => simp [atDepth]
  | succ first ih =>
      rw [Nat.succ_add, atDepth, atDepth, List.flatMap_assoc]
      exact congrArg (node.children.flatMap ·) (funext ih)

theorem eq_of_mem_atDepth_leaf {id : Option NodeId} {kind : Kind} {text : Text}
    (member : node ∈ (leaf id kind text).atDepth depth) : node = leaf id kind text := by
  cases depth with
  | zero => exact List.mem_singleton.mp member
  | succ depth => contradiction

end Node

variable {text : Text}

namespace Segmentation

variable {level : Level} {chain rest : Chain} {node : Node} {segments : Segments} {depth : Nat}

/-- No cut and no reduction makes a text blank. -/
theorem blank_of_trimmedPieces_eq_nil (nothing : trimmedPieces (level.pieces text) = []) :
    Blank text := by
  have noInk : ink (level.pieces text).flatten = [] := by
    rw [← ink_trimmedPieces, nothing]
    rfl
  by_cases evaluates : level = .paragraph true
  · subst evaluates
    rw [Level.pieces, ink_splitSentences] at noInk
    exact Expression.blank_of_blank_reduce (blank_iff_ink_eq_nil.mpr noInk)
  · rw [ink_pieces evaluates] at noInk
    exact blank_iff_ink_eq_nil.mpr noInk

/-- A leaf of a lexeme is a word or punctuation, with text in it. -/
def IsLexemeLeaf (node : Node) : Prop :=
  ∃ kind text, node = .leaf none kind text ∧ (kind = .word ∨ kind = .punctuation) ∧ text ≠ []

theorem isLexemeLeaf_of_mem_gapLeaf {gap : Text} (member : node ∈ gapLeaf gap) :
    IsLexemeLeaf node := by
  unfold gapLeaf at member
  split at member
  · contradiction
  · rename_i inked
    refine ⟨.punctuation, gap, List.mem_singleton.mp member, .inr rfl, ?_⟩
    rintro rfl
    exact inked rfl

theorem isLexemeLeaf_of_mem {left : Text} (each : segments.Each (TakenBy word) left) :
    ∀ node ∈ lexemeLeaves segments, IsLexemeLeaf node := by
  induction segments generalizing left with
  | last gap => exact fun node => isLexemeLeaf_of_mem_gapLeaf
  | found gap occurrence rest ih =>
      obtain ⟨taken, later⟩ := each
      intro node member
      rcases List.mem_append.mp member with inFront | behind
      · exact isLexemeLeaf_of_mem_gapLeaf inFront
      · rcases List.mem_cons.mp behind with rfl | behind
        · exact ⟨.word, occurrence, rfl, .inl rfl, taken.nonempty⟩
        · exact ih later node behind

theorem lexemeLeaves_ne_nil (inked : ¬Blank text) : lexemeLeaves (text.cut word) ≠ [] := by
  intro none
  have kept := ink_lexemeLeaves (text.cut word)
  rw [none, join_cut] at kept
  exact inked (blank_iff_ink_eq_nil.mpr kept.symm)

namespace Chain

theorem beforeLexeme_eq_self (endless : .lexeme ∉ chain) : chain.beforeLexeme = chain := by
  refine List.takeWhile_eq_self_iff.mpr fun level member => decide_eq_true ?_
  rintro rfl
  exact endless member

theorem exists_drop_beforeLexeme (ends : .lexeme ∈ chain) :
    ∃ rest, chain.drop chain.beforeLexeme.length = .lexeme :: rest := by
  induction chain with
  | nil => contradiction
  | cons level rest ih =>
      by_cases isLexeme : level = .lexeme
      · subst isLexeme
        exact ⟨rest, rfl⟩
      · rw [beforeLexeme_cons isLexeme]
        exact ih (List.mem_of_ne_of_mem (Ne.symm isLexeme) ends)

theorem exists_parse_eq (level : Level) (rest : Chain) (text : Text) :
    ∃ children, parse (level :: rest) text = .composite none level.kind children := by
  cases rest <;> cases level <;> exact ⟨_, rfl⟩

theorem parse_singleton (cuts : level ≠ .lexeme) (text : Text) :
    parse [level] text = .composite none level.kind [] := by
  cases level <;> first | exact absurd rfl cuts | rfl

/-- The root has children, unless it is of the last level and that is no lexeme level. -/
theorem children_parse_ne_nil (inked : ¬Blank text) (goesOn : level = .lexeme ∨ rest ≠ []) :
    (parse (level :: rest) text).children ≠ [] := by
  by_cases isLexeme : level = .lexeme
  · subst isLexeme
    rw [parse_lexeme]
    exact lexemeLeaves_ne_nil inked
  · rw [parse_cons isLexeme (goesOn.resolve_left isLexeme)]
    intro none
    exact inked (blank_of_trimmedPieces_eq_nil (List.map_eq_nil_iff.mp none))

theorem exists_piece_of_mem_atDepth (nonempty : chain ≠ [])
    (within : depth ≤ chain.beforeLexeme.length) (member : node ∈ (chain.parse text).atDepth depth) :
    ∃ level rest piece, chain.drop depth = level :: rest ∧ node = parse (level :: rest) piece ∧
      (¬Blank text → ¬Blank piece) := by
  induction depth generalizing chain text with
  | zero =>
      obtain ⟨level, rest, rfl⟩ := List.exists_cons_of_ne_nil nonempty
      exact ⟨level, rest, text, rfl, List.mem_singleton.mp member, id⟩
  | succ depth ih =>
      obtain ⟨level, rest, rfl⟩ := List.exists_cons_of_ne_nil nonempty
      have cuts : level ≠ .lexeme := by
        rintro rfl
        contradiction
      by_cases empty : rest = []
      · subst empty
        rw [parse_singleton cuts] at member
        contradiction
      · rw [parse_cons cuts empty, Node.atDepth] at member
        obtain ⟨child, isChild, member⟩ := List.mem_flatMap.mp member
        obtain ⟨own, isPiece, rfl⟩ := List.mem_map.mp isChild
        rw [beforeLexeme_cons cuts, List.length_cons] at within
        obtain ⟨level, others, piece, behind, rfl, inked⟩ :=
          ih empty (Nat.le_of_succ_le_succ within) member
        exact ⟨level, others, piece, behind, rfl,
          fun _ => inked (inked_of_mem_trimmedPieces isPiece).1.not_blank⟩

theorem isLexemeLeaf_of_mem_children (ends : .lexeme ∈ chain)
    (member : node ∈ (chain.parse text).atDepth chain.beforeLexeme.length) :
    ∀ leaf ∈ node.children, IsLexemeLeaf leaf := by
  obtain ⟨level, rest, piece, behind, rfl, -⟩ :=
    exists_piece_of_mem_atDepth (List.ne_nil_of_mem ends) (Nat.le_refl _) member
  obtain ⟨others, atLexeme⟩ := exists_drop_beforeLexeme ends
  obtain ⟨rfl, -⟩ := List.cons.inj (behind.symm.trans atLexeme)
  rw [parse_lexeme]
  exact isLexemeLeaf_of_mem (each_cut piece)

/-- Below the first lexeme level are leaves only. -/
theorem isLexemeLeaf_of_mem_atDepth (nonempty : chain ≠ [])
    (below : chain.beforeLexeme.length < depth) (member : node ∈ (chain.parse text).atDepth depth) :
    IsLexemeLeaf node := by
  obtain ⟨further, rfl⟩ := Nat.exists_eq_add_of_lt below
  rw [Nat.add_assoc, Node.atDepth_add] at member
  obtain ⟨parent, isParent, member⟩ := List.mem_flatMap.mp member
  obtain ⟨level, rest, -, behind, -, -⟩ :=
    exists_piece_of_mem_atDepth nonempty (Nat.le_refl _) isParent
  have ends : .lexeme ∈ chain := by
    by_contra endless
    rw [beforeLexeme_eq_self endless, List.drop_length] at behind
    contradiction
  obtain ⟨child, isChild, member⟩ := List.mem_flatMap.mp member
  obtain ⟨kind, text, rfl, isLeaf⟩ := isLexemeLeaf_of_mem_children ends isParent child isChild
  rw [Node.eq_of_mem_atDepth_leaf member]
  exact ⟨kind, text, rfl, isLeaf⟩

/-- The levels behind a lexeme level have no effect. -/
theorem parse_append_lexeme (front others : Chain) (text : Text) :
    parse (front ++ .lexeme :: others) text = parse (front ++ [.lexeme]) text := by
  induction front generalizing text with
  | nil => rw [List.nil_append, List.nil_append, parse_lexeme, parse_lexeme]
  | cons level front ih =>
      rw [List.cons_append, List.cons_append]
      by_cases isLexeme : level = .lexeme
      · subst isLexeme
        rw [parse_lexeme, parse_lexeme]
      · rw [parse_cons isLexeme (by simp), parse_cons isLexeme (by simp)]
        exact congrArg _ (List.map_congr_left fun piece _ => ih piece)

theorem children_eq_nil_of_last (endless : .lexeme ∉ chain)
    (member : node ∈ (chain.parse text).atDepth (chain.length - 1)) : node.children = [] := by
  by_cases empty : chain = []
  · subst empty
    rw [List.mem_singleton.mp member]
    rfl
  · have within : chain.length - 1 ≤ chain.beforeLexeme.length := by
      rw [beforeLexeme_eq_self endless]
      exact Nat.sub_le _ _
    obtain ⟨level, rest, piece, behind, rfl, -⟩ := exists_piece_of_mem_atDepth empty within member
    have positive := List.length_pos_iff.mpr empty
    have length := congrArg List.length behind
    rw [List.length_drop, List.length_cons] at length
    obtain rfl : rest = [] := List.length_eq_zero_iff.mp (by omega)
    have isLevel : level ∈ chain := List.mem_of_mem_drop (behind ▸ List.mem_singleton_self level)
    have cuts : level ≠ .lexeme := by
      rintro rfl
      exact endless isLevel
    rw [parse_singleton cuts]
    rfl

/-- A composite without children in the tree of a text that is not blank is of the last level,
which is no lexeme level. -/
theorem last_of_children_eq_nil (nonempty : chain ≠ []) (inked : ¬Blank text)
    (member : node ∈ (chain.parse text).atDepth depth) (composite : node.isLeaf = false)
    (childless : node.children = []) : .lexeme ∉ chain ∧ depth + 1 = chain.length := by
  have within : depth ≤ chain.beforeLexeme.length := by
    by_contra below
    obtain ⟨kind, text, rfl, -⟩ :=
      isLexemeLeaf_of_mem_atDepth nonempty (Nat.lt_of_not_le below) member
    contradiction
  obtain ⟨level, rest, piece, behind, rfl, inkedPiece⟩ :=
    exists_piece_of_mem_atDepth nonempty within member
  have stops : level ≠ .lexeme ∧ rest = [] := by
    by_contra goesOn
    rw [not_and_or, not_not] at goesOn
    exact children_parse_ne_nil (inkedPiece inked) goesOn childless
  obtain ⟨cuts, rfl⟩ := stops
  have length := congrArg List.length behind
  rw [List.length_drop, List.length_singleton] at length
  refine ⟨fun ends => ?_, by omega⟩
  obtain ⟨others, atLexeme⟩ := exists_drop_beforeLexeme ends
  have inside := congrArg List.length atLexeme
  rw [List.length_drop, List.length_cons] at inside
  have same : depth = chain.beforeLexeme.length := by omega
  rw [← same, behind] at atLexeme
  exact cuts (List.cons.inj atLexeme).1

def constructGap (gap : Text) : Except Node.PayloadError (List Node) :=
  if gap.trim.isEmpty then .ok [] else [gap].mapM (Node.ofText .punctuation)

def constructLeaves : Segments → Except Node.PayloadError (List Node)
  | .last gap => constructGap gap
  | .found gap occurrence rest => do
      let front ← constructGap gap
      let leaf ← Node.ofText .word occurrence
      let behind ← constructLeaves rest
      return front ++ leaf :: behind

/-- The tree of a text as `parse` builds it, with every node made by its constructor, which
refuses a payload that the kind does not carry. -/
def construct : Chain → Text → Except Node.PayloadError Node
  | [], _ => Node.ofChildren .document []
  | .lexeme :: _, text => constructLeaves (text.cut word) >>= Node.ofChildren .lexeme
  | level :: [], _ => Node.ofChildren level.kind []
  | level :: next :: rest, text =>
      (trimmedPieces (level.pieces text)).mapM (construct (next :: rest)) >>=
        Node.ofChildren level.kind

theorem constructGap_eq_ok (gap : Text) : constructGap gap = .ok (gapLeaf gap) := by
  unfold constructGap gapLeaf
  split <;> rfl

theorem constructLeaves_eq_ok (segments : Segments) :
    constructLeaves segments = .ok (lexemeLeaves segments) := by
  induction segments with
  | last gap => exact constructGap_eq_ok gap
  | found gap occurrence rest ih =>
      rw [constructLeaves, constructGap_eq_ok, ih]
      rfl

theorem ofChildren_level (level : Level) (children : List Node) :
    Node.ofChildren level.kind children = .ok (.composite none level.kind children) := by
  cases level <;> rfl

theorem construct_lexeme (rest : Chain) (text : Text) : construct (.lexeme :: rest) text =
    constructLeaves (text.cut word) >>= Node.ofChildren .lexeme := by
  cases rest <;> rfl

theorem construct_cons (cuts : level ≠ .lexeme) (nonempty : rest ≠ []) (text : Text) :
    construct (level :: rest) text =
      (trimmedPieces (level.pieces text)).mapM rest.construct >>= Node.ofChildren level.kind := by
  cases rest with
  | nil => exact absurd rfl nonempty
  | cons next rest => cases level <;> first | exact absurd rfl cuts | rfl

theorem construct_eq_ok (chain : Chain) (text : Text) :
    chain.construct text = .ok (chain.parse text) := by
  induction chain generalizing text with
  | nil => rfl
  | cons level rest ih =>
      by_cases isLexeme : level = .lexeme
      · subst isLexeme
        rw [construct_lexeme, parse_lexeme, constructLeaves_eq_ok]
        rfl
      · by_cases empty : rest = []
        · subst empty
          rw [parse_singleton isLexeme]
          cases level <;> first | exact absurd rfl isLexeme | rfl
        · have built : construct rest = fun piece => pure (parse rest piece) := funext ih
          rw [construct_cons isLexeme empty, parse_cons isLexeme empty, built, List.mapM_pure]
          exact ofChildren_level level _

/-- The tree that a chain builds.  No constructor refuses a node.  Down to the first lexeme
level, every node is a composite of its level's kind; below a lexeme stand words and punctuation
with text in them, whatever other levels are behind; where no lexeme level comes, the nodes of
the last level have no children.  All other composites have some, when the text is not blank. -/
theorem parse_shape (chain : Chain) (text : Text) :
    chain.construct text = .ok (chain.parse text) ∧
    (chain = [] → chain.parse text = .composite none .document []) ∧
    (∀ depth level, chain[depth]? = some level → depth ≤ chain.beforeLexeme.length →
      ∀ node ∈ (chain.parse text).atDepth depth,
        ∃ children, node = .composite none level.kind children) ∧
    (.lexeme ∈ chain → ∀ node ∈ (chain.parse text).atDepth chain.beforeLexeme.length,
      ∀ leaf ∈ node.children, IsLexemeLeaf leaf) ∧
    (∀ front others, chain = front ++ .lexeme :: others →
      chain.parse text = parse (front ++ [.lexeme]) text) ∧
    (.lexeme ∉ chain → ∀ node ∈ (chain.parse text).atDepth (chain.length - 1),
      node.children = []) ∧
    (chain ≠ [] → ¬Blank text → ∀ depth, ∀ node ∈ (chain.parse text).atDepth depth,
      node.isLeaf = false → node.children = [] → .lexeme ∉ chain ∧ depth + 1 = chain.length) := by
  refine ⟨construct_eq_ok chain text, ?_, ?_, ?_, ?_, ?_, ?_⟩
  · rintro rfl
    rfl
  · intro depth level isLevel within node member
    have nonempty : chain ≠ [] := by
      rintro rfl
      contradiction
    obtain ⟨own, rest, piece, behind, rfl, -⟩ := exists_piece_of_mem_atDepth nonempty within member
    have head := @List.head?_drop _ chain depth
    rw [behind, isLevel] at head
    obtain rfl := Option.some.inj head
    exact exists_parse_eq own rest piece
  · exact fun ends node member => isLexemeLeaf_of_mem_children ends member
  · rintro front others rfl
    exact parse_append_lexeme front others text
  · exact fun endless node member => children_eq_nil_of_last endless member
  · exact fun nonempty inked depth node member composite childless =>
      last_of_children_eq_nil nonempty inked member composite childless

end Chain

/-- Down to the first lexeme level, the levels of the tree are the levels of the chain. -/
theorem Chain.layered_parse (ends : .lexeme ∈ chain) (text : Text) :
    (chain.parse text).Layered (kinds chain.beforeLexeme ++ [.lexeme]) := by
  induction chain generalizing text with
  | nil => contradiction
  | cons level rest ih =>
      by_cases isLexeme : level = .lexeme
      · subst isLexeme
        rw [parse_lexeme]
        refine Node.layered_composite.mpr fun leaf isLeaf => ?_
        obtain ⟨kind, text, rfl, isKind, -⟩ := isLexemeLeaf_of_mem (each_cut text) leaf isLeaf
        exact ⟨none, kind, text, rfl, by rcases isKind with rfl | rfl <;> rfl⟩
      · have later : .lexeme ∈ rest := List.mem_of_ne_of_mem (Ne.symm isLexeme) ends
        rw [parse_cons isLexeme (List.ne_nil_of_mem later), beforeLexeme_cons isLexeme]
        refine Node.layered_composite.mpr fun child isChild => ?_
        obtain ⟨piece, -, rfl⟩ := List.mem_map.mp isChild
        exact ih later piece

theorem isDocument_parse_full (evaluates : Bool) (text : Text) :
    ((Chain.full evaluates).parse text).IsDocument := by
  have ends : .lexeme ∈ Chain.full evaluates := .tail _ (.tail _ (.tail _ (.head _)))
  refine ⟨Chain.layered_parse ends text, fun paragraph member => ?_⟩
  rw [Chain.children_parse_full] at member
  obtain ⟨piece, isPiece, rfl⟩ := List.mem_map.mp member
  exact Chain.children_parse_ne_nil (inked_of_mem_trimmedPieces isPiece).1.not_blank
    (.inr (List.cons_ne_nil _ _))

theorem sentences_parse_full (evaluates : Bool) (text : Text) :
    ((Chain.full evaluates).parse text).sentences =
      (paragraphSeparator.pieces text).flatMap fun piece =>
        (trimmedPieces (splitSentences (calculated evaluates piece))).map
          (Chain.parse [.sentence, .lexeme]) := by
  rw [(isDocument_parse_full evaluates text).sentences_eq, Node.sentenceGroups,
    Chain.children_parse_full, List.map_map, ← List.flatMap_def]
  apply List.flatMap_congr
  intro piece _
  rw [Function.comp_apply, parse_paragraph_calculated]
  rfl

end Segmentation

end ProseTree
