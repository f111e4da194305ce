import ProseTree.Proofs.Node.Address
import ProseTree.Rendering.Format

namespace ProseTree

/-! Reading an outline.

Every node has a line of its own, in document order, and what stands before the icon of a line
says how deep the node stands and which of the nodes on the way to it are last children.  Labels
keep to their lines, so they cannot be taken for structure: the outline tells the shape of the
tree and the kind of every node. -/

open Node hiding id kind

namespace Outline

variable {root node : Node} {width depth : Nat} {address : Address}

/-- For each node on the way to an address, whether no sibling comes after it. -/
def lastsTo (root : Node) (address : Address) : List Bool :=
  (List.range address.length).map fun passed => !root.hasLater (address.take (passed + 1))

theorem lastsTo_cons {child : Node} {index : Nat} (here : node.children[index]? = some child) :
    lastsTo node (index :: address) =
      (!decide (index + 1 < node.children.length)) :: lastsTo child address := by
  rw [lastsTo, List.length_cons, List.range_succ_eq_map, List.map_cons, List.map_map]
  refine congrArg _ (List.map_congr_left fun passed within => ?_)
  have nonempty : address.take (passed + 1) ≠ [] := by
    intro empty
    rw [List.take_eq_nil_iff] at empty
    rcases empty with zero | rfl
    · contradiction
    · exact absurd (List.mem_range.mp within) (Nat.not_lt_zero passed)
  rw [Function.comp_apply, List.take_succ_cons, hasLater_cons here nonempty]

/-- The line of a node that is placed at an address. -/
def lineOf (path : List Bool) (root : Node) (place : Address × Node) : Line :=
  ⟨path ++ lastsTo root place.1, place.2.kind, place.2.label⟩

theorem isEmpty_labelledAll (nodes : List Node) : (labelledAll nodes).isEmpty = nodes.isEmpty := by
  cases nodes <;> rfl

mutual
theorem linesFrom_labelled (path : List Bool) : (node : Node) →
    linesFrom path node.labelled = node.placed.map (lineOf path node)
  | .leaf id kind text => by
      simp [labelled, linesFrom, linesBelow, placed, lineOf, lastsTo, Node.kind]
  | .composite id kind children => by
      rw [labelled, linesFrom, placed, List.map_cons,
        linesBelow_labelled path (.composite id kind children) 0 children rfl]
      simp [lineOf, lastsTo, Node.kind]

theorem linesBelow_labelled (path : List Bool) (parent : Node) (index : Nat) :
    (children : List Node) → parent.children.drop index = children →
    linesBelow path (labelledAll children) = (placedFrom index children).map (lineOf path parent)
  | [], _ => rfl
  | child :: rest, behind => by
      have here : parent.children[index]? = some child := by
        rw [← List.head?_drop, behind, List.head?_cons]
      have later : parent.children.drop (index + 1) = rest := by
        rw [← List.tail_drop, behind, List.tail_cons]
      have last : rest.isEmpty = !decide (index + 1 < parent.children.length) := by
        rw [← later, Bool.eq_iff_iff]
        simp
      have own : child.placed.map (lineOf (path ++ [rest.isEmpty]) child) =
          (child.placed.map fun place => (index :: place.1, place.2)).map (lineOf path parent) := by
        rw [List.map_map]
        refine List.map_congr_left fun place _ => ?_
        simp [lineOf, lastsTo_cons here, last]
      rw [labelledAll, linesBelow, isEmpty_labelledAll, linesFrom_labelled, own, placedFrom,
        List.map_append, linesBelow_labelled path parent (index + 1) rest later]
end

theorem lines_eq (root : Node) : lines root = root.placed.map (lineOf [] root) :=
  linesFrom_labelled [] root

theorem guides_append_singleton (path : List Bool) (last : Bool) :
    guides (path ++ [last]) = path.flatMap cell ++ connector last ++ [' '] := by
  induction path with
  | nil => rfl
  | cons first rest ih =>
      obtain ⟨next, others, more⟩ : ∃ next others, rest ++ [last] = next :: others :=
        List.exists_cons_of_ne_nil (by simp)
      rw [List.cons_append, more, guides, ← more, ih]
      · simp
      · simp

/-- The line of a node from its place in the tree.  Before the icon of the root stands nothing.
Further down stand a cell of two columns for each node that is passed below the root, with a rule
if a sibling comes after that node, then the connector, which tells whether a sibling comes after
the node itself, and a space. -/
def lineAt (root : Node) (width : Nat) (address : Address) (node : Node) : Text :=
  let item := node.kind.icon :: ' ' :: truncate width node.label
  if address.isEmpty then item
  else
    ((List.range (address.length - 1)).flatMap fun passed =>
        if root.hasLater (address.take (passed + 1)) then ['│', ' '] else [' ', ' ']) ++
      (if root.hasLater address then ['├', '─'] else ['└', '─']) ++ ' ' :: item

theorem text_lineOf (root : Node) (width : Nat) (place : Address × Node) :
    (lineOf [] root place).text width = lineAt root width place.1 place.2 := by
  obtain ⟨address, node⟩ := place
  cases address with
  | nil => rfl
  | cons index rest =>
      have whole : (index :: rest).take (rest.length + 1) = index :: rest :=
        List.take_of_length_le (Nat.le_refl _)
      have drawn (later : Bool) :
          cell (!later) = (if later then ['│', ' '] else [' ', ' '] : List Char) := by
        cases later <;> rfl
      have joined (later : Bool) :
          connector (!later) = if later then ['├', '─'] else ['└', '─'] := by
        cases later <;> rfl
      rw [Line.text, lineOf, List.nil_append, lastsTo, List.length_cons, List.range_succ,
        List.map_append, List.map_singleton, guides_append_singleton, List.flatMap_map, whole,
        joined]
      simp only [drawn]
      simp [lineAt]

theorem lineFeed_not_mem_label (node : Node) : '\n' ∉ node.label := by
  rw [Node.label]
  split
  · have digit : '\n' ∉ Text.digits node.children.length :=
      fun member => absurd (Text.isDigit_of_mem_digits member) (by decide)
    split <;> simpa using digit
  · intro member
    obtain ⟨c, -, same⟩ := List.mem_map.mp member
    split at same
    · contradiction
    · contradiction

theorem lineFeed_not_mem_truncate {label : Text} (plain : '\n' ∉ label) :
    '\n' ∉ truncate width label := by
  rw [truncate]
  split
  · simpa using fun member => plain (List.mem_of_mem_take member)
  · exact plain

theorem lineFeed_not_mem_guides (path : List Bool) : '\n' ∉ guides path := by
  fun_induction guides path with
  | case1 => simp
  | case2 last => cases last <;> decide
  | case3 last rest _ ih => cases last <;> simpa [cell] using ih

theorem lineFeed_not_mem_text (path : List Bool) (node : Node) :
    '\n' ∉ (Line.mk path node.kind node.label).text width := by
  have icon : '\n' ≠ node.kind.icon := by cases node.kind <;> decide
  simp [Line.text, icon, lineFeed_not_mem_guides, lineFeed_not_mem_truncate,
    lineFeed_not_mem_label]

theorem icon_inj {kind other : Kind} (same : kind.icon = other.icon) : kind = other := by
  revert same
  cases kind <;> cases other <;> decide

/-- The guides of a line end at its icon, so they tell the depth. -/
theorem eq_of_guides {kind otherKind : Kind} {label otherLabel : Text} : (path other : List Bool) →
    guides path ++ kind.icon :: label = guides other ++ otherKind.icon :: otherLabel →
    path.length = other.length ∧ kind = otherKind
  -- A cell, a connector and an icon differ in their first two characters.
  | [], [], same => ⟨rfl, icon_inj (List.cons.inj same).1⟩
  | [], [last], same => by
      cases kind <;> cases last <;> simp [guides, connector, Kind.icon] at same
  | [], first :: second :: rest, same => by
      cases kind <;> cases first <;> simp [guides, cell, Kind.icon] at same
  | [last], [], same => by
      cases otherKind <;> cases last <;> simp [guides, connector, Kind.icon] at same
  | [last], [otherLast], same => by
      refine ⟨rfl, icon_inj ?_⟩
      cases last <;> cases otherLast <;> simp [guides, connector] at same
      · exact same.1
      · exact same.1
  | [last], first :: second :: rest, same => by
      cases last <;> cases first <;> simp [guides, cell, connector] at same
  | first :: second :: rest, [], same => by
      cases otherKind <;> cases first <;> simp [guides, cell, Kind.icon] at same
  | first :: second :: rest, [last], same => by
      cases last <;> cases first <;> simp [guides, cell, connector] at same
  | first :: second :: rest, other :: further :: others, same => by
      have behind : guides (second :: rest) ++ kind.icon :: label =
          guides (further :: others) ++ otherKind.icon :: otherLabel := by
        cases first <;> cases other <;> simp [guides, cell] at same
        · exact same
        · exact same
      obtain ⟨lengths, kinds⟩ := eq_of_guides _ _ behind
      exact ⟨congrArg (· + 1) lengths, kinds⟩

def Line.rank (line : Line) : Nat × Kind := (line.lastOnPath.length, line.kind)

mutual
theorem ranks_linesFrom (path : List Bool) : (node : Node) →
    (linesFrom path node.labelled).map Line.rank = node.depths path.length
  | .leaf _ kind text => rfl
  | .composite _ kind children => by
      rw [labelled, linesFrom, List.map_cons, ranks_linesBelow path children, depths]
      rfl

theorem ranks_linesBelow (path : List Bool) : (nodes : List Node) →
    (linesBelow path (labelledAll nodes)).map Line.rank = depthsAll (path.length + 1) nodes
  | [] => rfl
  | child :: rest => by
      rw [labelledAll, linesBelow, List.map_append, ranks_linesFrom _ child,
        ranks_linesBelow path rest, List.length_append, List.length_singleton, depthsAll]
end

theorem ranks_eq_of_texts {left right : List Line} {otherWidth : Nat}
    (same : left.map (·.text width) = right.map (·.text otherWidth)) :
    left.map Line.rank = right.map Line.rank := by
  induction left generalizing right with
  | nil =>
      obtain rfl := List.map_eq_nil_iff.mp same.symm
      rfl
  | cons line rest ih =>
      cases right with
      | nil => contradiction
      | cons other others =>
          obtain ⟨first, behind⟩ := List.cons.inj same
          obtain ⟨lengths, kinds⟩ := eq_of_guides _ _ first
          rw [List.map_cons, List.map_cons, ih behind, Line.rank, Line.rank, lengths, kinds]

/-- Two texts that do not contain what ends them are the same when they are ended alike. -/
theorem eq_of_ended {stop : Char} {left right after behind : Text} (plain : stop ∉ left)
    (otherPlain : stop ∉ right) (same : left ++ stop :: after = right ++ stop :: behind) :
    left = right ∧ after = behind := by
  rcases List.append_eq_append_iff.mp same with ⟨more, rfl, cut⟩ | ⟨more, rfl, cut⟩
  · cases more with
    | nil => exact ⟨(List.append_nil left).symm, (List.cons.inj cut).2⟩
    | cons c more =>
        obtain rfl := (List.cons.inj cut).1
        exact absurd (by simp) otherPlain
  · cases more with
    | nil => exact ⟨List.append_nil right, (List.cons.inj cut).2.symm⟩
    | cons c more =>
        obtain rfl := (List.cons.inj cut).1
        exact absurd (by simp) plain

theorem eq_of_lines {left right : List Text} (plain : ∀ line ∈ left, '\n' ∉ line)
    (otherPlain : ∀ line ∈ right, '\n' ∉ line)
    (same : left.flatMap (· ++ ['\n']) = right.flatMap (· ++ ['\n'])) : left = right := by
  induction left generalizing right with
  | nil =>
      cases right with
      | nil => rfl
      | cons line rest => simp at same
  | cons line rest ih =>
      cases right with
      | nil => simp at same
      | cons other others =>
          obtain ⟨here, later⟩ := List.forall_mem_cons.mp plain
          obtain ⟨otherHere, otherLater⟩ := List.forall_mem_cons.mp otherPlain
          simp only [List.flatMap_cons, List.append_assoc, List.singleton_append] at same
          obtain ⟨rfl, behind⟩ := eq_of_ended here otherHere same
          rw [ih later otherLater behind]

theorem outline_eq (root : Node) (width : Nat) :
    root.outline width = ((lines root).map (·.text width)).flatMap (· ++ ['\n']) := by
  rw [Node.outline, List.flatMap_map]

theorem texts_eq (root : Node) (width : Nat) :
    (lines root).map (·.text width) =
      root.placed.map fun place => lineAt root width place.1 place.2 := by
  rw [lines_eq, List.map_map]
  exact List.map_congr_left fun place _ => text_lineOf root width place

theorem lineFeed_not_mem_lineAt (root : Node) (width : Nat) (address : Address) (node : Node) :
    '\n' ∉ lineAt root width address node := by
  rw [← text_lineOf root width (address, node)]
  exact lineFeed_not_mem_text _ _

/-- Outlines that are the same, whatever the widths of their labels, are of trees with the same
shape and the same kinds. -/
theorem skeleton_eq_of_outline {other : Node} {otherWidth : Nat}
    (same : root.outline width = other.outline otherWidth) : root.skeleton = other.skeleton := by
  have plain (tree : Node) (width : Nat) :
      ∀ line ∈ (lines tree).map (·.text width), '\n' ∉ line := by
    rw [texts_eq]
    exact List.forall_mem_map.mpr fun place _ => lineFeed_not_mem_lineAt tree width _ _
  rw [outline_eq, outline_eq] at same
  have ranks := ranks_eq_of_texts (eq_of_lines (plain _ _) (plain _ _) same)
  rw [lines, lines, ranks_linesFrom, ranks_linesFrom] at ranks
  exact skeleton_eq_of_depths ranks

/-- The outline of a tree.  It consists of a line for each node, in document order, each ended by
the only line feed in it, and the line is drawn from the place of the node in the tree.  Two trees
with the same outline have nodes at the same addresses, of the same kinds. -/
theorem outline_draws (root : Node) (width : Nat) :
    root.outline width =
        root.placed.flatMap (fun place => lineAt root width place.1 place.2 ++ ['\n']) ∧
      root.placed.map Prod.snd = root :: root.descendants ∧
      (∀ address node, (address, node) ∈ root.placed ↔ root.nodeAt? address = some node) ∧
      (∀ place ∈ root.placed, '\n' ∉ lineAt root width place.1 place.2) ∧
      (root.outline width).count '\n' = (root :: root.descendants).length ∧
      ∀ (other : Node) (otherWidth : Nat), root.outline width = other.outline otherWidth → ∀ address,
        (root.nodeAt? address).map Node.kind = (other.nodeAt? address).map Node.kind := by
  have drawn : root.outline width =
      root.placed.flatMap (fun place => lineAt root width place.1 place.2 ++ ['\n']) := by
    rw [outline_eq, texts_eq, List.flatMap_map]
  have plain : ∀ place ∈ root.placed, '\n' ∉ lineAt root width place.1 place.2 :=
    fun place _ => lineFeed_not_mem_lineAt root width _ _
  refine ⟨drawn, map_snd_placed root, fun _ _ => mem_placed_iff, plain, ?_, ?_⟩
  · have once : ∀ place ∈ root.placed,
        (lineAt root width place.1 place.2 ++ ['\n']).count '\n' = 1 := by
      intro place member
      rw [List.count_append, List.count_eq_zero_of_not_mem (plain place member)]
      rfl
    rw [drawn, List.count_flatMap, ← map_snd_placed, List.length_map]
    calc (root.placed.map (List.count '\n' ∘ fun place =>
          lineAt root width place.1 place.2 ++ ['\n'])).sum
        = (root.placed.map fun _ => 1).sum := congrArg List.sum (List.map_congr_left once)
      _ = root.placed.length := by simp
  · intro other otherWidth same address
    rw [← kindAt?_skeleton root, ← kindAt?_skeleton other, skeleton_eq_of_outline same]

end Outline

end ProseTree
