import Mathlib.Data.List.Induction
import Mathlib.Data.List.Nodup
import ProseTree.Analysis.Words
import ProseTree.Proofs.Node.Traversals

namespace ProseTree.Analysis

/-! The words that a text repeats.

Words are counted in one pass.  A word gets a place in the table when it is first met, and is
counted at its place from then on, so the table has the words met so far, each once and with its
number.  Of these the repeated ones have one order only, whatever order they were met in. -/

namespace WordTable

variable {table : WordTable} {met : List Text} {word : Text} {place : Nat}

def words (table : WordTable) : List Text := table.counts.map Prod.fst

/-- The words that were met have their numbers, and every word of the table its place. -/
structure Counts (table : WordTable) (met : List Text) : Prop where
  whole : ∀ word, word ∈ table.words ↔ word ∈ met
  exact : ∀ entry ∈ table.counts, entry.2 = met.count entry.1
  places : ∀ word place, table.places.lookup word = some place ↔ table.words[place]? = some word

theorem counts_empty : empty.Counts [] where
  whole _ := Iff.rfl
  exact := List.forall_mem_nil _
  places _ place := iff_of_false (Option.some_ne_none place).symm nofun

/-- No word has two places. -/
theorem Counts.place_unique (counts : table.Counts met) {other : Nat}
    (here : table.words[place]? = some word) (there : table.words[other]? = some word) :
    place = other := by
  have found := (counts.places word place).mpr here
  rw [(counts.places word other).mpr there] at found
  exact (Option.some.inj found).symm

theorem Counts.nodup (counts : table.Counts met) : table.words.Nodup := by
  rw [List.nodup_iff_injective_getElem]
  intro first second same
  have here : table.words[first.val]? = some table.words[first] :=
    List.getElem?_eq_getElem first.isLt
  have there : table.words[second.val]? = some table.words[first] :=
    (List.getElem?_eq_getElem second.isLt).trans (congrArg some same.symm)
  exact Fin.ext (counts.place_unique here there)

theorem words_modify (counts : List (Text × Nat)) (place : Nat) :
    (counts.modify place fun entry => (entry.1, entry.2 + 1)).map Prod.fst =
      counts.map Prod.fst := by
  apply List.ext_getElem?
  intro index
  rw [List.getElem?_map, List.getElem?_map, List.getElem?_modify, Option.map_eq_map,
    Option.map_map]
  refine congrArg (Option.map · _) (funext fun entry => ?_)
  rw [Function.comp_apply]
  split <;> rfl

theorem Counts.count_known (counts : table.Counts met)
    (known : table.places.lookup word = some place) :
    (table.count word).Counts (met ++ [word]) := by
  have here : table.words[place]? = some word := (counts.places word place).mp known
  have counted : table.count word = { table with
      counts := table.counts.modify place fun entry => (entry.1, entry.2 + 1) } := by
    simp only [count, known]
  have sameWords : (table.count word).words = table.words := by
    rw [counted]
    exact words_modify table.counts place
  refine ⟨fun wanted => ?_, fun entry member => ?_, fun wanted wantedPlace => ?_⟩
  · have isMet : word ∈ met := (counts.whole word).mp (List.mem_of_getElem? here)
    rw [sameWords, counts.whole, List.mem_append, List.mem_singleton]
    exact ⟨Or.inl, fun isWanted => isWanted.elim (fun before => before) fun same => same ▸ isMet⟩
  · rw [counted] at member
    obtain ⟨index, atIndex⟩ := List.mem_iff_getElem?.mp member
    rw [List.getElem?_modify, Option.map_eq_map] at atIndex
    obtain ⟨old, isOld, rfl⟩ := Option.map_eq_some_iff.mp atIndex
    have oldWord : table.words[index]? = some old.1 := by
      rw [words, List.getElem?_map, isOld, Option.map_some]
    have oldNumber := counts.exact old (List.mem_of_getElem? isOld)
    by_cases own : place = index
    · subst own
      obtain rfl : word = old.1 := Option.some.inj (here.symm.trans oldWord)
      simp [oldNumber]
    · have other : old.1 ≠ word := fun same =>
        own (counts.place_unique here (same ▸ oldWord))
      rw [if_neg own, List.count_append, List.count_singleton, oldNumber]
      simp [other.symm]
  · rw [sameWords, counted]
    exact counts.places wanted wantedPlace

theorem getElem?_concat_iff {words : List Text} {wanted : Text} :
    (words ++ [word])[place]? = some wanted ↔
      words[place]? = some wanted ∨ place = words.length ∧ wanted = word := by
  rcases Nat.lt_trichotomy place words.length with within | rfl | beyond
  · rw [List.getElem?_append_left within]
    simp [Nat.ne_of_lt within]
  · simp [eq_comm]
  · have beyondToo : (words ++ [word]).length ≤ place := by
      rwa [List.length_append, List.length_singleton]
    rw [List.getElem?_eq_none (Nat.le_of_lt beyond), List.getElem?_eq_none beyondToo]
    simp [Nat.ne_of_gt beyond]

theorem Counts.count_new (counts : table.Counts met) (unknown : table.places.lookup word = none) :
    (table.count word).Counts (met ++ [word]) := by
  have absent : word ∉ table.words := by
    intro member
    obtain ⟨place, here⟩ := List.mem_iff_getElem?.mp member
    rw [(counts.places word place).mpr here] at unknown
    contradiction
  have notMet : word ∉ met := mt (counts.whole word).mpr absent
  have counted : table.count word =
      ⟨table.counts ++ [(word, 1)], table.places.put word table.counts.length⟩ := by
    simp only [count, unknown]
  have words : (table.count word).words = table.words ++ [word] := by
    rw [counted, WordTable.words, List.map_append]
    rfl
  have length : table.words.length = table.counts.length := List.length_map _
  refine ⟨fun wanted => ?_, fun entry member => ?_, fun wanted place => ?_⟩
  · rw [words, List.mem_append, List.mem_append, counts.whole]
  · rw [counted] at member
    rcases List.mem_append.mp member with old | isNew
    · have other : entry.1 ≠ word := fun same => absent (same ▸ List.mem_map_of_mem old)
      rw [List.count_append, List.count_singleton, counts.exact entry old]
      simp [other.symm]
    · rw [List.mem_singleton.mp isNew, List.count_append, List.count_eq_zero_of_not_mem notMet]
      simp
  · rw [words, counted, getElem?_concat_iff, ← counts.places, length]
    dsimp only
    rw [Entries.lookup_put]
    by_cases own : wanted = word
    · rw [if_pos own, own, unknown, Option.some.injEq, eq_comm]
      simp
    · rw [if_neg own]
      simp [own]

theorem Counts.count (counts : table.Counts met) (word : Text) :
    (table.count word).Counts (met ++ [word]) := by
  cases found : table.places.lookup word with
  | some place => exact counts.count_known found
  | none => exact counts.count_new found

/-- Counting word by word counts all words. -/
theorem counts_foldl (words : List Text) : (words.foldl WordTable.count empty).Counts words := by
  induction words using List.reverseRecOn with
  | nil => exact counts_empty
  | append_singleton words word ih =>
      rw [List.foldl_append]
      exact ih.count word

end WordTable

variable {words others : List Text} {word : Text} {number : Nat} {left right : Text × Nat}
  {entries : List (Text × Nat)} {node : Node}

theorem mem_tally_iff :
    (word, number) ∈ tally words ↔ word ∈ words ∧ words.count word = number := by
  have counts := WordTable.counts_foldl words
  constructor
  · intro member
    exact ⟨(counts.whole word).mp (List.mem_map_of_mem member), (counts.exact _ member).symm⟩
  · rintro ⟨isMet, rfl⟩
    obtain ⟨entry, member, rfl⟩ := List.mem_map.mp ((counts.whole word).mpr isMet)
    rw [← counts.exact entry member]
    exact member

theorem nodup_tally (words : List Text) : ((tally words).map Prod.fst).Nodup :=
  (WordTable.counts_foldl words).nodup

section Order

attribute [local instance (high)] List.instLE List.decidableLE

theorem goesBefore_iff : goesBefore left right = true ↔
    right.2 < left.2 ∨ left.2 = right.2 ∧ left.1 ≤ right.1 := by
  simp only [goesBefore, Bool.or_eq_true, Bool.and_eq_true, decide_eq_true_eq, beq_iff_eq]

theorem goesBefore_trans (left middle right : Text × Nat) (before : goesBefore left middle = true)
    (beforeThen : goesBefore middle right = true) : goesBefore left right = true := by
  rw [goesBefore_iff] at *
  rcases before with more | ⟨equal, inOrder⟩
  · rcases beforeThen with moreThen | ⟨equalThen, -⟩
    · exact .inl (Nat.lt_trans moreThen more)
    · exact .inl (equalThen ▸ more)
  · rcases beforeThen with moreThen | ⟨equalThen, inOrderThen⟩
    · exact .inl (equal ▸ moreThen)
    · exact .inr ⟨equal.trans equalThen, List.le_trans inOrder inOrderThen⟩

theorem goesBefore_total (left right : Text × Nat) :
    (goesBefore left right || goesBefore right left) = true := by
  rw [Bool.or_eq_true, goesBefore_iff, goesBefore_iff]
  rcases Nat.lt_trichotomy left.2 right.2 with less | equal | more
  · exact .inr (.inl less)
  · exact (List.le_total left.1 right.1).imp (fun inOrder => .inr ⟨equal, inOrder⟩)
      (fun inOrder => .inr ⟨equal.symm, inOrder⟩)
  · exact .inl (.inl more)

/-- One entry is before another: its number is greater, or equal and its word the lesser. -/
def Precedes (left right : Text × Nat) : Prop :=
  right.2 < left.2 ∨ left.2 = right.2 ∧ left.1 < right.1

theorem precedes_of_goesBefore (before : goesBefore left right = true)
    (apart : left.1 ≠ right.1) : Precedes left right := by
  rcases goesBefore_iff.mp before with more | ⟨equal, inOrder⟩
  · exact .inl more
  · exact .inr ⟨equal, (List.le_iff_lt_or_eq.mp inOrder).resolve_right apart⟩

theorem Precedes.asymm (before : Precedes left right) : ¬Precedes right left := by
  rintro (more | ⟨equal, lesser⟩)
  · rcases before with less | ⟨same, -⟩
    · exact Nat.lt_asymm more less
    · exact absurd same (Nat.ne_of_lt more)
  · rcases before with less | ⟨-, lesserToo⟩
    · exact absurd equal (Nat.ne_of_lt less)
    · exact List.lt_asymm lesser lesserToo

end Order

/-- The entries of the words that occur more than once in a list. -/
structure Repeated (words : List Text) (entries : List (Text × Nat)) : Prop where
  exact : ∀ word number, (word, number) ∈ entries ↔ 2 ≤ number ∧ words.count word = number
  once : (entries.map Prod.fst).Nodup
  ordered : entries.Pairwise Precedes

/-- The order in which the words occur has no part in it. -/
theorem Repeated.unique {more : List (Text × Nat)} (repeated : Repeated words entries)
    (repeatedToo : Repeated others more) (same : words.Perm others) : entries = more := by
  have sameMembers : ∀ entry, entry ∈ entries ↔ entry ∈ more := by
    intro entry
    rw [repeated.exact entry.1 entry.2, repeatedToo.exact entry.1 entry.2, same.count_eq]
  refine List.Perm.eq_of_pairwise ?_ repeated.ordered repeatedToo.ordered
    ((List.perm_ext_iff_of_nodup repeated.once.of_map repeatedToo.once.of_map).mpr sameMembers)
  intro left right _ _ before behind
  exact absurd behind before.asymm

theorem repeated_tally (words : List Text) :
    Repeated words (((tally words).filter (1 < ·.2)).mergeSort goesBefore) := by
  have sorted := List.mergeSort_perm ((tally words).filter (1 < ·.2)) goesBefore
  have once : ((((tally words).filter (1 < ·.2)).mergeSort goesBefore).map Prod.fst).Nodup :=
    (sorted.map Prod.fst).nodup_iff.mpr ((nodup_tally words).sublist (List.filter_sublist.map _))
  refine ⟨fun word number => ?_, once, ?_⟩
  · rw [sorted.mem_iff, List.mem_filter, mem_tally_iff, decide_eq_true_eq]
    constructor
    · rintro ⟨⟨-, exact⟩, several⟩
      exact ⟨several, exact⟩
    · rintro ⟨several, exact⟩
      have occurs : word ∈ words := List.count_pos_iff.mp (exact ▸ Nat.lt_of_succ_lt several)
      exact ⟨⟨occurs, exact⟩, several⟩
  · have inOrder := List.pairwise_mergeSort goesBefore_trans goesBefore_total
      ((tally words).filter (1 < ·.2))
    exact (inOrder.and (List.pairwise_map.mp once)).imp fun both =>
      precedes_of_goesBefore both.1 both.2

/-- The texts of the words of a tree, the tree itself included. -/
def wordTexts (node : Node) : List Text :=
  ((node :: node.descendants).filter (·.kind == .word)).filterMap Node.text?

theorem loweredWords_eq (node : Node) : loweredWords node = (wordTexts node).map Text.lower := by
  rw [loweredWords, Node.textsOfKind_of_isLeaf rfl, wordTexts]

theorem repeated_repeatedWords (node : Node) :
    Repeated ((wordTexts node).map Text.lower) (repeatedWords node) := by
  rw [← loweredWords_eq]
  exact repeated_tally (loweredWords node)

/-- The repeated words of a tree are the words that two or more of its word leaves are in lower
case, each once and with the number of these leaves, of greatest number first and in alphabetical
order then.  Trees with the same words, however ordered and wherever they stand, repeat the same. -/
theorem repeatedWords_exact (node : Node) :
    Repeated ((wordTexts node).map Text.lower) (repeatedWords node) ∧
    ∀ other, ((wordTexts other).map Text.lower).Perm ((wordTexts node).map Text.lower) →
      repeatedWords other = repeatedWords node :=
  ⟨repeated_repeatedWords node, fun other same =>
    (repeated_repeatedWords other).unique (repeated_repeatedWords node) same⟩

/-- A sentence, and a word above one with other capitals and in another order. -/
theorem repeatedWords_exact_reordered :
    let word := fun text : String => Node.leaf none .word text.toList
    let node := Node.composite (some 0) .sentence [word "The", word "End", word "the"]
    let other := Node.composite none .document
      [word "THE", .composite (some 1) .paragraph [word "tHe", .leaf none .symbol ['!'], word "end"]]
    ("the".toList, 2) ∈ repeatedWords node ∧ ("end".toList, 1) ∉ repeatedWords node ∧
    repeatedWords other = repeatedWords node := by
  intro word node other
  obtain ⟨repeated, only⟩ := repeatedWords_exact node
  refine ⟨(repeated.exact _ _).mpr (by decide), ?_, only other (by decide)⟩
  exact fun member => absurd ((repeated.exact _ _).mp member).1 (by decide)

end ProseTree.Analysis
