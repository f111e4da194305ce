import ProseTree.Proofs.Node.Sharing
import ProseTree.Workspace

namespace ProseTree

/-! What holds of a workspace between two steps, and what the parts of a step keep.

A workspace is sound in the sense of a ledger when its shared nodes are on the ledger, its open
nodes are not, and the next identity is the next place of the ledger.  The ledger is nowhere in the
workspace; it is what makes the growth of all the trees one invariant. -/

open Node (Ledger)

/-- The holding is as the ledger has it. -/
inductive Holding.Kept (ledger : Ledger) : Holding → Prop where
  | opened {node : Node} (opened : node.Opened ledger) : Kept ledger (.opened node)
  | shared {node : Node} (shared : node.Shared ledger) : Kept ledger (.shared node)

namespace Holding

variable {ledger grown : Ledger} {holding : Holding}

theorem Kept.mono (kept : holding.Kept ledger) (grows : ledger <+: grown) :
    holding.Kept grown := by
  cases kept with
  | opened opened => exact .opened (opened.mono grows)
  | shared shared => exact .shared (shared.mono grows)

theorem Kept.assembled (kept : holding.Kept ledger) : holding.node.Assembled ledger := by
  cases kept with
  | opened opened => exact opened.assembled
  | shared shared => exact .shared shared

theorem Kept.opened_withId (kept : holding.Kept ledger) :
    (holding.node.withId none).Opened ledger := by
  cases kept with
  | opened opened => exact opened.opened_withId
  | shared shared => exact shared.opened_withId

theorem Kept.shared_of_mem_children (kept : holding.Kept ledger) :
    ∀ child ∈ holding.node.children, child.Shared ledger := by
  cases kept with
  | opened opened => exact opened.of_mem_children
  | shared shared => exact shared.of_mem_children

theorem Kept.shared_of_mem_descendants (kept : holding.Kept ledger) :
    ∀ node ∈ holding.node.descendants, node.Shared ledger := by
  intro node below
  obtain ⟨child, isChild, within⟩ := Node.mem_descendants_iff.mp below
  exact (kept.shared_of_mem_children child isChild).of_mem_reachable node within

/-- Only a shared node has an identity. -/
theorem Kept.shared_of_id {identity : NodeId} (kept : holding.Kept ledger)
    (hasId : holding.node.id = some identity) : holding.node.Shared ledger := by
  cases kept with
  | opened opened =>
      exact absurd (hasId.symm.trans opened.id_eq_none) (Option.some_ne_none identity)
  | shared shared => exact shared

/-- What can be read off a node: its kind, its text and its children. -/
def content (holding : Holding) : Kind × Option Text × List Node :=
  (holding.node.kind, holding.node.text?, holding.node.children)

end Holding

namespace Workspace

variable {ledger middle grown : Ledger} {before between after workspace : Workspace}
  {name wanted : String} {holding : Holding} {node : Node} {into : Option String}

theorem find?_put : (workspace.put name holding).find? wanted =
    if wanted = name then some holding else workspace.find? wanted :=
  Entries.lookup_put name wanted holding workspace.slots

theorem find?_keepShared (other : into ≠ some name) (node : Node) :
    (workspace.keepShared into node).find? name = workspace.find? name := by
  cases into with
  | none => rfl
  | some stored =>
      have apart : name ≠ stored := fun same => other (congrArg some same.symm)
      exact find?_put.trans (if_neg apart)

/-- The name goes on holding what it held, except that an open node may have become shared. -/
structure Spares (name : String) (before after : Workspace) : Prop where
  content : (after.find? name).map Holding.content = (before.find? name).map Holding.content
  shared : ∀ node, before.find? name = some (.shared node) → after.find? name = some (.shared node)

theorem Spares.of_find? (same : after.find? name = before.find? name) :
    Spares name before after :=
  ⟨by rw [same], fun _ found => same.trans found⟩

theorem Spares.trans (first : Spares name before between) (second : Spares name between after) :
    Spares name before after :=
  ⟨second.content.trans first.content, fun node found => second.shared node (first.shared node found)⟩

/-- The workspace is as the ledger has it. -/
structure Sound (ledger : Ledger) (workspace : Workspace) : Prop where
  next : workspace.nextId = ledger.length
  kept : ∀ name holding, workspace.find? name = some holding → holding.Kept ledger

theorem sound_empty : Sound [] empty :=
  ⟨rfl, fun _ _ found => absurd found (Option.some_ne_none _).symm⟩

/-- A workspace that a sound one turns into: the ledger has grown, and every name that is not
replaced is spared. -/
structure Extends (ledger grown : Ledger) (replaced : String → Prop) (before after : Workspace) :
    Prop where
  grows : ledger <+: grown
  sound : Sound grown after
  spares : ∀ name, ¬ replaced name → Spares name before after

variable {replaced others : String → Prop}

theorem Extends.refl (sound : Sound ledger workspace) :
    Extends ledger ledger replaced workspace workspace :=
  ⟨List.prefix_refl _, sound, fun _ _ => .of_find? rfl⟩

theorem Extends.trans (first : Extends ledger middle replaced before between)
    (second : Extends middle grown replaced between after) :
    Extends ledger grown replaced before after :=
  ⟨first.grows.trans second.grows, second.sound,
    fun name kept => (first.spares name kept).trans (second.spares name kept)⟩

theorem Extends.mono (extended : Extends ledger grown replaced before after)
    (fewer : ∀ name, replaced name → others name) : Extends ledger grown others before after :=
  ⟨extended.grows, extended.sound,
    fun name kept => extended.spares name fun isReplaced => kept (fewer name isReplaced)⟩

/-- Storing under a name, once identities below `free` have been given. -/
theorem Sound.extends_put {free : NodeId} (sound : Sound ledger workspace) (name : String)
    (grows : ledger <+: grown) (counted : free = grown.length) (kept : holding.Kept grown) :
    Extends ledger grown (· = name) workspace
      ({ workspace with nextId := free }.put name holding) := by
  refine ⟨grows, ⟨counted, fun wanted found isFound => ?_⟩,
    fun _ other => .of_find? (find?_put.trans (if_neg other))⟩
  rw [find?_put] at isFound
  split at isFound
  · obtain rfl := Option.some.inj isFound
    exact kept
  · exact (sound.kept wanted found isFound).mono grows

/-- Storing what is kept already gives no identities. -/
theorem Sound.extends_replace (sound : Sound ledger workspace) (name : String)
    (kept : holding.Kept ledger) :
    Extends ledger ledger (· = name) workspace (workspace.put name holding) :=
  sound.extends_put name (List.prefix_refl _) sound.next kept

/-- What is stored under the name, if there is one, once its identities have been given. -/
theorem Sound.extends_stored {free : NodeId} (sound : Sound ledger workspace)
    (into : Option String)
    (identified : ∃ grown, ledger <+: grown ∧ free = grown.length ∧ holding.Kept grown) :
    ∃ grown, Extends ledger grown (into = some ·) workspace
      (match into with
        | none => workspace
        | some name => { workspace with nextId := free }.put name holding) := by
  cases into with
  | none => exact ⟨ledger, .refl sound⟩
  | some name =>
      obtain ⟨grown, grows, counted, kept⟩ := identified
      exact ⟨grown, (sound.extends_put name grows counted kept).mono
        fun _ own => congrArg some own.symm⟩

theorem Sound.extends_keepOpen (sound : Sound ledger workspace) (into : Option String)
    (assembled : node.Assembled ledger) :
    ∃ grown, Extends ledger grown (into = some ·) workspace (workspace.keepOpen into node) := by
  obtain ⟨grown, grows, counted, opened⟩ := assembled.opened_identifyBelow
  rw [← sound.next] at counted opened
  exact sound.extends_stored into ⟨grown, grows, counted, .opened opened⟩

theorem Sound.extends_keepShared (sound : Sound ledger workspace) (into : Option String)
    (assembled : node.Assembled ledger) :
    ∃ grown, Extends ledger grown (into = some ·) workspace (workspace.keepShared into node) := by
  obtain ⟨grown, grows, counted, shared⟩ := assembled.identifies ledger (List.prefix_refl _)
  rw [← sound.next] at counted shared
  exact sound.extends_stored into ⟨grown, grows, counted, .shared shared⟩

/-- A node that is shared already is stored as it is. -/
theorem Sound.extends_keepShared_shared (sound : Sound ledger workspace) (into : Option String)
    (shared : node.Shared ledger) :
    Extends ledger ledger (into = some ·) workspace (workspace.keepShared into node) := by
  cases into with
  | none => exact .refl sound
  | some name =>
      simp only [keepShared, shared.identify_eq]
      exact (sound.extends_replace name (.shared shared)).mono fun _ own => congrArg some own.symm

/-- The names that `keepEach` stores under. -/
def IsNumbered (base name : String) : Prop :=
  ∃ index : Nat, name = base ++ toString index

theorem Sound.extends_keepEach (sound : Sound ledger workspace) {nodes : List Node}
    (each : ∀ node ∈ nodes, node.Shared ledger) :
    Extends ledger ledger (fun name => ∃ base, into = some base ∧ IsNumbered base name) workspace
      (workspace.keepEach into nodes) := by
  cases into with
  | none => exact .refl sound
  | some base =>
      have numbered : ∀ entry ∈ nodes.zipIdx, entry.1.Shared ledger := by
        intro entry member
        exact each entry.1 (List.fst_mem_of_mem_zipIdx member)
      simp only [keepEach]
      generalize nodes.zipIdx = entries at numbered
      induction entries generalizing workspace with
      | nil => exact .refl sound
      | cons entry rest ih =>
          obtain ⟨first, others⟩ := List.forall_mem_cons.mp numbered
          have stored := sound.extends_keepShared_shared (some (base ++ toString entry.2)) first
          refine .trans (stored.mono fun name own => ?_) (ih stored.sound others)
          exact ⟨base, rfl, entry.2, (Option.some.inj own).symm⟩

/-- Sharing replaces nothing: an open node goes on with an identity. -/
theorem Sound.extends_share (sound : Sound ledger workspace) (name : String) :
    ∃ grown, Extends ledger grown (fun _ => False) workspace (workspace.share name).1 ∧
      ∀ node, (workspace.share name).2 = some node → node.Shared grown := by
  unfold share
  split
  · exact ⟨ledger, .refl sound, fun _ shared => by contradiction⟩
  · rename_i node found
    cases sound.kept name _ found with
    | shared shared =>
        refine ⟨ledger, .refl sound, fun other isOther => ?_⟩
        obtain rfl := Option.some.inj isOther
        exact shared
  · rename_i node found
    cases sound.kept name _ found with
    | opened opened =>
        have shared := opened.shared_withId
        have stored := sound.extends_put name (List.prefix_append _ _)
          List.length_append.symm (.shared shared)
        simp only [opened.identify_eq, sound.next]
        refine ⟨_, ⟨stored.grows, stored.sound, fun wanted _ => ?_⟩, fun other isOther => ?_⟩
        · by_cases own : wanted = name
          · subst own
            refine ⟨?_, fun other isShared => by simp [isShared] at found⟩
            rw [find?_put, if_pos rfl, found]
            -- An identity is not part of the content.
            cases node <;> rfl
          · exact stored.spares wanted own
        · obtain rfl := Option.some.inj isOther
          exact shared

theorem Sound.extends_shareAll (sound : Sound ledger workspace) (names : List String) :
    ∃ grown, Extends ledger grown (fun _ => False) workspace (workspace.shareAll names).1 ∧
      ∀ nodes, (workspace.shareAll names).2 = some nodes → ∀ node ∈ nodes, node.Shared grown := by
  induction names generalizing workspace ledger with
  | nil =>
      refine ⟨ledger, .refl sound, fun nodes isNil => ?_⟩
      obtain rfl := Option.some.inj isNil
      exact List.forall_mem_nil _
  | cons name rest ih =>
      obtain ⟨middle, begins, first⟩ := sound.extends_share name
      unfold shareAll
      split
      · rename_i next outcome
        rw [outcome] at begins
        exact ⟨middle, begins, fun _ isNone => by contradiction⟩
      · rename_i next node outcome
        rw [outcome] at begins first
        obtain ⟨grown, goesOn, others⟩ := ih begins.sound
        refine ⟨grown, begins.trans goesOn, fun nodes isNodes => ?_⟩
        obtain ⟨shared, isShared, rfl⟩ := Option.map_eq_some_iff.mp isNodes
        exact List.forall_mem_cons.mpr ⟨(first node rfl).mono goesOn.grows, others shared isShared⟩

theorem Sound.opened (sound : Sound ledger workspace) (outcome : workspace.opened name = .ok node) :
    node.Opened ledger := by
  unfold Workspace.opened at outcome
  split at outcome
  · contradiction
  · contradiction
  · rename_i found
    obtain rfl := Except.ok.inj outcome
    cases sound.kept name _ found with
    | opened opened => exact opened

theorem Sound.held (sound : Sound ledger workspace) (outcome : workspace.held name = .ok node) :
    ∃ holding : Holding, holding.node = node ∧ holding.Kept ledger := by
  unfold Workspace.held at outcome
  split at outcome
  · contradiction
  · rename_i holding found
    exact ⟨holding, Except.ok.inj outcome, sound.kept name holding found⟩

variable {source : String} {selector : Text} {minimum : Nat} {report : Report}

/-- An operation changes nothing but the name that its tree is stored under. -/
theorem find?_operate (other : into ≠ some name) :
    (workspace.run (.operate source selector minimum into)).1.find? name =
      workspace.find? name := by
  simp only [run]
  split
  · rfl
  · split
    · rfl
    · split
      · rfl
      · exact find?_keepShared other _

theorem run_operate (held : workspace.held source = .ok node)
    (reported : (Menu.builtIn minimum).execute selector node = .ok report) :
    (workspace.run (.operate source selector minimum into)).2 = .ok (.report report) := by
  simp only [run, held, reported]
  split <;> rfl

end Workspace

end ProseTree
