import ProseTree.Proofs.Workspace.Assembly
import ProseTree.Proofs.Workspace.Soundness

namespace ProseTree

/-! What one step keeps, and from it what a whole run keeps. -/

open Node (Ledger)

/-- The names that a step may put something else under, or take out of use. -/
def Command.Replaces (name : String) : Command → Prop
  | .leaf into _ _ => into = some name
  | .composite into _ => into = some name
  | .build into _ => into = some name
  | .parse into _ _ => into = some name
  | .withChildren into _ _ => into = some name
  | .copy into _ => into = some name
  | .add target _ => name = target
  | .remove source _ into => name = source ∨ into = some name
  | .child _ _ into => into = some name
  | .descendants _ _ into => ∃ base, into = some base ∧ Workspace.IsNumbered base name
  | .same _ _ => False
  | .alike _ _ => False
  | .operate _ _ _ into => into = some name
  | .inspect _ => False
  | .drop dropped => name = dropped

namespace Workspace

variable {ledger grown : Ledger} {before after workspace : Workspace} {command : Command}
  {into : Option String} {error : CommandError} {outcome : Outcome} {name : String}

/-- What a step does to a sound workspace: the ledger grows, and only a step that succeeds
replaces names. -/
def Safe (ledger : Ledger) (before : Workspace) (replaced : String → Prop) (step : Step) : Prop :=
  ∃ grown, Extends ledger grown (fun name => step.2.isOk = true ∧ replaced name) before step.1

variable {replaced : String → Prop} {result : Except Node.PayloadError Node}

theorem Extends.failed (extended : Extends ledger grown (fun _ => False) before after) :
    Safe ledger before replaced (after, .error error) :=
  ⟨grown, extended.mono fun _ impossible => impossible.elim⟩

theorem Extends.succeeded (extended : Extends ledger grown replaced before after) :
    Safe ledger before replaced (after, .ok outcome) :=
  ⟨grown, extended.mono fun _ isReplaced => ⟨rfl, isReplaced⟩⟩

/-- A step goes on after its first part, which replaces nothing. -/
theorem Extends.safe {step : Step} (first : Extends ledger grown (fun _ => False) before after)
    (second : Safe grown after replaced step) : Safe ledger before replaced step := by
  obtain ⟨last, extended⟩ := second
  exact ⟨last, (first.mono fun _ impossible => impossible.elim).trans extended⟩

/-- A step that begins by sharing fails when the name holds nothing, and else goes on from a sound
workspace. -/
theorem Sound.safe_share (sound : Sound ledger workspace) (name : String)
    {next : Workspace → Node → Step}
    (goesOn : ∀ {grown : Ledger} {shared : Workspace} {node : Node},
      Sound grown shared → node.Shared grown → Safe grown shared replaced (next shared node)) :
    Safe ledger workspace replaced
      (match workspace.share name with
        | (shared, none) => (shared, .error .noSlot)
        | (shared, some node) => next shared node) := by
  obtain ⟨grown, begins, each⟩ := sound.extends_share name
  split
  · rename_i shared outcome
    rw [outcome] at begins
    exact begins.failed
  · rename_i shared node outcome
    rw [outcome] at begins each
    exact begins.safe (goesOn begins.sound (each node rfl))

theorem Sound.safe_opened (sound : Sound ledger workspace) (name : String) {next : Node → Step}
    (goesOn : ∀ {node : Node}, node.Opened ledger → Safe ledger workspace replaced (next node)) :
    Safe ledger workspace replaced
      (match workspace.opened name with
        | .error error => (workspace, .error error)
        | .ok node => next node) := by
  split
  · exact (Extends.refl sound).failed
  · rename_i node isOpen
    exact goesOn (sound.opened isOpen)

theorem Sound.safe_held (sound : Sound ledger workspace) (name : String) {next : Node → Step}
    (goesOn : ∀ {holding : Holding}, holding.Kept ledger →
      Safe ledger workspace replaced (next holding.node)) :
    Safe ledger workspace replaced
      (match workspace.held name with
        | .error error => (workspace, .error error)
        | .ok node => next node) := by
  split
  · exact (Extends.refl sound).failed
  · rename_i node isHeld
    obtain ⟨holding, rfl, kept⟩ := sound.held isHeld
    exact goesOn kept

theorem Sound.safe_made (sound : Sound ledger workspace)
    (assembled : ∀ node, result = .ok node → node.Assembled ledger) :
    Safe ledger workspace (into = some ·) (workspace.made into result) := by
  unfold made
  split
  · exact (Extends.refl sound).failed
  · obtain ⟨grown, extended⟩ := sound.extends_keepOpen into (assembled _ rfl)
    exact extended.succeeded

theorem Sound.safe_withChildren (sound : Sound ledger workspace) (kind : Kind)
    (names : List String) : Safe ledger workspace (into = some ·)
      (workspace.run (.withChildren into kind names)) := by
  obtain ⟨middle, begins, shared⟩ := sound.extends_shareAll names
  simp only [run]
  split
  · rename_i next unshared
    rw [unshared] at begins
    exact begins.failed
  · rename_i next children isShared
    rw [isShared] at begins shared
    refine begins.safe (begins.sound.safe_made fun node made => ?_)
    exact Node.assembled_ofChildren (fun child member => .shared (shared children rfl child member))
      made

theorem Sound.safe_copy (sound : Sound ledger workspace) (source : String) :
    Safe ledger workspace (into = some ·) (workspace.run (.copy into source)) := by
  refine sound.safe_held source fun kept => ?_
  obtain ⟨grown, extended⟩ := sound.extends_keepOpen into kept.opened_withId.assembled
  exact extended.succeeded

theorem Sound.safe_add (sound : Sound ledger workspace) (target child : String) :
    Safe ledger workspace (· = target) (workspace.run (.add target child)) := by
  refine sound.safe_share child fun {_ next node} sound shared => ?_
  refine sound.safe_opened target fun {parent} opened => ?_
  cases added : parent.add node with
  | error error => exact (Extends.refl sound).failed
  | ok grown => exact (sound.extends_replace target (.opened (opened.add shared added))).succeeded

theorem Sound.safe_remove (sound : Sound ledger workspace) (source child : String) :
    Safe ledger workspace (fun name => name = source ∨ into = some name)
      (workspace.run (.remove source child into)) := by
  refine sound.safe_share child fun {_ next node} sound _ => ?_
  refine sound.safe_opened source fun {parent} opened => ?_
  cases removal : parent.remove node with
  | error error => exact (Extends.refl sound).failed
  | ok parts =>
      obtain ⟨rest, removed⟩ := parts
      obtain ⟨openRest, each⟩ := opened.remove removal
      have stored := sound.extends_replace source (.opened openRest)
      cases removed with
      | none => exact (stored.mono fun _ => Or.inl).succeeded
      | some removed =>
          have kept := stored.sound.extends_keepShared_shared into (each removed rfl)
          exact Extends.succeeded (.trans (stored.mono fun _ => Or.inl) (kept.mono fun _ => Or.inr))

theorem Sound.safe_child (sound : Sound ledger workspace) (source : String) (index : Nat) :
    Safe ledger workspace (into = some ·) (workspace.run (.child source index into)) := by
  refine sound.safe_held source fun {holding} kept => ?_
  cases isFound : holding.node.child index with
  | error error => exact (Extends.refl sound).failed
  | ok found =>
      have shared := kept.shared_of_mem_children found (Node.mem_children_of_child isFound)
      exact (sound.extends_keepShared_shared into shared).succeeded

theorem Sound.safe_descendants (sound : Sound ledger workspace) (source : String) (kind : Kind) :
    Safe ledger workspace (fun name => ∃ base, into = some base ∧ IsNumbered base name)
      (workspace.run (.descendants source kind into)) := by
  refine sound.safe_held source fun kept => ?_
  refine (sound.extends_keepEach fun node member => ?_).succeeded
  exact kept.shared_of_mem_descendants node (List.mem_filter.mp member).1

theorem Sound.safe_same (sound : Sound ledger workspace) (left right : String) :
    Safe ledger workspace (fun _ => False) (workspace.run (.same left right)) :=
  sound.safe_share left fun sound _ =>
    sound.safe_share right fun sound _ => (Extends.refl sound).succeeded

theorem Sound.safe_alike (sound : Sound ledger workspace) (left right : String) :
    Safe ledger workspace (fun _ => False) (workspace.run (.alike left right)) := by
  -- The two names are read in one match, so no common beginning applies.
  simp only [run]
  split
  · exact (Extends.refl sound).failed
  · exact (Extends.refl sound).failed
  · exact (Extends.refl sound).succeeded

theorem Sound.safe_operate (sound : Sound ledger workspace) (source : String) (selector : Text)
    (minimum : Nat) : Safe ledger workspace (into = some ·)
      (workspace.run (.operate source selector minimum into)) := by
  refine sound.safe_held source fun {holding} kept => ?_
  cases ran : (Menu.builtIn minimum).execute selector holding.node with
  | error error => exact (Extends.refl sound).failed
  | ok report =>
      dsimp only
      split
      · exact (Extends.refl sound).succeeded
      · rename_i tree made
        have assembled := Menu.assembled_tree kept.shared_of_mem_children ran made
        obtain ⟨grown, extended⟩ := sound.extends_keepShared into assembled
        exact extended.succeeded

theorem Sound.safe_inspect (sound : Sound ledger workspace) (source : String) :
    Safe ledger workspace (fun _ => False) (workspace.run (.inspect source)) :=
  sound.safe_held source fun _ => (Extends.refl sound).succeeded

theorem Sound.safe_drop (sound : Sound ledger workspace) (dropped : String) :
    Safe ledger workspace (· = dropped) (workspace.run (.drop dropped)) := by
  have remaining (name : String) :
      { workspace with slots := workspace.slots.filter (·.1 != dropped) }.find? name =
        if name = dropped then none else workspace.find? name :=
    Entries.lookup_filter_ne dropped name workspace.slots
  refine Extends.succeeded ⟨List.prefix_refl ledger, ⟨sound.next, fun name holding found => ?_⟩,
    fun name other => .of_find? ((remaining name).trans (if_neg other))⟩
  rw [remaining] at found
  split at found
  · contradiction
  · exact sound.kept name holding found

theorem Sound.safe_run (sound : Sound ledger workspace) (command : Command) :
    Safe ledger workspace (command.Replaces ·) (workspace.run command) := by
  cases command with
  | leaf into kind text => exact sound.safe_made fun _ => Node.assembled_ofText
  | composite into kind =>
      exact sound.safe_made fun _ => Node.assembled_ofChildren (List.forall_mem_nil _)
  | build into draft => exact sound.safe_made fun _ => draft.assembled_build
  | parse into text evaluates =>
      refine sound.safe_made fun node parsed => ?_
      obtain rfl := Except.ok.inj parsed
      exact (Segmentation.Chain.full evaluates).assembled_parse text
  | withChildren into kind names => exact sound.safe_withChildren kind names
  | copy into source => exact sound.safe_copy source
  | add target child => exact sound.safe_add target child
  | remove source child into => exact sound.safe_remove source child
  | child source index into => exact sound.safe_child source index
  | descendants source kind into => exact sound.safe_descendants source kind
  | same left right => exact sound.safe_same left right
  | alike left right => exact sound.safe_alike left right
  | operate source selector minimum into => exact sound.safe_operate source selector minimum
  | inspect source => exact sound.safe_inspect source
  | drop name => exact sound.safe_drop name

/-- A run keeps what each of its steps keeps. -/
theorem Sound.extends_runAll (sound : Sound ledger workspace) (commands : List Command) :
    ∃ grown, Extends ledger grown (fun name => ∃ command ∈ commands, command.Replaces name)
      workspace (workspace.runAll commands).1 := by
  induction commands generalizing workspace ledger with
  | nil => exact ⟨ledger, .refl sound⟩
  | cons command rest ih =>
      obtain ⟨middle, begins⟩ := sound.safe_run command
      obtain ⟨grown, goesOn⟩ := ih begins.sound
      refine ⟨grown, (begins.mono fun name isReplaced => ?_).trans
        (goesOn.mono fun name isReplaced => ?_)⟩
      · exact ⟨command, List.mem_cons_self, isReplaced.2⟩
      · obtain ⟨later, member, replaces⟩ := isReplaced
        exact ⟨later, List.mem_cons_of_mem _ member, replaces⟩

theorem Sound.fitsKind (sound : Sound ledger workspace) {holding : Holding}
    (found : workspace.find? name = some holding) :
    ∀ node ∈ holding.node.reachable, node.FitsKind := by
  have kept := sound.kept name holding found
  refine List.forall_mem_cons.mpr ⟨kept.assembled.fitsKind, fun node below => ?_⟩
  exact (Node.Assembled.shared (kept.shared_of_mem_descendants node below)).fitsKind

theorem Sound.shared_of_id (sound : Sound ledger workspace) {holding : Holding} {node : Node}
    {identity : NodeId} (found : workspace.find? name = some holding)
    (reached : node ∈ holding.node.reachable) (hasId : node.id = some identity) :
    node.Shared ledger := by
  have kept := sound.kept name holding found
  rcases List.mem_cons.mp reached with rfl | below
  · exact kept.shared_of_id hasId
  · exact kept.shared_of_mem_descendants node below

theorem Sound.spares_of_error (sound : Sound ledger workspace)
    (failed : (workspace.run command).2 = .error error) (name : String) :
    Spares name workspace (workspace.run command).1 := by
  obtain ⟨grown, extended⟩ := sound.safe_run command
  refine extended.spares name fun replaced => ?_
  rw [failed] at replaced
  exact Bool.false_ne_true replaced.1

/-- Nodes stay what they are, over every run that begins with nothing.

Whatever a name gives access to carries what its kind asks for.  A step that fails changes the kind,
the text and the children of no node.  A node below another has an identity that belongs to no other
node ever after, so whoever reaches it later, in any tree or under any name, finds the same kind,
text and children, and with them the same reconstruction.  And under a name that no step replaces
nothing changes either, except that an open node may become shared. -/
theorem nodes_stay (before after : List Command) :
    let first := (empty.runAll before).1
    let last := (first.runAll after).1
    (∀ name holding, first.find? name = some holding →
      ∀ node ∈ holding.node.reachable, node.FitsKind) ∧
    (∀ command error, (first.run command).2 = .error error →
      ∀ name, Spares name first (first.run command).1) ∧
    (∀ name holding, first.find? name = some holding → ∀ node ∈ holding.node.descendants,
      ∃ identity, node.id = some identity ∧
        ∀ laterName later, last.find? laterName = some later →
          ∀ found ∈ later.node.reachable, found.id = some identity → found = node) ∧
    (∀ name, (∀ command ∈ after, ¬ command.Replaces name) → Spares name first last) := by
  intro first last
  obtain ⟨ledger, begun⟩ := sound_empty.extends_runAll before
  obtain ⟨grown, gone⟩ := begun.sound.extends_runAll after
  refine ⟨fun name holding found => begun.sound.fitsKind found,
    fun command error failed => begun.sound.spares_of_error failed,
    fun name holding found node below => ?_, fun name kept => ?_⟩
  · have shared := (begun.sound.kept name holding found).shared_of_mem_descendants node below
    obtain ⟨identity, hasId, -⟩ := shared.recorded
    refine ⟨identity, hasId, fun laterName later laterFound found reached sameId => ?_⟩
    have laterShared := gone.sound.shared_of_id laterFound reached sameId
    exact shared.eq_of_id laterShared gone.grows (sameId.trans hasId.symm)
  · exact gone.spares name fun ⟨command, member, replaces⟩ => kept command member replaces

/-- A child of two parents stays below the one when the other gives it up. -/
example : (empty.runAll [.leaf (some "word") .word ['a'], .composite (some "kept") .lexeme,
      .add "kept" "word", .copy (some "cut") "kept", .remove "cut" "word" none]).1.slots =
    [("word", .shared (.leaf (some 0) .word ['a'])),
      ("kept", .opened (.composite none .lexeme [.leaf (some 0) .word ['a']])),
      ("cut", .opened (.composite none .lexeme []))] := by decide

end Workspace

end ProseTree
