import PostJen.Server.Rows
import PostJen.Server.Targets
import PostJen.Server.Sample

/-! When a node is queued, and when it is skipped.

The scheduler queues a node after it has read success for each dependency, so
the whole chain behind the node has succeeded. A node behind one that has not
is never queued: its row is skipped, and no other task touches a row without an
agent.
-/

set_option autoImplicit false

open PostJen.Foundations PostJen.Core

namespace PostJen.Server

/-- A step moves the row from pending to queued. -/
def Queues (id : Nat) (before : Config) (_ : Label) (after : Config) : Prop :=
  ∃ row row', before.state.db.nodeRuns.find id = some row ∧ row.status = .pending ∧
    after.state.db.nodeRuns.find id = some row' ∧ row'.status = .queued

def ReadsSuccess (id : Nat) (before : Config) (label : Label) (_ : Config) : Prop :=
  ∃ index row, label = .exec .scheduler (.answer index) ∧
    before.pending .scheduler = some (.select (.nodeStatus id)) ∧
    before.state.db.nodeRuns.find id = some row ∧ row.status = .success

variable {ext : External} {settings : Settings} {start : Config} {history : List Label}
  {c after : Config} {label : Label} {id : Nat}

/-! ## The statement that queues -/

theorem queues_scheduler (placed : c.Placed) (moved : step ext settings c label = some after)
    (queues : Queues id c label after) :
    ∃ choice reason exitCode retryCount, label = .exec .scheduler choice ∧
      c.pending .scheduler = some (.write (.updateNode id (.status .queued reason exitCode retryCount))) := by
  obtain ⟨row, row', found, pending, found', queued⟩ := queues
  obtain ⟨other, found'', changed⟩ := nodeStep moved found
  cases found'.symm.trans found''
  cases changed with
  | same => rw [pending] at queued; cases queued
  | update slot choice change executed next =>
    have updates := placed.updates next
    have hosted := (placed slot).1
    generalize (c.threads slot).point = point at updates hosted
    cases updates with
    | status x newlyQueued todo id toStatus reason exitCode retryCount valid =>
      have same : toStatus = .queued := queued
      subst same
      cases slot <;> cases hosted
      exact ⟨choice, reason, exitCode, retryCount, executed, next⟩
    | pick =>
      simp only [NodeChange.apply, pending] at queued
      rw [if_neg (by simp), pending] at queued
      cases queued
    | assign => simp [NodeChange.apply, pending] at queued
    | skip => simp [NodeChange.apply] at queued
    | lose => simp [NodeChange.apply] at queued
    | poll => simp [NodeChange.apply] at queued
    | finish task status exitCode reason reported =>
      have same : status = .queued := queued
      subst same
      cases reported
    | report headers payload status exitCode reason reported =>
      have same : status = .queued := queued
      subst same
      cases reported

theorem stays_left (placed : c.Placed) (moved : step ext settings c label = some after)
    (left : ∃ row, c.state.db.nodeRuns.find id = some row ∧ row.status ≠ .pending) :
    ∃ row, after.state.db.nodeRuns.find id = some row ∧ row.status ≠ .pending := by
  obtain ⟨row, found, unpending⟩ := left
  obtain ⟨row', found', changed⟩ := nodeStep moved found
  refine ⟨row', found', ?_⟩
  cases changed with
  | same => exact unpending
  | update slot choice change executed next =>
    have updates := placed.updates next
    generalize (c.threads slot).point = point at updates
    cases updates with
    | status x newlyQueued todo id toStatus reason exitCode retryCount valid =>
      rcases valid with rfl | rfl <;> simp [NodeChange.apply]
    | pick =>
      simp only [NodeChange.apply]
      split <;> simp [unpending]
    | assign => exact unpending
    | finish task status exitCode reason reported =>
      rintro rfl
      cases reported
    | report headers payload status exitCode reason reported =>
      rintro rfl
      cases reported
    | _ => simp [NodeChange.apply]

/-! ## What the scheduler has read -/

/-- The state with the rows whose success has been read so far. -/
structure Ledger where
  state : State
  succeeded : Nat → Prop

def Noted : (op : Op) → op.Reply → (Nat → Prop) → Prop
  | .select (.nodeStatus id), reply, succeeded =>
      (reply : Except SqlError NodeStatus) = .ok .success → succeeded id
  | _, _, _ => True

def reading (ext : External) : Regime Ledger where
  db s := s.state.db
  exec op before reply after := op.exec ext before.state reply after.state ∧
    (∀ id, before.succeeded id → after.succeeded id) ∧ Noted op reply after.succeeded
  others before after := before.state.db.nodeRuns.next ≤ after.state.db.nodeRuns.next ∧
    ∀ id, before.succeeded id → after.succeeded id
  holds _ phase s id := phase = .ended .success → s.succeeded id

theorem reading_valid : (reading ext).Valid where
  refl := fun s => ⟨Nat.le_refl _, fun _ read => read⟩
  trans := fun a b c first second => ⟨first.1.trans second.1, fun id read => second.2 id (first.2 id read)⟩
  grows := fun before after moved => moved.1
  serial := fun op before reply after ran => exec_serial ran.1
  stable := fun owner phase id before after moved holds ended => moved.2 id (holds ended)
  frame := fun owner phase id op before reply after ran _ holds ended => ran.2.1 id (holds ended)
  loaded := fun path before definition after ran => exec_load ran.1
  inserted := by
    rintro node before id after ⟨ran, -⟩
    rcases exec_insertNode ran with ⟨⟨why, impossible⟩, -⟩ | ⟨same, -, inserted⟩
    · cases impossible
    · cases same
      refine ⟨rfl, ?_, fun fresh => by cases fresh⟩
      show after.state.db.nodeRuns.next = _
      rw [inserted]
      rfl
  advance := by
    intro owner phase change next id before result after advance _ _ ended
    cases advance <;> cases ended
  read := by
    rintro owner id before status after ⟨-, -, noted⟩ _ _ ended
    cases ended
    exact noted rfl

theorem reading_governs (idle : ∀ slot, start.threads slot = enter ext settings .idle) :
    (reading ext).Governs ext settings start everything fun history c =>
      ⟨c.state, fun id => (system ext settings).Happened everything start (ReadsSuccess id) history⟩ where
  valid := reading_valid
  idle := idle
  scheduler := by
    intro history c choice after op reply run admitted moved next ran
    refine ⟨⟨choice, ran⟩, fun id read => read.later _, ?_⟩
    cases op with
    | select query =>
      cases query with
      | nodeStatus id =>
        rintro rfl
        refine run.happens admitted moved ?_
        obtain ⟨-, row, found, read⟩ := exec_nodeStatus ⟨choice, ran⟩
        cases choice with
        | answer index => exact ⟨index, row, rfl, next, found, read⟩
        | fail text => simp [Op.run] at ran
        | _ => cases ran
      | _ => trivial
    | _ => trivial
  others := fun history c label after run admitted moved _ =>
    ⟨step_serial moved, fun id read => read.later _⟩

/-! ## Rows without an agent -/

def claiming : RowRegime where
  fact
    | .fresh, row => row.status = .pending ∧ row.assignedAgentId = none
    | .assigned, row | .active, row => row.assignedAgentId.isSome = true
    | .ended .skipped, row => row.status = .skipped ∧ row.assignedAgentId = none
    | .ended _, _ => True
  may before after :=
    (before.assignedAgentId = none → after = before) ∧
      (before.assignedAgentId.isSome = true → after.assignedAgentId.isSome = true)

theorem claiming_valid : claiming.Valid where
  refl := fun row => ⟨fun _ => rfl, fun assigned => assigned⟩
  trans := by
    intro first second third one two
    refine ⟨fun unassigned => ?_, fun assigned => two.2 (one.2 assigned)⟩
    have same := one.1 unassigned
    rw [two.1 (by rw [same]; exact unassigned), same]
  stable := by
    intro phase before after may fact
    cases phase with
    | fresh => rw [claiming, may.1 fact.2]; exact fact
    | assigned => exact may.2 fact
    | active => exact may.2 fact
    | ended status =>
      cases status with
      | skipped => rw [claiming, may.1 fact.2]; exact fact
      | _ => trivial
  fresh := fun new now => ⟨rfl, rfl⟩
  advance := by
    intro phase change next now row advance fact
    cases advance with
    | assign agentId => rfl
    | skip reason => exact ⟨rfl, fact.2⟩
    | queue => exact fact
    | unmatched => trivial
  read := by
    intro row reported fact
    generalize row.status = status at reported
    cases status <;> trivial

theorem claiming_governs (idle : ∀ slot, start.threads slot = enter ext settings .idle) :
    (claiming.regime ext).Governs ext settings start everything fun _ c => c.state := by
  refine claiming_valid.governs idle ?_
  intro history c slot choice after id row change run admitted moved other next found found'
  obtain ⟨row', found'', assigned⟩ := Targets.updates_assigned idle run admitted moved other next
  cases found.symm.trans found''
  refine ⟨fun unassigned => ?_, Targets.NodeChange.apply_assigned⟩
  rw [unassigned] at assigned
  cases assigned

/-! ## Queueing -/

/-- What the scheduler is doing when it queues the row of a node. -/
structure QueuesNode (ext : External) (settings : Settings) (start : Config) (history : List Label)
    (c : Config) (label : Label) (id : Nat) (x : Execution) (node : ResolvedNodeDefinition) : Prop where
  executing : ∃ choice, label = .exec .scheduler choice
  visiting : ∃ newlyQueued todo, (c.threads .scheduler).point = .pass x newlyQueued (node :: todo)
  accepted : Accepted x.nodes
  listed : node ∈ x.nodes
  owned : ∃ row, c.state.db.nodeRuns.find id = some row ∧ row.jobRunId = x.run.id ∧ row.nodeId = node.id
  dependencies : ∀ dep ∈ node.dependsOn, ∃ depId, x.nodeIds.lookup dep = some depId ∧
    (system ext settings).Happened everything start (ReadsSuccess depId) history
  ancestors : ∀ ancestor, Ancestor (·.id) (·.dependsOn) x.nodes ancestor node →
    ∃ ancestorId, x.nodeIds.lookup ancestor.id = some ancestorId ∧
      (system ext settings).Happened everything start (ReadsSuccess ancestorId) history

theorem promised_queue {S : Type} {R : Regime S} {view : List Label → Config → S}
    (governs : R.Governs ext settings start everything view)
    (run : (system ext settings).Path everything start history c)
    (moved : step ext settings c label = some after) (queues : Queues id c label after) :
    (∃ choice, label = .exec .scheduler choice) ∧ ∃ x newlyQueued node todo,
      (c.threads .scheduler).point = .pass x newlyQueued (node :: todo) ∧
      R.holds ⟨x.run.id, node.id⟩ .assigned (view history c) id ∧
      R.Starts x newlyQueued node id (view history c) := by
  have placed := reached_placed governs.idle run.reaches
  obtain ⟨choice, reason, exitCode, retryCount, rfl, next⟩ := queues_scheduler placed moved queues
  obtain ⟨owner, phase, later, advance, here, starts⟩ :=
    governs.promised run trivial moved next id _ rfl
  cases advance with
  | queue =>
    obtain ⟨x, newlyQueued, node, todo, point, rfl, started⟩ := starts rfl
    exact ⟨⟨choice, rfl⟩, x, newlyQueued, node, todo, point, here, started⟩

theorem succeeded_read {x : Execution} {newlyQueued : List (String × Nat)} {node : ResolvedNodeDefinition}
    {s : Ledger} (starts : (reading ext).Starts x newlyQueued node id s) {key : String}
    (listed : key ∈ x.nodes.map (·.id)) (ended : x.results.lookup key = some .success) :
    ∃ keyId, x.nodeIds.lookup key = some keyId ∧ s.succeeded keyId := by
  obtain ⟨other, member, rfl⟩ := List.mem_map.mp listed
  obtain ⟨otherId, known⟩ := starts.sound.numbered other member
  have ne : other.id ≠ node.id := by
    intro same
    have unsettled := (Execution.phase_eq_fresh starts.fresh).1
    rw [← same, ended] at unsettled
    cases unsettled
  exact ⟨otherId, known, starts.phased other member ne otherId known (Execution.phase_ended.mpr ended)⟩

theorem queues_node (idle : ∀ slot, start.threads slot = enter ext settings .idle)
    (run : (system ext settings).Path everything start history c)
    (moved : step ext settings c label = some after) (queues : Queues id c label after) :
    ∃ x node, QueuesNode ext settings start history c label id x node := by
  obtain ⟨executing, x, newlyQueued, node, todo, point, -, starts⟩ :=
    promised_queue (reading_governs idle) run moved queues
  obtain ⟨-, x', newlyQueued', node', todo', point', ⟨row, found, ownedRun, ownedNode, -⟩, -⟩ :=
    promised_queue (claiming_governs idle) run moved queues
  cases point.symm.trans point'
  refine ⟨x, node, executing, ⟨newlyQueued, todo, point⟩, starts.sound.accepted, starts.member,
    ⟨row, found, ownedRun, ownedNode⟩, fun dep needed => ?_, fun ancestor chain => ?_⟩
  · obtain ⟨other, member, rfl⟩ := starts.sound.order.needed starts.member needed
    exact succeeded_read starts (List.mem_map_of_mem member) (starts.ready _ needed)
  · exact succeeded_read starts (List.mem_map_of_mem chain.mem_first)
      (starts.sound.ancestors chain starts.ready)

theorem queued_once (idle : ∀ slot, start.threads slot = enter ext settings .idle)
    (run : (system ext settings).Path everything start history c) (queues : Queues id c label after) :
    ¬(system ext settings).Happened everything start (Queues id) history := by
  intro before
  obtain ⟨row, found, unpending⟩ := run.since
    (fun _ c => ∃ row, c.state.db.nodeRuns.find id = some row ∧ row.status ≠ .pending) before
    (fun _ _ _ _ _ _ _ ⟨_, row', _, _, found', queued⟩ => ⟨row', found', by rw [queued]; simp⟩)
    fun _ _ _ _ path _ moved left => stays_left (reached_placed idle path.reaches) moved left
  obtain ⟨row', _, found', pending, -⟩ := queues
  cases found.symm.trans found'
  exact unpending pending

/-- A row that was queued has an agent ever since. -/
theorem queued_assigned (idle : ∀ slot, start.threads slot = enter ext settings .idle)
    (run : (system ext settings).Path everything start history c)
    (before : (system ext settings).Happened everything start (Queues id) history) :
    c.state.db.Assigned id := by
  refine run.since (fun _ c => c.state.db.Assigned id) before ?_
    fun _ _ _ _ _ _ moved assigned => Targets.step_assigned moved id assigned
  intro history c label after path _ moved queues
  obtain ⟨-, x, newlyQueued, node, todo, -, ⟨row, found, -, -, assigned⟩, -⟩ :=
    promised_queue (claiming_governs idle) path moved queues
  exact Targets.step_assigned moved id ⟨row, found, assigned⟩

/-! ## Behind a node that did not succeed -/

/-- How the loop leaves a node that was never started. -/
structure NeverQueued (ext : External) (settings : Settings) (start : Config) (history : List Label)
    (c : Config) (x : Execution) (node : ResolvedNodeDefinition) : Prop where
  result : x.results.lookup node.id = some .skipped
  row : ∃ id row, x.nodeIds.lookup node.id = some id ∧ c.state.db.nodeRuns.find id = some row ∧
    row.jobRunId = x.run.id ∧ row.nodeId = node.id ∧ row.status = .skipped ∧
    ¬(system ext settings).Happened everything start (Queues id) history

theorem blocked_skipped (idle : ∀ slot, start.threads slot = enter ext settings .idle)
    (run : (system ext settings).Path everything start history c) {x : Execution}
    (breaks : (c.threads .scheduler).code = .done (.finalizing x)) {ancestor node : ResolvedNodeDefinition}
    (chain : Ancestor (·.id) (·.dependsOn) x.nodes ancestor node)
    (unsuccessful : x.results.lookup ancestor.id ≠ some .success) :
    NeverQueued ext settings start history c x node := by
  obtain ⟨looping, settled⟩ := (claiming_governs idle).at_point run breaks
  have member : node ∈ x.nodes := chain.mem_last
  obtain ⟨status, result⟩ := settled node member
  have skipped : status = .skipped := by
    by_contra unskipped
    refine unsuccessful (looping.sound.ancestors chain ?_)
    have ended : x.phase [] node.id = .ended status := Execution.phase_ended.mpr result
    refine looping.sound.started node member ?_ ?_
    · rw [ended]; simp
    · rw [ended]; simpa using unskipped
  subst skipped
  obtain ⟨id, known⟩ := looping.sound.numbered node member
  have here := looping.phased node member id known
  rw [Execution.phase_ended.mpr result] at here
  obtain ⟨row, found, ownedRun, ownedNode, rowSkipped, unassigned⟩ := here
  refine ⟨result, id, row, known, found, ownedRun, ownedNode, rowSkipped, fun queued => ?_⟩
  obtain ⟨row', found', assigned⟩ := queued_assigned idle run queued
  cases found.symm.trans found'
  rw [unassigned] at assigned
  cases assigned

/-- A node is queued at most once, and only after every ancestor was read as
successful; a node behind an unsuccessful one is never queued and ends skipped. -/
theorem dependency_safety {files : String → Option String} {clock : Nat}
    (run : (system ext settings).Path everything (Config.initial ext settings files clock) history c) :
    (∀ label after id, step ext settings c label = some after → Queues id c label after →
      ¬(system ext settings).Happened everything (Config.initial ext settings files clock) (Queues id) history ∧
      ∃ x node, QueuesNode ext settings (Config.initial ext settings files clock) history c label id x node) ∧
    ∀ x, (c.threads .scheduler).code = .done (.finalizing x) → ∀ ancestor node,
      Ancestor (·.id) (·.dependsOn) x.nodes ancestor node → x.results.lookup ancestor.id ≠ some .success →
      NeverQueued ext settings (Config.initial ext settings files clock) history c x node := by
  have idle := Config.initial_idle ext settings files clock
  exact ⟨fun label after id moved queues => ⟨queued_once idle run queues, queues_node idle run moved queues⟩,
    fun x breaks ancestor node chain unsuccessful => blocked_skipped idle run breaks chain unsuccessful⟩

def Sample.forkContinued : List Label :=
  Sample.forkQueued ++ Sample.block 1 ++ Sample.workLocally 0 (Sample.exited 0) ++ Sample.block 1 ++
    Sample.block 1 ++ Sample.block 1 ++ Sample.block 0 ++ Sample.block 0 ++ Sample.turns .scheduler 1

theorem dependency_safety_fork :
    ∃ history c after, (system Sample.ext Sample.settings).Path everything Sample.initial history c ∧
      step Sample.ext Sample.settings c (.exec .scheduler (.answer 0)) = some after ∧
      Queues 3 c (.exec .scheduler (.answer 0)) after ∧
      ¬(system Sample.ext Sample.settings).Happened everything Sample.initial (Queues 3) history ∧
      ∃ x node, QueuesNode Sample.ext Sample.settings Sample.initial history c
        (.exec .scheduler (.answer 0)) 3 x node := by
  have passed : ((Sample.run (fun _ _ => true) Sample.forkContinued).any fun c =>
      (c.state.db.nodeRuns.find 3).any (·.status = .pending) &&
        (step Sample.ext Sample.settings c (.exec .scheduler (.answer 0))).any fun after =>
          (after.state.db.nodeRuns.find 3).any (·.status = .queued)) = true := by decide +kernel
  obtain ⟨history, c, run, holds⟩ := Sample.arrives_freely passed
  simp only [Bool.and_eq_true, Option.any_eq_true, decide_eq_true_eq] at holds
  obtain ⟨⟨row, found, pending⟩, after, moved, row', found', queued⟩ := holds
  have queues : Queues 3 c (.exec .scheduler (.answer 0)) after :=
    ⟨row, row', found, pending, found', queued⟩
  exact ⟨history, c, after, run, moved, queues, (dependency_safety run).1 _ _ 3 moved queues⟩

end PostJen.Server
