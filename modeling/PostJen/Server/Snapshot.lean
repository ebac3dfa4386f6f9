import PostJen.Server.Rules

/-! What the rows of a run keep of its definition.

An INSERT writes the columns that describe a task or a run, and no UPDATE writes
them again. So the rows still tell how the nodes were resolved when the run was
prepared, and the variables of `execute_run` name the row of each node.
-/

set_option autoImplicit false

open PostJen.Foundations PostJen.Core

namespace PostJen.Server

/-! ## Columns that no UPDATE writes -/

/-- A row of `node_runs` with the other columns as its INSERT leaves them. -/
def NodeRun.snapshot (row : NodeRun) : NodeRun :=
  { row with
    status := .pending
    retryCount := 0
    exitCode := none
    startedAt := none
    finishedAt := none
    cancelRequestedAt := none
    failureReason := none
    assignedAgentId := none }

def JobRun.snapshot (run : JobRun) : JobRun :=
  { run with
    status := .queued
    startedAt := none
    finishedAt := none
    cancelRequestedAt := none
    failureReason := none }

theorem NodeChange.apply_snapshot (change : NodeChange) (now : Timestamp) (row : NodeRun) :
    (change.apply now row).snapshot = row.snapshot := by
  cases change with
  | startQueued =>
    simp only [NodeChange.apply]
    split <;> rfl
  | _ => rfl

theorem NodeChange.apply_targetJson (change : NodeChange) (now : Timestamp) (row : NodeRun) :
    (change.apply now row).targetJson = row.targetJson := by
  show (change.apply now row).snapshot.targetJson = row.snapshot.targetJson
  rw [change.apply_snapshot]

theorem JobChange.apply_snapshot (change : JobChange) (now : Timestamp) (run : JobRun) :
    (change.apply now run).snapshot = run.snapshot := by
  cases change with
  | running fromStatus =>
    simp only [JobChange.apply]
    split <;> rfl
  | _ => rfl

/-- Rows stay, with the columns that no UPDATE writes. -/
structure Db.Keeps (before after : Db) : Prop where
  nodes : ∀ id row, before.nodeRuns.find id = some row →
    ∃ row', after.nodeRuns.find id = some row' ∧ row'.snapshot = row.snapshot
  runs : ∀ id run, before.jobRuns.find id = some run →
    ∃ run', after.jobRuns.find id = some run' ∧ run'.snapshot = run.snapshot

theorem Db.Keeps.refl (db : Db) : db.Keeps db :=
  ⟨fun _ row found => ⟨row, found, rfl⟩, fun _ run found => ⟨run, found, rfl⟩⟩

theorem Db.Keeps.trans {first second third : Db} (one : first.Keeps second) (two : second.Keeps third) :
    first.Keeps third where
  nodes := by
    intro id row found
    obtain ⟨row', found', same⟩ := one.nodes id row found
    obtain ⟨row'', found'', same'⟩ := two.nodes id row' found'
    exact ⟨row'', found'', same'.trans same⟩
  runs := by
    intro id run found
    obtain ⟨run', found', same⟩ := one.runs id run found
    obtain ⟨run'', found'', same'⟩ := two.runs id run' found'
    exact ⟨run'', found'', same'.trans same⟩

section
variable {ext : External} {settings : Settings}

theorem exec_keeps {op : Op} {before after : State} {reply : op.Reply} (ran : op.exec ext before reply after) :
    before.db.Keeps after.db where
  nodes := by
    intro id row found
    rcases exec_nodeRuns ran with same | ⟨other, change, -, updated⟩ | ⟨new, -, inserted⟩
    · exact ⟨row, by rw [same, found], rfl⟩
    · rw [updated, Serial.find_updateAt, found]
      split
      · exact ⟨_, rfl, change.apply_snapshot _ _⟩
      · exact ⟨row, rfl, rfl⟩
    · refine ⟨row, ?_, rfl⟩
      rw [inserted, Serial.find_insert, if_neg (Nat.ne_of_lt (Serial.lt_next found)), found]
  runs := by
    intro id run found
    rcases exec_jobRuns ran with same | ⟨other, change, -, updated⟩ | ⟨other, _, -, updated⟩ | ⟨new, -, inserted⟩
    · exact ⟨run, by rw [same, found], rfl⟩
    · rw [updated, Serial.find_updateAt, found]
      split
      · exact ⟨_, rfl, change.apply_snapshot _ _⟩
      · exact ⟨run, rfl, rfl⟩
    · rw [updated, Serial.find_updateAt, found]
      split
      · exact ⟨_, rfl, JobChange.apply_snapshot _ _ _⟩
      · exact ⟨run, rfl, rfl⟩
    · refine ⟨run, ?_, rfl⟩
      rw [inserted, Serial.find_insert, if_neg (Nat.ne_of_lt (Serial.lt_next found)), found]

theorem step_keeps {c after : Config} {label : Label} (moved : step ext settings c label = some after) :
    c.state.db.Keeps after.state.db := by
  rcases step_db moved with ⟨same, -⟩ | ⟨slot, choice, op, reply, -, -, ran⟩ | ⟨hostname, affected, -, registered⟩
  · rw [same]
    exact .refl _
  · exact exec_keeps ran
  · obtain ⟨agents, same⟩ := registered_agents registered
    rw [same]
    exact ⟨fun _ row found => ⟨row, found, rfl⟩, fun _ run found => ⟨run, found, rfl⟩⟩

end

/-! ## The rows of a definition's nodes -/

def Db.Describes (ext : External) (db : Db) (runId : Nat) (node : ResolvedNodeDefinition) (id : Nat) : Prop :=
  ∃ row, db.nodeRuns.find id = some row ∧ row.snapshot = (newNodeRun ext runId node).row row.createdAt

theorem Db.Keeps.describes {ext : External} {before after : Db} (kept : before.Keeps after) {runId id : Nat}
    {node : ResolvedNodeDefinition} (described : before.Describes ext runId node id) :
    after.Describes ext runId node id := by
  obtain ⟨row, found, same⟩ := described
  obtain ⟨row', found', same'⟩ := kept.nodes id row found
  have stamp : row'.createdAt = row.createdAt := by
    show row'.snapshot.createdAt = row.snapshot.createdAt
    rw [same']
  exact ⟨row', found', by rw [same', same, stamp]⟩

theorem Db.Describes.target {ext : External} {db : Db} {runId id : Nat} {node : ResolvedNodeDefinition}
    (described : db.Describes ext runId node id) :
    ∃ row, db.nodeRuns.find id = some row ∧ row.targetJson = node.target.map ext.encodeTarget := by
  obtain ⟨row, found, same⟩ := described
  exact ⟨row, found, show row.snapshot.targetJson = _ by rw [same]; rfl⟩

namespace Execution

def Recorded (ext : External) (x : Execution) (db : Db) : Prop :=
  ∀ node ∈ x.nodes, ∃ id, x.nodeIds.lookup node.id = some id ∧ db.Describes ext x.run.id node id

theorem Recorded.keeps {ext : External} {x : Execution} {before after : Db} (recorded : x.Recorded ext before)
    (kept : before.Keeps after) : x.Recorded ext after := by
  intro node member
  obtain ⟨id, known, described⟩ := recorded node member
  exact ⟨id, known, kept.describes described⟩

end Execution

/-- The loop's variables fit the rows, and a pass visits nodes of the run. -/
def Point.Recorded (ext : External) (db : Db) : Point → Prop
  | .scheduling x | .waiting x | .polling x _ | .finalizing x => x.Recorded ext db
  | .pass x _ todo => x.Recorded ext db ∧ ∀ node ∈ todo, node ∈ x.nodes
  | _ => True

theorem Point.Recorded.keeps {ext : External} {point : Point} {before after : Db}
    (recorded : point.Recorded ext before) (kept : before.Keeps after) : point.Recorded ext after := by
  cases point with
  | scheduling x | waiting x | polling x _ | finalizing x =>
    exact Execution.Recorded.keeps recorded kept
  | pass x newlyQueued todo => exact ⟨recorded.1.keeps kept, recorded.2⟩
  | _ => trivial

theorem Point.Recorded.follows {ext : External} {point next : Point} {db : Db}
    (recorded : point.Recorded ext db) (leads : point.Leads next)
    (prepared : ∀ queued, point ≠ .executeRun queued) : next.Recorded ext db := by
  cases leads with
  | prepare queued nodes nodeIds => exact absurd rfl (prepared queued)
  | observe x canceled => exact ⟨recorded, fun node member => member⟩
  | visit x x' newlyQueued newlyQueued' node todo visits =>
    obtain ⟨rows, listed⟩ := recorded
    have rest : ∀ other ∈ todo, other ∈ x.nodes := fun other member => listed other (List.mem_cons_of_mem _ member)
    cases visits <;> exact ⟨rows, rest⟩
  | finish x newlyQueued _ | wait x newlyQueued => exact recorded.1
  | idle | none | pick _ | finalize _ | abandon _ _ _ => trivial
  | _ => exact recorded

end PostJen.Server
