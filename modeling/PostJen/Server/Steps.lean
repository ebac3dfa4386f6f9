import PostJen.Server.Effects
import PostJen.Server.Placement

/-! What one step of the server does to one table, and which task does it.

A table only changes when a task executes a statement that writes it. Rows are
never deleted from `node_runs` and `job_runs`, and their keys are not reused.
-/

set_option autoImplicit false

open PostJen.Foundations PostJen.Core

namespace PostJen.Server

/-- The operation that a task is suspended at. -/
def Config.pending (c : Config) (slot : Slot) : Option Op :=
  match (c.threads slot).code with
  | .call op _ => some op
  | _ => none

variable {ext : External} {settings : Settings} {c after : Config} {label : Label}

theorem pending_eq_some {slot : Slot} {op : Op} :
    c.pending slot = some op ↔ ∃ rest, (c.threads slot).code = .call op rest := by
  unfold Config.pending
  cases (c.threads slot).code with
  | done value => simp
  | halt why => exact why.elim
  | call other rest =>
    simp only [Option.some.injEq]
    constructor
    · rintro rfl
      exact ⟨rest, rfl⟩
    · rintro ⟨rest', same⟩
      cases same
      rfl

def Config.ended (c : Config) (slot : Slot) : Option Point :=
  match (c.threads slot).code with
  | .done point => some point
  | _ => none

theorem ended_eq_some {slot : Slot} {point : Point} :
    c.ended slot = some point ↔ (c.threads slot).code = .done point := by
  unfold Config.ended
  cases (c.threads slot).code <;> simp

theorem Config.Placed.pending {slot : Slot} {op : Op} (placed : c.Placed)
    (next : c.pending slot = some op) : (c.threads slot).point.may op = true := by
  obtain ⟨rest, code⟩ := pending_eq_some.mp next
  exact placed.may code

theorem Config.Placed.updates {slot : Slot} {id : Nat} {change : NodeChange} (placed : c.Placed)
    (next : c.pending slot = some (.write (.updateNode id change))) :
    (c.threads slot).point.Updates id change :=
  Point.makes_updates (placed.pending next)

theorem step_exec {slot : Slot} {choice : Choice}
    (moved : step ext settings c (.exec slot choice) = some after) :
    ∃ op rest reply, (c.threads slot).code = .call op rest ∧ c.pending slot = some op ∧
      op.run ext choice c.state = some (reply, after.state) ∧
      after.threads = (c.put slot ⟨(c.threads slot).point, rest reply⟩).threads := by
  cases step_moved moved with
  | @exec slot choice op rest reply state next ran =>
    exact ⟨op, rest, reply, next, pending_eq_some.mpr ⟨rest, next⟩, ran, rfl⟩

theorem step_answered {slot : Slot} {choice : Choice} {op : Op} (next : c.pending slot = some op)
    (writes : op.writes = true) (moved : step ext settings c (.exec slot choice) = some after) :
    after.state = c.state ∨ ∃ index, choice = .answer index := by
  obtain ⟨op', rest, reply, -, next', ran, -⟩ := step_exec moved
  cases next.symm.trans next'
  cases op with
  | write _ | transact _ =>
    cases choice with
    | answer index => exact .inr ⟨index, rfl⟩
    | fail text => exact .inl (Prod.mk.inj (Option.some.inj ran)).2.symm
    | _ => cases ran
  | _ => cases writes

theorem step_db (moved : step ext settings c label = some after) :
    (after.state.db = c.state.db ∧ ∀ slot choice, label ≠ .exec slot choice) ∨
      (∃ slot choice op reply, label = .exec slot choice ∧ c.pending slot = some op ∧
        op.exec ext c.state reply after.state) ∨
      ∃ hostname affected, label = .boot hostname ∧
        (registerLocalAgent ext hostname).apply c.state.now c.state.db = .ok (affected, after.state.db) := by
  have moved := step_moved moved
  cases moved with
  | @exec slot choice op rest reply state next ran =>
    exact .inr (.inl ⟨slot, choice, op, reply, rfl, pending_eq_some.mpr ⟨rest, next⟩, choice, ran⟩)
  | @boot hostname affected db registered => exact .inr (.inr ⟨hostname, affected, rfl, registered⟩)
  | _ => exact .inl ⟨rfl, fun _ _ same => by cases same⟩

theorem registered_agents {hostname : String} {now : Timestamp} {db db' : Db} {affected : Nat}
    (registered : (registerLocalAgent ext hostname).apply now db = .ok (affected, db')) :
    ∃ agents, db' = { db with agents } := ⟨_, (Prod.mk.inj (Except.ok.inj registered)).2.symm⟩

private theorem registered_tables {hostname : String} {now : Timestamp} {db db' : Db} {affected : Nat}
    (registered : (registerLocalAgent ext hostname).apply now db = .ok (affected, db')) :
    db'.nodeRuns = db.nodeRuns ∧ db'.jobRuns = db.jobRuns ∧
      (AgentWrite.registerLocal hostname (ext.sha256Hex localAgentId)).apply now db.agents =
        .ok (affected, db'.agents) := by
  cases registered
  exact ⟨rfl, rfl, rfl⟩

theorem step_nodeRuns (moved : step ext settings c label = some after) :
    after.state.db.nodeRuns = c.state.db.nodeRuns ∨
      (∃ slot choice id change, label = .exec slot choice ∧
        c.pending slot = some (.write (.updateNode id change)) ∧
        after.state.db.nodeRuns = c.state.db.nodeRuns.updateAt id (change.apply c.state.now)) ∨
      ∃ slot choice node, label = .exec slot choice ∧
        c.pending slot = some (.write (.insertNode node)) ∧
        after.state.db.nodeRuns = c.state.db.nodeRuns.insert (node.row c.state.now) := by
  rcases step_db moved with ⟨same, -⟩ | ⟨slot, choice, op, reply, rfl, next, ran⟩ |
    ⟨hostname, affected, rfl, registered⟩
  · exact .inl (by rw [same])
  · rcases exec_nodeRuns ran with same | ⟨id, change, rfl, updated⟩ | ⟨node, rfl, inserted⟩
    · exact .inl same
    · exact .inr (.inl ⟨slot, choice, id, change, rfl, next, updated⟩)
    · exact .inr (.inr ⟨slot, choice, node, rfl, next, inserted⟩)
  · exact .inl (registered_tables registered).1

theorem step_jobRuns (moved : step ext settings c label = some after) :
    after.state.db.jobRuns = c.state.db.jobRuns ∨
      (∃ slot choice id change, label = .exec slot choice ∧
        c.pending slot = some (.write (.updateJob id change)) ∧
        after.state.db.jobRuns = c.state.db.jobRuns.updateAt id (change.apply c.state.now)) ∨
      (∃ slot choice id fromStatus, label = .exec slot choice ∧
        c.pending slot = some (.transact (.cancelRun id fromStatus)) ∧
        after.state.db.jobRuns =
          c.state.db.jobRuns.updateAt id (JobChange.cancelRequested.apply c.state.now)) ∨
      ∃ slot choice run, label = .exec slot choice ∧
        c.pending slot = some (.transact (.createRun run)) ∧
        after.state.db.jobRuns = c.state.db.jobRuns.insert (run.row c.state.now) := by
  rcases step_db moved with ⟨same, -⟩ | ⟨slot, choice, op, reply, rfl, next, ran⟩ |
    ⟨hostname, affected, rfl, registered⟩
  · exact .inl (by rw [same])
  · rcases exec_jobRuns ran with same | ⟨id, change, rfl, updated⟩ | ⟨id, fromStatus, rfl, updated⟩ |
      ⟨run, rfl, inserted⟩
    · exact .inl same
    · exact .inr (.inl ⟨slot, choice, id, change, rfl, next, updated⟩)
    · exact .inr (.inr (.inl ⟨slot, choice, id, fromStatus, rfl, next, updated⟩))
    · exact .inr (.inr (.inr ⟨slot, choice, run, rfl, next, inserted⟩))
  · exact .inl (registered_tables registered).2.1

theorem step_agents (moved : step ext settings c label = some after) :
    after.state.db.agents = c.state.db.agents ∨
      (∃ slot choice change affected, label = .exec slot choice ∧
        c.pending slot = some (.write (.agents change)) ∧
        change.apply c.state.now c.state.db.agents = .ok (affected, after.state.db.agents)) ∨
      ∃ hostname affected, label = .boot hostname ∧
        (AgentWrite.registerLocal hostname (ext.sha256Hex localAgentId)).apply c.state.now
          c.state.db.agents = .ok (affected, after.state.db.agents) := by
  rcases step_db moved with ⟨same, -⟩ | ⟨slot, choice, op, reply, rfl, next, ran⟩ |
    ⟨hostname, affected, rfl, registered⟩
  · exact .inl (by rw [same])
  · rcases exec_agents ran with same | ⟨change, affected, rfl, changed⟩
    · exact .inl same
    · exact .inr (.inl ⟨slot, choice, change, affected, rfl, next, changed⟩)
  · exact .inr (.inr ⟨hostname, affected, rfl, (registered_tables registered).2.2⟩)

/-! ## One thread -/

/-- What happens to one task in one step. -/
inductive ThreadStep (ext : External) (settings : Settings) (c : Config) (slot : Slot) :
    Label → State → Thread Sig Point → Prop where
  | same {label : Label} {state : State} (other : ∀ choice, label ≠ .exec slot choice) (here : label ≠ .resume slot)
      (stays : ∀ point, ¬Entry label slot point) : ThreadStep ext settings c slot label state (c.threads slot)
  | exec {choice : Choice} {op : Op} {rest : op.Reply → Proc Sig Empty Point} {reply : op.Reply}
      {state : State} (next : (c.threads slot).code = .call op rest)
      (ran : op.run ext choice c.state = some (reply, state)) :
      ThreadStep ext settings c slot (.exec slot choice) state ⟨(c.threads slot).point, rest reply⟩
  | resume {point : Point} {state : State} (ended : (c.threads slot).code = .done point) :
      ThreadStep ext settings c slot (.resume slot) state (enter ext settings point)
  | entered {label : Label} {point : Point} {state : State} (entry : Entry label slot point) :
      ThreadStep ext settings c slot label state (enter ext settings point)

theorem thread_step (moved : step ext settings c label = some after) (slot : Slot) :
    ThreadStep ext settings c slot label after.state (after.threads slot) := by
  cases step_moved moved with
  | @exec turn choice op rest reply state next ran =>
    by_cases same : slot = turn
    · subst same
      rw [Config.put_self]
      exact .exec next ran
    · rw [Config.put_ne _ _ same]
      exact .same (fun _ equal => same (by cases equal; rfl)) (by simp) fun _ entry => by cases entry
  | @resume turn point ended =>
    by_cases same : slot = turn
    · subst same
      rw [Config.put_self]
      exact .resume ended
    · rw [Config.put_ne _ _ same]
      exact .same (by simp) (fun equal => same (by cases equal; rfl)) fun _ entry => by cases entry
  | @spawn n task picked free =>
    by_cases isTask : slot = .localTask n
    · subst isTask
      rw [Config.put_self]
      exact .entered (.task n task)
    · rw [Config.put_ne _ _ isTask]
      by_cases isWorker : slot = .localWorker
      · subst isWorker
        rw [Config.put_self]
        exact .entered (.worker n)
      · rw [Config.put_ne _ _ isWorker]
        refine .same (by simp) (by simp) fun _ entry => ?_
        cases entry <;> contradiction
  | @receive n request free =>
    by_cases same : slot = .request n
    · subst same
      rw [Config.put_self]
      exact .entered (.receive n request)
    · rw [Config.put_ne _ _ same]
      refine .same (by simp) (by simp) fun _ entry => ?_
      cases entry
      contradiction
  | drop n =>
    by_cases same : slot = .request n
    · subst same
      rw [Config.put_self]
      exact .entered (.drop n)
    · rw [Config.put_ne _ _ same]
      refine .same (by simp) (by simp) fun _ entry => ?_
      cases entry
      contradiction
  | clock now => exact .same (by simp) (by simp) fun _ entry => by cases entry
  | edit path contents => exact .same (by simp) (by simp) fun _ entry => by cases entry
  | boot registered => exact .entered (.boot _ slot)

theorem Entry.hosted {slot : Slot} {point : Point} (entry : Entry label slot point) : slot.hosts point = true := by
  cases entry with
  | boot hostname slot => cases slot <;> rfl
  | drop n => rfl
  | _ => rfl

section
variable {start : Config} {admits : Config → Label → Prop} (idle : ∀ slot, start.threads slot = enter ext settings .idle)
include idle

theorem reached_part (run : (system ext settings).Reaches admits start c) (slot : Slot)
    (holds : Proc Sig Empty Point → Prop) (inherits : ∀ op rest, holds (.call op rest) → ∀ reply, holds (rest reply))
    (whole : holds (block ext settings (c.threads slot).point)) : holds (c.threads slot).code := by
  refine run.invariant (fun c => holds (block ext settings (c.threads slot).point) → holds (c.threads slot).code)
    ?_ ?_ whole
  · intro whole
    rw [idle] at whole ⊢
    exact whole
  · intro before label after ih _ moved whole
    have stepped := thread_step moved slot
    generalize after.threads slot = thread at stepped whole ⊢
    cases stepped with
    | same => exact ih whole
    | exec next ran =>
      have part := ih whole
      rw [next] at part
      exact inherits _ _ part _
    | resume => exact whole
    | entered => exact whole

/-- A task stays within what the block it entered was written to do. -/
theorem reached_confined (run : (system ext settings).Reaches admits start c) (slot : Slot) {allowed : Op → Prop}
    {ends : Point → Prop} (within : (block ext settings (c.threads slot).point).Within allowed ends) :
    (c.threads slot).code.Within allowed ends :=
  reached_part idle run slot (fun code => Proc.Within (I := Sig) allowed ends code) (fun _ _ within => within.2) within

end

/-! ## The scheduler's thread -/

inductive SchedulerStep (ext : External) (settings : Settings) (c : Config) :
    Label → State → Thread Sig Point → Prop where
  | same {label : Label} {state : State} (other : ∀ choice, label ≠ .exec .scheduler choice) :
      SchedulerStep ext settings c label state (c.threads .scheduler)
  | exec {choice : Choice} {op : Op} {rest : op.Reply → Proc Sig Empty Point} {reply : op.Reply}
      {state : State} (next : (c.threads .scheduler).code = .call op rest)
      (ran : op.run ext choice c.state = some (reply, state)) :
      SchedulerStep ext settings c (.exec .scheduler choice) state ⟨(c.threads .scheduler).point, rest reply⟩
  | resume {point : Point} {state : State} (ended : (c.threads .scheduler).code = .done point) :
      SchedulerStep ext settings c (.resume .scheduler) state (enter ext settings point)
  | boot {hostname : String} {state : State} :
      SchedulerStep ext settings c (.boot hostname) state (enter ext settings .schedulerTick)

theorem scheduler_step (moved : step ext settings c label = some after) :
    SchedulerStep ext settings c label after.state (after.threads .scheduler) := by
  cases step_moved moved with
  | @exec slot choice op rest reply state next ran =>
    by_cases isScheduler : slot = .scheduler
    · subst isScheduler
      rw [Config.put_self]
      exact .exec next ran
    · rw [Config.put_ne _ _ (Ne.symm isScheduler)]
      refine .same fun other same => ?_
      cases same
      exact isScheduler rfl
  | @resume slot point ended =>
    by_cases isScheduler : slot = .scheduler
    · subst isScheduler
      rw [Config.put_self]
      exact .resume ended
    · rw [Config.put_ne _ _ (Ne.symm isScheduler)]
      exact .same fun _ same => by cases same
  | boot registered => exact .boot
  | _ => exact .same fun _ same => by cases same

/-! ## Rows of `node_runs` -/

@[simp] theorem NodeChange.apply_jobRunId (change : NodeChange) (now : Timestamp) (node : NodeRun) :
    (change.apply now node).jobRunId = node.jobRunId := by
  cases change <;> simp only [NodeChange.apply]
  split <;> rfl

@[simp] theorem NodeChange.apply_nodeId (change : NodeChange) (now : Timestamp) (node : NodeRun) :
    (change.apply now node).nodeId = node.nodeId := by
  cases change <;> simp only [NodeChange.apply]
  split <;> rfl

inductive NodeStep (c : Config) (label : Label) (id : Nat) (node : NodeRun) : NodeRun → Prop where
  | same : NodeStep c label id node node
  | update (slot : Slot) (choice : Choice) (change : NodeChange) (executed : label = .exec slot choice)
      (next : c.pending slot = some (.write (.updateNode id change))) :
      NodeStep c label id node (change.apply c.state.now node)

theorem nodeStep (moved : step ext settings c label = some after) {id : Nat} {node : NodeRun}
    (found : c.state.db.nodeRuns.find id = some node) :
    ∃ node', after.state.db.nodeRuns.find id = some node' ∧ NodeStep c label id node node' := by
  rcases step_nodeRuns moved with same | ⟨slot, choice, other, change, rfl, next, updated⟩ |
    ⟨slot, choice, new, rfl, next, inserted⟩
  · exact ⟨node, by rw [same, found], .same⟩
  · by_cases here : id = other
    · subst here
      exact ⟨_, by rw [updated, Serial.find_updateAt_self, found]; rfl, .update slot choice change rfl next⟩
    · exact ⟨node, by rw [updated, Serial.find_updateAt_ne _ _ here, found], .same⟩
  · refine ⟨node, ?_, .same⟩
    rw [inserted, Serial.find_insert, if_neg (Nat.ne_of_lt (Serial.lt_next found)), found]

theorem nodeStep_new (moved : step ext settings c label = some after) {id : Nat} {node : NodeRun}
    (absent : c.state.db.nodeRuns.find id = none) (found : after.state.db.nodeRuns.find id = some node) :
    ∃ slot choice new, label = .exec slot choice ∧ c.pending slot = some (.write (.insertNode new)) ∧
      id = c.state.db.nodeRuns.next ∧ node = new.row c.state.now := by
  rcases step_nodeRuns moved with same | ⟨slot, choice, other, change, rfl, next, updated⟩ |
    ⟨slot, choice, new, rfl, next, inserted⟩
  · rw [same, absent] at found
    cases found
  · rw [updated, Serial.find_updateAt, absent, Option.map_none, ite_self] at found
    cases found
  · rw [inserted, Serial.find_insert, absent] at found
    split at found
    · rename_i isNext
      cases found
      exact ⟨slot, choice, new, rfl, next, isNext, rfl⟩
    · cases found

theorem step_serial (moved : step ext settings c label = some after) :
    c.state.db.nodeRuns.next ≤ after.state.db.nodeRuns.next := by
  rcases step_nodeRuns moved with same | ⟨_, _, _, _, -, -, same⟩ | ⟨_, _, _, -, -, same⟩
  · rw [same]
  · rw [same, Serial.next_updateAt]
  · rw [same, Serial.next_insert]
    exact Nat.le_succ _

/-! ## Rows of `job_runs` -/

inductive RunStep (c : Config) (label : Label) (id : Nat) (run : JobRun) : JobRun → Prop where
  | same : RunStep c label id run run
  | update (slot : Slot) (choice : Choice) (change : JobChange) (executed : label = .exec slot choice)
      (next : c.pending slot = some (.write (.updateJob id change))) :
      RunStep c label id run (change.apply c.state.now run)
  | cancel (slot : Slot) (choice : Choice) (fromStatus : JobStatus) (executed : label = .exec slot choice)
      (next : c.pending slot = some (.transact (.cancelRun id fromStatus))) :
      RunStep c label id run (JobChange.cancelRequested.apply c.state.now run)

theorem runStep (moved : step ext settings c label = some after) {id : Nat} {run : JobRun}
    (found : c.state.db.jobRuns.find id = some run) :
    ∃ run', after.state.db.jobRuns.find id = some run' ∧ RunStep c label id run run' := by
  rcases step_jobRuns moved with same | ⟨slot, choice, other, change, rfl, next, updated⟩ |
    ⟨slot, choice, other, fromStatus, rfl, next, updated⟩ | ⟨slot, choice, new, rfl, next, inserted⟩
  · exact ⟨run, by rw [same, found], .same⟩
  · by_cases here : id = other
    · subst here
      exact ⟨_, by rw [updated, Serial.find_updateAt_self, found]; rfl, .update slot choice change rfl next⟩
    · exact ⟨run, by rw [updated, Serial.find_updateAt_ne _ _ here, found], .same⟩
  · by_cases here : id = other
    · subst here
      exact ⟨_, by rw [updated, Serial.find_updateAt_self, found]; rfl,
        .cancel slot choice fromStatus rfl next⟩
    · exact ⟨run, by rw [updated, Serial.find_updateAt_ne _ _ here, found], .same⟩
  · refine ⟨run, ?_, .same⟩
    rw [inserted, Serial.find_insert, if_neg (Nat.ne_of_lt (Serial.lt_next found)), found]

theorem runStep_born (moved : step ext settings c label = some after) {id : Nat} {row : JobRun}
    (absent : c.state.db.jobRuns.find id = none) (found : after.state.db.jobRuns.find id = some row) :
    ∃ slot choice new, label = .exec slot choice ∧ c.pending slot = some (.transact (.createRun new)) ∧
      id = c.state.db.jobRuns.next ∧ row = new.row c.state.now := by
  rcases step_jobRuns moved with same | ⟨_, _, _, _, -, -, updated⟩ | ⟨_, _, _, _, -, -, updated⟩ |
    ⟨slot, choice, new, rfl, next, inserted⟩
  · rw [same, absent] at found
    cases found
  · rw [updated, Serial.find_updateAt, absent, Option.map_none, ite_self] at found
    cases found
  · rw [updated, Serial.find_updateAt, absent, Option.map_none, ite_self] at found
    cases found
  · rw [inserted, Serial.find_insert, absent] at found
    split at found
    · rename_i isNext
      cases found
      exact ⟨slot, choice, new, rfl, next, isNext, rfl⟩
    · cases found

theorem runStep_new (moved : step ext settings c label = some after) {id : Nat} {run : JobRun}
    (absent : c.state.db.jobRuns.find id = none) (found : after.state.db.jobRuns.find id = some run) :
    run.status = .queued := by
  obtain ⟨_, _, new, -, -, -, rfl⟩ := runStep_born moved absent found
  rfl

/-! ## Foreign keys -/

def Db.Linked (db : Db) : Prop := ∀ id node, db.nodeRuns.find id = some node → db.hasRun node.jobRunId = true

theorem hasNode_updateAt {before after : Db} {id other : Nat} {change : NodeRun → NodeRun}
    (updated : after.nodeRuns = before.nodeRuns.updateAt id change) (there : before.hasNode other = true) :
    after.hasNode other = true := by
  unfold Db.hasNode at there ⊢
  rw [updated, Serial.find_updateAt]
  split
  · rw [Option.isSome_map]
    exact there
  · exact there

theorem step_hasRun (moved : step ext settings c label = some after) {runId : Nat}
    (exist : c.state.db.hasRun runId = true) : after.state.db.hasRun runId = true := by
  obtain ⟨run, found⟩ := Option.isSome_iff_exists.mp exist
  obtain ⟨run', found', -⟩ := runStep moved found
  rw [Db.hasRun, found']
  rfl

theorem step_linked (moved : step ext settings c label = some after) (linked : c.state.db.Linked) :
    after.state.db.Linked := by
  intro id node found
  cases old : c.state.db.nodeRuns.find id with
  | some before =>
    obtain ⟨node', found', changed⟩ := nodeStep moved old
    cases found.symm.trans found'
    have same : node.jobRunId = before.jobRunId := by
      cases changed with
      | same => rfl
      | update _ _ change _ _ => exact change.apply_jobRunId _ _
    rw [same]
    exact step_hasRun moved (linked id before old)
  | none =>
    obtain ⟨slot, choice, new, rfl, next, -, rfl⟩ := nodeStep_new moved old found
    obtain ⟨op, rest, reply, -, next', ran, -⟩ := step_exec moved
    cases next.symm.trans next'
    rcases exec_write ⟨choice, ran⟩ with ⟨-, same⟩ | ⟨result, db, applied, -, -⟩
    · rw [same, old] at found
      cases found
    · simp only [Write.apply] at applied
      split at applied
      · cases applied
      · split at applied
        · cases applied
        · split at applied
          · cases applied
          · rename_i exist
            rw [Bool.not_eq_true, Bool.not_eq_false'] at exist
            exact step_hasRun moved exist

theorem reaches_linked {files : String → Option String} {clock : Nat} {admits : Config → Label → Prop}
    (run : (system ext settings).Reaches admits (Config.initial ext settings files clock) c) : c.state.db.Linked :=
  run.invariant (fun c => c.state.db.Linked) (fun _ _ found => by cases found)
    fun _ _ _ linked _ moved => step_linked moved linked

end PostJen.Server
