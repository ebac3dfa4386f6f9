import PostJen.Server.Facts

/-! How the rows of the database refer to one another.

The foreign keys only ask for existence. That the rows agree as well follows
from what the tasks know when they insert them.
-/

set_option autoImplicit false

open PostJen.Foundations PostJen.Core

namespace PostJen.Server

/-- A run belongs to its definition, and a rerun to an older run of the same job. -/
def JobRun.Sound (db : Db) (id : Nat) (run : JobRun) : Prop :=
  (Fact.definition run.jobDefinitionId run.jobId).holds db ∧
    ∀ source, run.rerunOfJobRunId = some source →
      source < id ∧ (Fact.run source run.jobDefinitionId run.jobId).holds db

def NodeRun.Sound (db : Db) (node : NodeRun) : Prop := db.hasRun node.jobRunId = true ∧ 0 < node.timeoutSec

def RunEvent.Sound (db : Db) (event : RunEvent) : Prop :=
  db.hasRun event.jobRunId = true ∧ ∀ id, event.nodeRunId = some id → (Fact.node event.jobRunId id).holds db

def RunLog.Sound (db : Db) (log : RunLog) : Prop :=
  log.stream ∈ ["stdout", "stderr", "system"] ∧ ∃ id, log.nodeRunId = some id ∧ (Fact.node log.jobRunId id).holds db

def RunArtifact.Sound (db : Db) (artifact : RunArtifact) : Prop :=
  (Fact.node artifact.jobRunId artifact.nodeRunId).holds db

/-- Every reference leads to a row that agrees with the one it stands in. -/
structure Db.Integral (db : Db) : Prop where
  jobIds : db.jobDefinitions.Unique JobDefinitionRow.jobId
  nodeIds : db.nodeRuns.Unique fun node => (node.jobRunId, node.nodeId)
  runs : ∀ entry ∈ db.jobRuns.rows, entry.2.Sound db entry.1
  nodes : ∀ entry ∈ db.nodeRuns.rows, entry.2.Sound db
  events : ∀ entry ∈ db.runEvents.rows, entry.2.Sound db
  logs : ∀ entry ∈ db.runLogs.rows, entry.2.Sound db
  artifacts : ∀ entry ∈ db.runArtifacts.rows, entry.2.Sound db

theorem Db.hasRun_extends {db db' : Db} (extended : db.Extends db') {runId : Nat} (exists' : db.hasRun runId = true) :
    db'.hasRun runId = true := by
  obtain ⟨run, found⟩ := Option.isSome_iff_exists.mp exists'
  obtain ⟨run', found', -⟩ := extended.runs.find found
  exact Option.isSome_iff_exists.mpr ⟨run', found'⟩

namespace Db.Integral

variable {db db' : Db} {now : Timestamp}

theorem empty : Db.empty.Integral where
  jobIds := .nil
  nodeIds := .nil
  runs := fun _ member => by cases member
  nodes := fun _ member => by cases member
  events := fun _ member => by cases member
  logs := fun _ member => by cases member
  artifacts := fun _ member => by cases member

theorem next (integral : db.Integral) (extended : db.Extends db')
    (jobIds : db'.jobDefinitions.Unique JobDefinitionRow.jobId)
    (nodeIds : db'.nodeRuns.Unique fun node => (node.jobRunId, node.nodeId))
    (runs : db.jobRuns.Renewed JobRun.snapshot (fun entry => entry.2.Sound db' entry.1) db'.jobRuns)
    (nodes : db.nodeRuns.Renewed NodeRun.snapshot (fun entry => entry.2.Sound db') db'.nodeRuns)
    (events : db.runEvents.Renewed id (fun entry => entry.2.Sound db') db'.runEvents)
    (logs : db.runLogs.Renewed id (fun entry => entry.2.Sound db') db'.runLogs)
    (artifacts : db.runArtifacts.Renewed id (fun entry => entry.2.Sound db') db'.runArtifacts) : db'.Integral where
  jobIds
  nodeIds
  runs := by
    intro entry member
    rcases runs entry member with ⟨old, inside, same, kept⟩ | new
    · obtain ⟨definition, rerun⟩ := integral.runs old inside
      show entry.2.snapshot.Sound db' entry.1
      rw [kept, same]
      exact ⟨Fact.holds_extends extended definition, fun source named =>
        ⟨(rerun source named).1, Fact.holds_extends extended (rerun source named).2⟩⟩
    · exact new
  nodes := by
    intro entry member
    rcases nodes entry member with ⟨old, inside, -, kept⟩ | new
    · obtain ⟨exist, positive⟩ := integral.nodes old inside
      show entry.2.snapshot.Sound db'
      rw [kept]
      exact ⟨Db.hasRun_extends extended exist, positive⟩
    · exact new
  events := by
    intro entry member
    rcases events entry member with ⟨old, inside, -, kept⟩ | new
    · obtain ⟨exist, node⟩ := integral.events old inside
      rw [show entry.2 = old.2 from kept]
      exact ⟨Db.hasRun_extends extended exist, fun id named => Fact.holds_extends extended (node id named)⟩
    · exact new
  logs := by
    intro entry member
    rcases logs entry member with ⟨old, inside, -, kept⟩ | new
    · obtain ⟨stream, id, named, node⟩ := integral.logs old inside
      rw [show entry.2 = old.2 from kept]
      exact ⟨stream, id, named, Fact.holds_extends extended node⟩
    · exact new
  artifacts := by
    intro entry member
    rcases artifacts entry member with ⟨old, inside, -, kept⟩ | new
    · rw [show entry.2 = old.2 from kept]
      exact Fact.holds_extends extended (integral.artifacts old inside)
    · exact new

theorem still (integral : db.Integral) (extended : db.Extends db') (jobs : db'.jobDefinitions = db.jobDefinitions)
    (runs : db.jobRuns.Renewed JobRun.snapshot (fun entry => entry.2.Sound db' entry.1) db'.jobRuns)
    (nodes : db'.nodeRuns = db.nodeRuns)
    (events : db.runEvents.Renewed id (fun entry => entry.2.Sound db') db'.runEvents)
    (logs : db.runLogs.Renewed id (fun entry => entry.2.Sound db') db'.runLogs)
    (artifacts : db.runArtifacts.Renewed id (fun entry => entry.2.Sound db') db'.runArtifacts) : db'.Integral :=
  integral.next extended (jobs ▸ integral.jobIds) (nodes ▸ integral.nodeIds) runs (nodes ▸ Serial.renewed_same)
    events logs artifacts

theorem write (integral : db.Integral) {write : Write} {result : Nat} (applied : write.apply now db = .ok (result, db'))
    (needed : ∀ fact, (Op.write write).needs fact → fact.holds db) : db'.Integral := by
  have extended := write_extends applied
  cases write with
  | insertNode node =>
    simp only [Write.apply] at applied
    repeat' split at applied
    all_goals cases applied
    rename_i timed fresh exist
    rw [Bool.not_eq_true, Bool.not_eq_false'] at exist
    refine integral.next extended integral.jobIds (integral.nodeIds.insert fun entry member same => ?_)
      Serial.renewed_same (Serial.renewed_insert ⟨exist, Nat.pos_of_ne_zero timed⟩) Serial.renewed_same
      Serial.renewed_same Serial.renewed_same
    obtain ⟨run, key⟩ := Prod.mk.inj same
    exact fresh (List.any_eq_true.mpr ⟨entry, member, by simp [show entry.2.jobRunId = node.jobRunId from run,
      show entry.2.nodeId = node.nodeId from key]⟩)
  | updateNode id change =>
    cases applied
    refine integral.next extended integral.jobIds (integral.nodeIds.updateAt fun row => ?_) Serial.renewed_same
      (Serial.renewed_updateAt (change.apply_snapshot now)) Serial.renewed_same Serial.renewed_same Serial.renewed_same
    rw [NodeChange.apply_jobRunId, NodeChange.apply_nodeId]
  | updateJob id change =>
    cases applied
    exact integral.still extended rfl (Serial.renewed_updateAt (change.apply_snapshot now)) rfl Serial.renewed_same
      Serial.renewed_same Serial.renewed_same
  | agents write =>
    simp only [Write.apply] at applied
    split at applied
    · cases applied
    · cases applied
      exact integral.still extended rfl Serial.renewed_same rfl Serial.renewed_same Serial.renewed_same Serial.renewed_same
  | event new =>
    simp only [Write.apply] at applied
    split at applied <;> cases applied
    rename_i exist
    simp only [Bool.or_eq_true, Bool.not_eq_true', not_or, Bool.not_eq_false] at exist
    exact integral.still extended rfl Serial.renewed_same rfl
      (Serial.renewed_insert ⟨exist.1, fun id named => needed _ ⟨id, named, rfl⟩⟩) Serial.renewed_same Serial.renewed_same
  | log new =>
    simp only [Write.apply] at applied
    repeat' split at applied
    all_goals cases applied
    rename_i stream exist
    exact integral.still extended rfl Serial.renewed_same rfl Serial.renewed_same
      (Serial.renewed_insert ⟨not_not.mp stream, _, rfl, needed _ rfl⟩) Serial.renewed_same
  | artifact new =>
    simp only [Write.apply] at applied
    split at applied <;> cases applied
    exact integral.still extended rfl Serial.renewed_same rfl Serial.renewed_same Serial.renewed_same
      (Serial.renewed_insert (needed _ rfl))
  | secret name value | deleteSecret name =>
    cases applied
    exact integral.still extended rfl Serial.renewed_same rfl Serial.renewed_same Serial.renewed_same Serial.renewed_same

theorem newRun (integral : db.Integral) {new : NewRun}
    (needed : ∀ fact, (Op.transact (.createRun new)).needs fact → fact.holds db) :
    (new.row now).Sound db db.jobRuns.next := by
  cases rerun : new.rerunOfJobRunId with
  | none =>
    refine ⟨needed (.definition new.jobDefinitionId new.jobId) (by simp [Op.needs, rerun]), ?_⟩
    rintro source same
    cases rerun.symm.trans same
  | some source =>
    have known := needed (.run source new.jobDefinitionId new.jobId) (by simp [Op.needs, rerun])
    obtain ⟨run, found, id, job⟩ := known
    have sound := (integral.runs (source, run) (Serial.find_eq_some.mp found)).1
    refine ⟨?_, ?_⟩
    · rw [id, job] at sound
      exact sound
    · rintro other same
      cases rerun.symm.trans same
      exact ⟨Serial.lt_next found, run, found, id, job⟩

theorem transaction (integral : db.Integral) {transaction : Transaction} {row : transaction.Row}
    (applied : transaction.apply now db = .ok (row, db'))
    (needed : ∀ fact, (Op.transact transaction).needs fact → fact.holds db) : db'.Integral := by
  have extended := transaction_extends applied
  cases transaction with
  | createRun new =>
    have sound : (new.row now).Sound db db.jobRuns.next := integral.newRun needed
    simp only [Transaction.apply] at applied
    split at applied <;> cases applied
    have exist : (db.jobRuns.insert (new.row now)).find db.jobRuns.next = some (new.row now) := by
      rw [Serial.find_insert, if_pos rfl]
    refine integral.next extended ?_ integral.nodeIds (Serial.renewed_insert ?_) Serial.renewed_same
      (Serial.renewed_insert ⟨Option.isSome_iff_exists.mpr ⟨_, exist⟩, fun id named => by cases named⟩)
      Serial.renewed_same Serial.renewed_same
    · dsimp only
      split
      · exact integral.jobIds
      · exact integral.jobIds.updateAt fun _ => rfl
    · exact ⟨Fact.holds_extends extended sound.1, fun source named =>
        ⟨(sound.2 source named).1, Fact.holds_extends extended (sound.2 source named).2⟩⟩
  | cancelRun runId fromStatus =>
    simp only [Transaction.apply] at applied
    split at applied <;> cases applied
    rename_i exist
    rw [Bool.not_eq_true, Bool.not_eq_false'] at exist
    exact integral.still extended rfl (Serial.renewed_updateAt (JobChange.cancelRequested.apply_snapshot now)) rfl
      (Serial.renewed_insert ⟨Db.hasRun_extends extended exist, fun id named => by cases named⟩)
      Serial.renewed_same Serial.renewed_same
  | registerJob definition =>
    simp only [Transaction.apply] at applied
    split at applied
    · rename_i none
      cases applied
      refine integral.next extended (integral.jobIds.insert fun entry member same => ?_) integral.nodeIds
        Serial.renewed_same Serial.renewed_same Serial.renewed_same Serial.renewed_same Serial.renewed_same
      exact List.find?_eq_none.mp none entry member (decide_eq_true same)
    · cases applied
      exact integral.next extended (integral.jobIds.updateAt fun _ => rfl) integral.nodeIds
        Serial.renewed_same Serial.renewed_same Serial.renewed_same Serial.renewed_same Serial.renewed_same

end Db.Integral

/-! ## Runs of the server -/

section
variable {ext : External} {settings : Settings} {c after : Config} {label : Label}

theorem select_teaches {query : Select} {s s' : State} {reply : Except SqlError query.Row}
    (ran : (Op.select query).exec ext s reply s') {fact : Fact} (taught : (Op.select query).teaches reply fact) :
    fact.holds s'.db := by
  obtain ⟨rfl, ⟨why, rfl⟩ | ⟨row, member, rfl⟩⟩ := exec_select ran
  · cases query <;> exact taught.elim
  · cases query with
    | queuedTask agentId =>
      cases row with
      | none => exact taught.elim
      | some task =>
        cases taught
        obtain ⟨picked, listed, same⟩ := List.mem_map.mp member
        obtain ⟨⟨stamp, other⟩, rfl, rfl⟩ := Option.map_eq_some_iff.mp same
        obtain ⟨⟨id, node⟩, inside, found⟩ := List.mem_filterMap.mp (mem_limitOne listed)
        dsimp only at found
        split at found
        · obtain ⟨task, made, rest⟩ := Option.map_eq_some_iff.mp found
          obtain ⟨run, -, rfl⟩ := Option.map_eq_some_iff.mp made
          cases rest
          exact ⟨node, Serial.find_eq_some.mpr inside, rfl⟩
        · cases found
    | offlineNodes =>
      obtain ⟨node, listed, rfl⟩ := taught
      have order := (List.mem_permutations'.mp member).mem_iff.mp listed
      obtain ⟨⟨id, row⟩, inside, rfl⟩ := List.mem_map.mp order
      exact ⟨row, Serial.find_eq_some.mpr (List.mem_of_mem_filter inside), rfl⟩
    | nodeJobRun id =>
      cases row with
      | none => exact taught.elim
      | some runId =>
        cases taught
        obtain ⟨node, found, same⟩ := Option.map_eq_some_iff.mp (List.mem_singleton.mp member).symm
        exact ⟨node, found, same⟩
    | jobForRun jobId =>
      cases row with
      | none => exact taught.elim
      | some job =>
        cases taught
        obtain ⟨⟨id, row⟩, inside, rfl⟩ := List.mem_map.mp (mem_anyOne member)
        exact ⟨row, Serial.find_eq_some.mpr (List.mem_of_mem_filter inside), rfl⟩
    | cronJobs =>
      obtain ⟨job, listed, rfl⟩ := taught
      obtain ⟨⟨id, row⟩, inside, rfl⟩ := List.mem_map.mp ((List.mem_permutations'.mp member).mem_iff.mp listed)
      exact ⟨row, Serial.find_eq_some.mpr (List.mem_of_mem_filter inside), rfl⟩
    | runForRerun runId =>
      cases row with
      | none => exact taught.elim
      | some source =>
        cases taught
        obtain ⟨run, found, rfl⟩ := Option.map_eq_some_iff.mp (List.mem_singleton.mp member).symm
        exact ⟨run, found, rfl, rfl⟩
    | _ => exact taught.elim

theorem exec_teaches {op : Op} {s s' : State} {reply : op.Reply} (ran : op.exec ext s reply s') {fact : Fact}
    (taught : op.teaches reply fact) : fact.holds s'.db := by
  cases op with
  | select query => exact select_teaches ran taught
  | write write =>
    cases write with
    | insertNode node =>
      rcases exec_insertNode ran with ⟨⟨why, rfl⟩, -⟩ | ⟨rfl, -, inserted⟩
      · exact taught.elim
      · cases taught
        refine ⟨node.row s.now, ?_, rfl⟩
        rw [inserted, Serial.find_insert, if_pos rfl]
    | _ => exact taught.elim
  | _ => exact taught.elim

def Thread.Informed (db : Db) (thread : Thread Sig Point) : Prop :=
  thread.code.Informed knowledge (fun next later => ∀ fact, next.knows fact → later fact) fun fact => fact.holds db

theorem informed_extends {db db' : Db} (extended : db.Extends db') {thread : Thread Sig Point}
    (informed : Thread.Informed db thread) : Thread.Informed db' thread :=
  Proc.Informed.mono informed (fun _ => Fact.holds_extends extended) fun _ _ _ grows _ ends fact knows =>
    grows fact (ends fact knows)

theorem informed_enter {db : Db} {point : Point} (covers : ∀ fact, point.knows fact → fact.holds db) :
    Thread.Informed db (enter ext settings point) := Facts.informed_block point covers

theorem informed_done {db : Db} {thread : Thread Sig Point} {point : Point} (ended : thread.code = .done point)
    (informed : Thread.Informed db thread) : ∀ fact, point.knows fact → fact.holds db := by
  rw [Thread.Informed, ended] at informed
  exact informed

theorem informed_put {state : State} {threads : Slot → Thread Sig Point} {slot : Slot} {thread : Thread Sig Point}
    (here : Thread.Informed state.db thread) (others : ∀ other, Thread.Informed state.db (threads other)) :
    ∀ other, Thread.Informed state.db ((Config.put ⟨state, threads⟩ slot thread).threads other) := by
  intro other
  by_cases same : other = slot
  · subst same
    rw [Config.put_self]
    exact here
  · rw [Config.put_ne _ _ same]
    exact others other

theorem step_informed (moved : step ext settings c label = some after)
    (informed : ∀ slot, Thread.Informed c.state.db (c.threads slot)) :
    ∀ slot, Thread.Informed after.state.db (after.threads slot) := by
  have extended := step_extends moved
  cases step_moved moved with
  | @exec slot choice op rest reply state next ran =>
    refine informed_put ?_ fun other => informed_extends extended (informed other)
    have continues := informed slot
    rw [Thread.Informed, next] at continues
    refine (continues.2 reply).mono ?_ fun _ _ _ grows _ ends fact knows => grows fact (ends fact knows)
    rintro fact (known | taught)
    · exact Fact.holds_extends extended known
    · exact exec_teaches ⟨choice, ran⟩ taught
  | @resume slot point ended => exact informed_put (informed_enter (informed_done ended (informed slot))) informed
  | @spawn n task picked free =>
    refine informed_put ?_ (informed_put (informed_enter fun _ knows => knows.elim) informed)
    have known := informed_done picked (informed .localWorker)
    exact informed_enter known
  | receive free => exact informed_put (informed_enter fun _ knows => knows.elim) informed
  | drop n => exact informed_put (informed_enter fun _ knows => knows.elim) informed
  | clock now => exact informed
  | edit path contents => exact informed
  | boot registered =>
    intro slot
    refine informed_enter fun fact knows => ?_
    cases slot <;> exact knows.elim

theorem step_integral (moved : step ext settings c label = some after)
    (informed : ∀ slot, Thread.Informed c.state.db (c.threads slot)) (integral : c.state.db.Integral) :
    after.state.db.Integral := by
  rcases step_db moved with ⟨same, -⟩ | ⟨slot, choice, op, reply, rfl, next, ran⟩ | ⟨hostname, affected, -, registered⟩
  · rw [same]
    exact integral
  · have needed : ∀ fact, op.needs fact → fact.holds c.state.db := by
      obtain ⟨rest, code⟩ := pending_eq_some.mp next
      have here := informed slot
      rw [Thread.Informed, code] at here
      exact here.1
    cases op with
    | write write =>
      rcases exec_write ran with ⟨-, same⟩ | ⟨result, db, applied, -, same⟩
      · rw [same]
        exact integral
      · rw [same]
        exact integral.write applied needed
    | transact transaction =>
      rcases exec_transact ran with ⟨-, same⟩ | ⟨result, db, applied, -, same⟩
      · rw [same]
        exact integral
      · rw [same]
        exact integral.transaction applied needed
    | _ =>
      rw [exec_reads rfl ran]
      exact integral
  · exact integral.write registered fun fact needed => needed.elim

variable {files : String → Option String} {clock : Nat}

/-- In every reachable state, whatever is interleaved: ids of jobs, and of the nodes of a run, are unique; a run has the
job id of its definition, and a rerun repeats an older run of the same definition; every node run, event, log and
artifact belongs to a run that exists, and one that names a node run names one of its own run. -/
theorem references_agree (run : (system ext settings).Reaches everything (Config.initial ext settings files clock) c) :
    c.state.db.Integral := by
  have kept := run.invariant
    (fun c => (∀ slot, Thread.Informed c.state.db (c.threads slot)) ∧ c.state.db.Integral) ⟨fun slot => ?_, .empty⟩ ?_
  · exact kept.2
  · exact informed_enter fun _ knows => knows.elim
  · rintro before label after ⟨informed, integral⟩ - moved
    exact ⟨step_informed moved informed, step_integral moved informed integral⟩

end

/-- A rerun that was created while the first run is driven. -/
theorem references_agree_rerun : ∃ c, (system Sample.ext Sample.settings).Reaches everything Sample.initial c ∧
    (∃ run, c.state.db.jobRuns.find 2 = some run ∧ run.rerunOfJobRunId = some 1) ∧ c.state.db.nodeRuns.rows.length = 3 ∧
    c.state.db.Integral := by
  have passed : (Sample.run (fun _ _ => true) (Sample.started "fork.yaml" "fork" ++ Sample.serve 2 (.rerunRun 1) 2 ++
      Sample.block 1 ++ Sample.block 7)).any (fun c =>
        ((c.state.db.jobRuns.find 2).any fun run => run.rerunOfJobRunId = some 1) &&
          c.state.db.nodeRuns.rows.length = 3) = true := by
    decide +kernel
  obtain ⟨c, reached, holds⟩ := Sample.arrives passed
  rw [Bool.and_eq_true, decide_eq_true_eq] at holds
  have freely := reached.mono fun _ _ _ => trivial
  obtain ⟨run, found, source⟩ := (Option.any_eq_true _ _).mp holds.1
  exact ⟨c, freely, ⟨run, found, of_decide_eq_true source⟩, holds.2, references_agree freely⟩

end PostJen.Server
