import PostJen.Foundations.Growth
import PostJen.Server.Snapshot
import PostJen.Server.Views

/-! What later states of the database keep of an earlier one.

No statement deletes a row of a run or rewrites a column that an INSERT has
described it with; events, logs and artifacts are not rewritten at all. So a
client that reads a run again sees an extension of what it has seen.
-/

set_option autoImplicit false

open PostJen.Foundations PostJen.Core

namespace PostJen.Server

theorem JobRun.createdAt_of_snapshot {run run' : JobRun} (same : run'.snapshot = run.snapshot) :
    run'.createdAt = run.createdAt := by
  show run'.snapshot.createdAt = run.snapshot.createdAt
  rw [same]

theorem NodeRun.createdAt_of_snapshot {row row' : NodeRun} (same : row'.snapshot = row.snapshot) :
    row'.createdAt = row.createdAt := by
  show row'.snapshot.createdAt = row.snapshot.createdAt
  rw [same]

/-- What an UPDATE of a run leaves: the time of its start is not rewritten, and the
times of a cancel request and of an end stay set. -/
structure JobRun.Precedes (before after : JobRun) : Prop where
  started : ∀ time, before.startedAt = some time → after.startedAt = some time
  canceled : before.cancelRequestedAt.isSome → after.cancelRequestedAt.isSome
  finished : before.finishedAt.isSome → after.finishedAt.isSome

theorem JobRun.Precedes.refl (run : JobRun) : run.Precedes run :=
  ⟨fun _ started => started, fun canceled => canceled, fun finished => finished⟩

theorem JobRun.Precedes.trans {first second third : JobRun} (one : first.Precedes second) (two : second.Precedes third) :
    first.Precedes third where
  started := fun time started => two.started time (one.started time started)
  canceled := fun canceled => two.canceled (one.canceled canceled)
  finished := fun finished => two.finished (one.finished finished)

theorem JobChange.apply_precedes (change : JobChange) (now : Timestamp) (run : JobRun) :
    run.Precedes (change.apply now run) := by
  cases change with
  | running fromStatus =>
    simp only [JobChange.apply]
    split
    · exact ⟨fun time started => by rw [started, Option.getD_some], fun canceled => canceled, fun finished => finished⟩
    · exact .refl run
  | failBeforeStart reason =>
    exact ⟨fun time started => by simp only [JobChange.apply, started, Option.getD_some], fun canceled => canceled, fun _ => rfl⟩
  | finished toStatus message => exact ⟨fun _ started => started, fun canceled => canceled, fun _ => rfl⟩
  | cancelRequested => exact ⟨fun _ started => started, fun _ => rfl, fun finished => finished⟩
  | status toStatus => exact ⟨fun _ started => started, fun canceled => canceled, fun finished => finished⟩

/-- What all later states keep. -/
structure Db.Extends (before after : Db) : Prop where
  definitions : before.jobDefinitions.Grows (fun job => (job.jobId, job.createdAt)) after.jobDefinitions
  runs : before.jobRuns.Grows JobRun.snapshot after.jobRuns
  nodes : before.nodeRuns.Grows NodeRun.snapshot after.nodeRuns
  events : before.runEvents.Grows id after.runEvents
  logs : before.runLogs.Grows id after.runLogs
  artifacts : before.runArtifacts.Grows id after.runArtifacts
  progress : ∀ id run, before.jobRuns.find id = some run →
    ∃ run', after.jobRuns.find id = some run' ∧ run.Precedes run'

namespace Db.Extends

variable {before middle after : Db}

theorem refl (db : Db) : db.Extends db where
  definitions := .refl _
  runs := .refl _
  nodes := .refl _
  events := .refl _
  logs := .refl _
  artifacts := .refl _
  progress := fun _ run found => ⟨run, found, .refl run⟩

theorem trans (first : before.Extends middle) (second : middle.Extends after) : before.Extends after where
  definitions := first.definitions.trans second.definitions
  runs := first.runs.trans second.runs
  nodes := first.nodes.trans second.nodes
  events := first.events.trans second.events
  logs := first.logs.trans second.logs
  artifacts := first.artifacts.trans second.artifacts
  progress := by
    intro id run found
    obtain ⟨run', found', precedes⟩ := first.progress id run found
    obtain ⟨run'', found'', precedes'⟩ := second.progress id run' found'
    exact ⟨run'', found'', precedes.trans precedes'⟩

theorem sameRuns (definitions : after.jobDefinitions = before.jobDefinitions) (runs : after.jobRuns = before.jobRuns)
    (nodes : before.nodeRuns.Grows NodeRun.snapshot after.nodeRuns) (events : before.runEvents.Grows id after.runEvents)
    (logs : before.runLogs.Grows id after.runLogs) (artifacts : before.runArtifacts.Grows id after.runArtifacts) :
    before.Extends after where
  definitions := definitions ▸ .refl _
  runs := runs ▸ .refl _
  nodes
  events
  logs
  artifacts
  progress := fun id run found => ⟨run, by rw [runs, found], .refl run⟩

end Db.Extends

/-! ## Statements -/

private theorem progress_updateAt {t : Serial JobRun} {id other : Nat} {run : JobRun} {change : JobChange} {now : Timestamp}
    (found : t.find id = some run) :
    ∃ run', (t.updateAt other (change.apply now)).find id = some run' ∧ run.Precedes run' := by
  rw [Serial.find_updateAt, found]
  split
  · exact ⟨_, rfl, change.apply_precedes now run⟩
  · exact ⟨run, rfl, .refl run⟩

private theorem progress_insert {t : Serial JobRun} {id : Nat} {run new : JobRun} (found : t.find id = some run) :
    ∃ run', (t.insert new).find id = some run' ∧ run.Precedes run' := by
  refine ⟨run, ?_, .refl run⟩
  rw [Serial.find_insert, if_neg (Nat.ne_of_lt (Serial.lt_next found)), found]

theorem write_extends {write : Write} {now : Timestamp} {db db' : Db} {result : Nat}
    (applied : write.apply now db = .ok (result, db')) : db.Extends db' := by
  cases write with
  | insertNode node =>
    simp only [Write.apply] at applied
    repeat' split at applied
    all_goals cases applied
    exact .sameRuns rfl rfl (Serial.grows_insert _ _) (.refl _) (.refl _) (.refl _)
  | updateNode id change =>
    cases applied
    exact .sameRuns rfl rfl (Serial.grows_updateAt _ (change.apply_snapshot now)) (.refl _) (.refl _) (.refl _)
  | updateJob id change =>
    cases applied
    exact ⟨.refl _, Serial.grows_updateAt _ (change.apply_snapshot now), .refl _, .refl _, .refl _, .refl _,
      fun _ _ found => progress_updateAt found⟩
  | agents write =>
    simp only [Write.apply] at applied
    split at applied
    · cases applied
    · cases applied
      exact .sameRuns rfl rfl (.refl _) (.refl _) (.refl _) (.refl _)
  | event new =>
    simp only [Write.apply] at applied
    split at applied <;> cases applied
    exact .sameRuns rfl rfl (.refl _) (Serial.grows_insert _ _) (.refl _) (.refl _)
  | log new =>
    simp only [Write.apply] at applied
    repeat' split at applied
    all_goals cases applied
    exact .sameRuns rfl rfl (.refl _) (.refl _) (Serial.grows_insert _ _) (.refl _)
  | artifact new =>
    simp only [Write.apply] at applied
    split at applied <;> cases applied
    exact .sameRuns rfl rfl (.refl _) (.refl _) (.refl _) (Serial.grows_insert _ _)
  | secret name value =>
    cases applied
    exact .sameRuns rfl rfl (.refl _) (.refl _) (.refl _) (.refl _)
  | deleteSecret name =>
    cases applied
    exact .sameRuns rfl rfl (.refl _) (.refl _) (.refl _) (.refl _)

theorem transaction_extends {transaction : Transaction} {now : Timestamp} {db db' : Db} {row : transaction.Row}
    (applied : transaction.apply now db = .ok (row, db')) : db.Extends db' := by
  cases transaction with
  | createRun run =>
    simp only [Transaction.apply] at applied
    split at applied <;> cases applied
    refine ⟨?_, Serial.grows_insert _ _, .refl _, Serial.grows_insert _ _, .refl _, .refl _,
      fun _ _ found => progress_insert found⟩
    -- A cron run stamps its definition.
    dsimp only
    split
    · exact .refl _
    · exact Serial.grows_updateAt _ fun _ => rfl
  | cancelRun runId fromStatus =>
    simp only [Transaction.apply] at applied
    split at applied <;> cases applied
    exact ⟨.refl _, Serial.grows_updateAt _ (JobChange.cancelRequested.apply_snapshot now), .refl _,
      Serial.grows_insert _ _, .refl _, .refl _, fun _ _ found => progress_updateAt found⟩
  | registerJob definition =>
    simp only [Transaction.apply] at applied
    split at applied
    · cases applied
      exact ⟨Serial.grows_insert _ _, .refl _, .refl _, .refl _, .refl _, .refl _,
        fun _ run found => ⟨run, found, .refl run⟩⟩
    · cases applied
      exact ⟨Serial.grows_updateAt _ fun _ => rfl, .refl _, .refl _, .refl _, .refl _, .refl _,
        fun _ run found => ⟨run, found, .refl run⟩⟩

section
variable {ext : External} {settings : Settings} {c after : Config} {label : Label}

theorem exec_extends {op : Op} {before after : State} {reply : op.Reply} (ran : op.exec ext before reply after) :
    before.db.Extends after.db := by
  cases op with
  | write write =>
    rcases exec_write ran with ⟨-, rfl⟩ | ⟨result, db, applied, -, rfl⟩
    · exact .refl _
    · exact write_extends applied
  | transact transaction =>
    rcases exec_transact ran with ⟨-, rfl⟩ | ⟨result, db, applied, -, rfl⟩
    · exact .refl _
    · exact transaction_extends applied
  | _ =>
    rw [exec_reads rfl ran]
    exact .refl _

theorem step_extends (moved : step ext settings c label = some after) : c.state.db.Extends after.state.db := by
  rcases step_db moved with ⟨same, -⟩ | ⟨slot, choice, op, reply, -, -, ran⟩ | ⟨hostname, affected, -, registered⟩
  · rw [same]
    exact .refl _
  · exact exec_extends ran
  · obtain ⟨agents, same⟩ := registered_agents registered
    rw [same]
    exact .sameRuns rfl rfl (.refl _) (.refl _) (.refl _) (.refl _)

theorem reaches_extends {admits : Config → Label → Prop} {first last : Config}
    (run : (system ext settings).Reaches admits first last) : first.state.db.Extends last.state.db :=
  run.invariant (fun c => first.state.db.Extends c.state.db) (.refl _)
    fun _ _ _ extended _ moved => extended.trans (step_extends moved)

end

end PostJen.Server
