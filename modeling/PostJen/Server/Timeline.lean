import PostJen.Server.Driving
import PostJen.Server.History

/-! The timestamps of the tables while the clock is not set back.

Runs and the rows that belong to one are stamped when they are inserted, so each
of these tables stands in the order of time. The stamps of a run then agree with
each other and with its status.
-/

set_option autoImplicit false

open PostJen.Foundations PostJen.Core

namespace PostJen.Server

def Onward (c : Config) (label : Label) : Prop := ∀ now, label = .clock now → c.state.clock ≤ now

/-! ## One run -/

def Between (first now : Timestamp) (stamp : Option Timestamp) : Prop := ∀ time, stamp = some time → first ≤ time ∧ time ≤ now

theorem Between.none (first now : Timestamp) : Between first now none := fun _ same => by cases same

theorem Between.now {first now : Timestamp} (past : first ≤ now) : Between first now (some now) :=
  fun _ same => Option.some.inj same ▸ ⟨past, Nat.le_refl _⟩

theorem Between.later {first now now' : Timestamp} {stamp : Option Timestamp} (between : Between first now stamp)
    (onward : now ≤ now') : Between first now' stamp :=
  fun time same => ⟨(between time same).1, Nat.le_trans (between time same).2 onward⟩

structure JobRun.Timed (now : Timestamp) (run : JobRun) : Prop where
  created : run.createdAt ≤ now
  queued : run.queuedAt = some run.createdAt
  started : Between run.createdAt now run.startedAt
  canceled : Between run.createdAt now run.cancelRequestedAt
  finished : Between run.createdAt now run.finishedAt
  ordered : ∀ start finish, run.startedAt = some start → run.finishedAt = some finish → start ≤ finish
  waiting : run.status = .queued → run.startedAt = none ∧ run.cancelRequestedAt = none ∧ run.finishedAt = none
  running : run.status = .running → run.startedAt.isSome
  requested : run.status = .cancelRequested → run.cancelRequestedAt.isSome
  ending : run.status.terminal = true → run.finishedAt.isSome
  ended : run.finishedAt.isSome → run.status.terminal = true ∨ run.status = .cancelRequested

namespace JobRun.Timed

variable {now now' : Timestamp} {run : JobRun}

theorem later (timed : run.Timed now) (onward : now ≤ now') : run.Timed now' :=
  { timed with
    created := Nat.le_trans timed.created onward
    started := timed.started.later onward
    canceled := timed.canceled.later onward
    finished := timed.finished.later onward }

theorem new (new : NewRun) (now : Timestamp) : (new.row now).Timed now where
  created := Nat.le_refl _
  queued := rfl
  started := .none _ _
  canceled := .none _ _
  finished := .none _ _
  ordered := fun _ _ same => by cases same
  waiting := fun _ => ⟨rfl, rfl, rfl⟩
  running := fun same => by cases same
  requested := fun same => by cases same
  ending := fun same => by cases same
  ended := fun same => by cases same

theorem getD (timed : run.Timed now) : Between run.createdAt now (some (run.startedAt.getD now)) := by
  cases started : run.startedAt with
  | none => exact .now timed.created
  | some time =>
    have between := timed.started
    rw [started] at between
    exact between

theorem start (timed : run.Timed now) : ((JobChange.running .queued).apply now run).Timed now := by
  simp only [JobChange.apply]
  split
  · rename_i isQueued
    obtain ⟨-, -, unfinished⟩ := timed.waiting isQueued
    exact
      { timed with
        started := timed.getD
        ordered := fun _ _ _ same => by rw [unfinished] at same; cases same
        waiting := fun same => by cases same
        running := fun _ => rfl
        requested := fun same => by cases same
        ending := fun same => by cases same
        ended := fun same => by rw [unfinished] at same; cases same }
  · exact timed

theorem finish (timed : run.Timed now) {toStatus : JobStatus} (terminal : toStatus.terminal = true)
    (message : Option String) : ((JobChange.finished toStatus message).apply now run).Timed now :=
  { timed with
    finished := .now timed.created
    ordered := fun start _ started same => Option.some.inj same ▸ (timed.started start started).2
    waiting := fun same => by rw [show toStatus = .queued from same] at terminal; cases terminal
    running := fun same => by rw [show toStatus = .running from same] at terminal; cases terminal
    requested := fun same => by rw [show toStatus = .cancelRequested from same] at terminal; cases terminal
    ending := fun _ => rfl
    ended := fun _ => .inl terminal }

theorem fail (timed : run.Timed now) (reason : String) :
    ((JobChange.failBeforeStart reason).apply now run).Timed now :=
  { timed with
    started := timed.getD
    finished := .now timed.created
    ordered := fun start _ started same => Option.some.inj same ▸ (timed.getD start started).2
    waiting := fun same => by cases same
    running := fun same => by cases same
    requested := fun same => by cases same
    ending := fun _ => rfl
    ended := fun _ => .inl rfl }

theorem cancel (timed : run.Timed now) : (JobChange.cancelRequested.apply now run).Timed now :=
  { timed with
    canceled := .now timed.created
    waiting := fun same => by cases same
    running := fun same => by cases same
    requested := fun _ => rfl
    ending := fun same => by cases same
    ended := fun _ => .inr rfl }

end JobRun.Timed

/-! ## The tables -/

def Db.RunSince (db : Db) (runId : Nat) (stamp : Timestamp) : Prop :=
  ∃ run, db.jobRuns.find runId = some run ∧ run.createdAt ≤ stamp

structure Db.Timed (now : Timestamp) (db : Db) : Prop where
  runs : db.jobRuns.Stamped JobRun.createdAt now
  nodes : db.nodeRuns.Stamped NodeRun.createdAt now
  events : db.runEvents.Stamped RunEvent.occurredAt now
  logs : db.runLogs.Stamped RunLog.occurredAt now
  artifacts : db.runArtifacts.Stamped RunArtifact.checkedAt now
  coherent : ∀ id run, db.jobRuns.find id = some run → run.Timed now
  nodesSince : ∀ entry ∈ db.nodeRuns.rows, db.RunSince entry.2.jobRunId entry.2.createdAt
  eventsSince : ∀ entry ∈ db.runEvents.rows, db.RunSince entry.2.jobRunId entry.2.occurredAt
  logsSince : ∀ entry ∈ db.runLogs.rows, db.RunSince entry.2.jobRunId entry.2.occurredAt
  artifactsSince : ∀ entry ∈ db.runArtifacts.rows, db.RunSince entry.2.jobRunId entry.2.checkedAt

theorem Db.RunSince.extends {db db' : Db} {runId : Nat} {stamp : Timestamp} (extended : db.Extends db')
    (since : db.RunSince runId stamp) : db'.RunSince runId stamp := by
  obtain ⟨run, found, past⟩ := since
  obtain ⟨run', found', same⟩ := extended.runs.find found
  exact ⟨run', found', by rwa [JobRun.createdAt_of_snapshot same]⟩

namespace Db.Timed

variable {now now' : Timestamp} {db db' : Db}

theorem empty (now : Timestamp) : Db.empty.Timed now where
  runs := .empty
  nodes := .empty
  events := .empty
  logs := .empty
  artifacts := .empty
  coherent := fun _ _ found => by cases found
  nodesSince := fun _ member => by cases member
  eventsSince := fun _ member => by cases member
  logsSince := fun _ member => by cases member
  artifactsSince := fun _ member => by cases member

theorem later (timed : db.Timed now) (onward : now ≤ now') : db.Timed now' :=
  { timed with
    runs := timed.runs.later onward
    nodes := timed.nodes.later onward
    events := timed.events.later onward
    logs := timed.logs.later onward
    artifacts := timed.artifacts.later onward
    coherent := fun id run found => (timed.coherent id run found).later onward }

theorem since (timed : db.Timed now) {runId : Nat} (exist : db.hasRun runId = true) : db.RunSince runId now := by
  obtain ⟨run, found⟩ := Option.isSome_iff_exists.mp exist
  exact ⟨run, found, (timed.coherent runId run found).created⟩

section
variable {P : Nat → Timestamp → Prop} {V : Type} {t : Serial V} {runId : V → Nat} {stamp : V → Timestamp}

theorem rows_insert {row : V} (old : ∀ entry ∈ t.rows, P (runId entry.2) (stamp entry.2)) (new : P (runId row) (stamp row)) :
    ∀ entry ∈ (t.insert row).rows, P (runId entry.2) (stamp entry.2) := by
  intro entry member
  rw [Serial.rows_insert, List.mem_append, List.mem_singleton] at member
  rcases member with inside | rfl
  · exact old entry inside
  · exact new

end

theorem runsGrow (timed : db.Timed now) (extended : db.Extends db') (nodes : db'.nodeRuns = db.nodeRuns)
    (logs : db'.runLogs = db.runLogs) (artifacts : db'.runArtifacts = db.runArtifacts)
    (runs : db'.jobRuns.Stamped JobRun.createdAt now) (coherent : ∀ id run, db'.jobRuns.find id = some run → run.Timed now)
    (events : db'.runEvents.Stamped RunEvent.occurredAt now)
    (eventsSince : ∀ entry ∈ db'.runEvents.rows, db'.RunSince entry.2.jobRunId entry.2.occurredAt) : db'.Timed now where
  runs
  nodes := nodes ▸ timed.nodes
  events
  logs := logs ▸ timed.logs
  artifacts := artifacts ▸ timed.artifacts
  coherent
  nodesSince := fun entry member => (timed.nodesSince entry (nodes ▸ member)).extends extended
  eventsSince
  logsSince := fun entry member => (timed.logsSince entry (logs ▸ member)).extends extended
  artifactsSince := fun entry member => (timed.artifactsSince entry (artifacts ▸ member)).extends extended

theorem coherent_updateAt (timed : db.Timed now) {id : Nat} {change : JobRun → JobRun}
    (keeps : ∀ run, run.Timed now → (change run).Timed now) (other : Nat) (run : JobRun)
    (found : (db.jobRuns.updateAt id change).find other = some run) : run.Timed now := by
  rw [Serial.find_updateAt] at found
  split at found
  · obtain ⟨old, there, rfl⟩ := Option.map_eq_some_iff.mp found
    exact keeps old (timed.coherent other old there)
  · exact timed.coherent other run found

theorem write (timed : db.Timed now) {write : Write} {result : Nat} (applied : write.apply now db = .ok (result, db'))
    (keeps : ∀ id change, write = .updateJob id change → ∀ run, run.Timed now → (change.apply now run).Timed now) :
    db'.Timed now := by
  have extended := write_extends applied
  cases write with
  | insertNode node =>
    simp only [Write.apply] at applied
    repeat' split at applied
    all_goals cases applied
    rename_i exist
    rw [Bool.not_eq_true, Bool.not_eq_false'] at exist
    exact { timed with
      nodes := timed.nodes.insert rfl
      nodesSince := rows_insert (P := db.RunSince) timed.nodesSince (timed.since exist) }
  | updateNode id change =>
    cases applied
    refine { timed with nodes := timed.nodes.updateAt fun row => ?_, nodesSince := fun entry member => ?_ }
    · exact NodeRun.createdAt_of_snapshot (change.apply_snapshot now row)
    · obtain ⟨old, inside, -, same⟩ := Serial.mem_updateAt member
      have since := timed.nodesSince old inside
      rcases same with same | same <;> rw [same]
      · exact since
      · rw [NodeChange.apply_jobRunId, NodeRun.createdAt_of_snapshot (change.apply_snapshot now old.2)]
        exact since
  | updateJob id change =>
    cases applied
    exact timed.runsGrow extended rfl rfl rfl
      (timed.runs.updateAt fun run => JobRun.createdAt_of_snapshot (change.apply_snapshot now run))
      (timed.coherent_updateAt (keeps id change rfl)) timed.events
      fun entry member => (timed.eventsSince entry member).extends extended
  | agents write =>
    simp only [Write.apply] at applied
    split at applied
    · cases applied
    · cases applied
      exact { timed with }
  | event new =>
    simp only [Write.apply] at applied
    split at applied <;> cases applied
    rename_i exist
    simp only [Bool.or_eq_true, Bool.not_eq_true', not_or, Bool.not_eq_false] at exist
    exact { timed with
      events := timed.events.insert rfl
      eventsSince := rows_insert (P := db.RunSince) timed.eventsSince (timed.since exist.1) }
  | log new =>
    simp only [Write.apply] at applied
    repeat' split at applied
    all_goals cases applied
    rename_i exist
    simp only [Bool.or_eq_true, Bool.not_eq_true', not_or, Bool.not_eq_false] at exist
    exact { timed with
      logs := timed.logs.insert rfl
      logsSince := rows_insert (P := db.RunSince) timed.logsSince (timed.since exist.1) }
  | artifact new =>
    simp only [Write.apply] at applied
    split at applied <;> cases applied
    rename_i exist
    simp only [Bool.or_eq_true, Bool.not_eq_true', not_or, Bool.not_eq_false] at exist
    exact { timed with
      artifacts := timed.artifacts.insert rfl
      artifactsSince := rows_insert (P := db.RunSince) timed.artifactsSince (timed.since exist.1) }
  | secret name value | deleteSecret name =>
    cases applied
    exact { timed with }

theorem transaction (timed : db.Timed now) {transaction : Transaction} {row : transaction.Row}
    (applied : transaction.apply now db = .ok (row, db')) : db'.Timed now := by
  have extended := transaction_extends applied
  cases transaction with
  | createRun new =>
    simp only [Transaction.apply] at applied
    split at applied <;> cases applied
    have born : (db.jobRuns.insert (new.row now)).find db.jobRuns.next = some (new.row now) := by
      rw [Serial.find_insert, if_pos rfl]
    refine timed.runsGrow extended rfl rfl rfl (timed.runs.insert rfl) (fun id run found => ?_) (timed.events.insert rfl) ?_
    · rw [Serial.find_insert] at found
      split at found
      · cases found
        exact .new new now
      · exact timed.coherent id run found
    · exact rows_insert (P := Db.RunSince _) (fun entry member => (timed.eventsSince entry member).extends extended)
        ⟨_, born, Nat.le_refl _⟩
  | cancelRun runId fromStatus =>
    simp only [Transaction.apply] at applied
    split at applied <;> cases applied
    rename_i exist
    rw [Bool.not_eq_true, Bool.not_eq_false'] at exist
    refine timed.runsGrow extended rfl rfl rfl
      (timed.runs.updateAt fun run => JobRun.createdAt_of_snapshot (JobChange.cancelRequested.apply_snapshot now run))
      (timed.coherent_updateAt fun run there => there.cancel) (timed.events.insert rfl) ?_
    exact rows_insert (P := Db.RunSince _) (fun entry member => (timed.eventsSince entry member).extends extended)
      ((timed.since exist).extends extended)
  | registerJob definition =>
    simp only [Transaction.apply] at applied
    split at applied <;> cases applied <;> exact { timed with }

end Db.Timed

/-! ## Runs of the server -/

variable {ext : External} {settings : Settings} {c after : Config} {label : Label}

theorem exec_clock {op : Op} {before after : State} {reply : op.Reply} (ran : op.exec ext before reply after) :
    after.clock = before.clock := by
  cases op with
  | write write =>
    rcases exec_write ran with ⟨-, rfl⟩ | ⟨_, _, -, -, rfl⟩ <;> rfl
  | transact transaction =>
    rcases exec_transact ran with ⟨-, rfl⟩ | ⟨_, _, -, -, rfl⟩ <;> rfl
  | select query => rw [(exec_select ran).1]
  | readFile path =>
    obtain ⟨choice, ran⟩ := ran
    cases choice with
    | answer _ =>
      simp only [Op.run] at ran
      split at ran <;> cases ran <;> rfl
    | fail _ =>
      cases ran
      rfl
    | _ => cases ran
  | order keys =>
    obtain ⟨choice, ran⟩ := ran
    cases choice with
    | answer _ =>
      obtain ⟨_, -, same⟩ := Option.map_eq_some_iff.mp ran
      cases same
      rfl
    | _ => cases ran
  | random count =>
    obtain ⟨choice, ran⟩ := ran
    cases choice with
    | bytes _ =>
      simp only [Op.run] at ran
      split at ran <;> cases ran
      rfl
    | _ => cases ran
  | copyFile source dest =>
    rcases exec_copyFile ran with rfl | ⟨file, rfl⟩ <;> rfl
  | writeFile dest file =>
    rcases exec_writeFile ran with ⟨-, -, rfl⟩ | ⟨-, rfl⟩ <;> rfl
  | _ =>
    obtain ⟨choice, ran⟩ := ran
    cases choice <;> cases ran <;> rfl

theorem revises_timed {point : Point} {id : Nat} {change : JobChange} (revises : point.Revises id change)
    {now : Timestamp} {run : JobRun} (timed : run.Timed now) : (change.apply now run).Timed now := by
  cases revises with
  | start queued => exact timed.start
  | finish x message => exact timed.finish (determineJobStatus_terminal _ _) message
  | fail _ _ reason => exact timed.fail reason

theorem step_dequeued (placed : c.Placed) (moved : step ext settings c label = some after) {id : Nat} {run run' : JobRun}
    (found : c.state.db.jobRuns.find id = some run) (found' : after.state.db.jobRuns.find id = some run')
    (left : run.status ≠ .queued) : run'.status ≠ .queued := by
  obtain ⟨run'', there, changed⟩ := runStep moved found
  cases found'.symm.trans there
  cases changed with
  | same => exact left
  | cancel slot choice fromStatus executed next => exact fun same => by cases same
  | update slot choice change executed next =>
    obtain ⟨-, revises⟩ := revises_scheduler placed next
    generalize (c.threads slot).point = point at revises
    cases revises with
    | start queued =>
      rw [JobChange.apply, if_neg left]
      exact left
    | finish x message =>
      intro same
      have terminal := determineJobStatus_terminal x.results x.canceling
      rw [show determineJobStatus x.results x.canceling = .queued from same] at terminal
      cases terminal
    | fail => exact fun same => by cases same

theorem step_timed (placed : c.Placed) (onward : Onward c label) (moved : step ext settings c label = some after)
    (timed : c.state.db.Timed c.state.now) : after.state.db.Timed after.state.now := by
  rcases step_db moved with ⟨same, -⟩ | ⟨slot, choice, op, reply, rfl, next, ran⟩ |
    ⟨hostname, affected, rfl, registered⟩
  · rw [same]
    refine timed.later (Nat.div_le_div_right ?_)
    cases step_moved moved with
    | clock now => exact onward now rfl
    | exec next ran => exact (exec_clock ⟨_, ran⟩).ge
    | _ => exact le_rfl
  · rw [show after.state.now = c.state.now from congrArg (· / 1000) (exec_clock ran)]
    cases op with
    | write write =>
      rcases exec_write ran with ⟨-, same⟩ | ⟨result, db, applied, -, same⟩ <;> rw [same]
      · exact timed
      · refine timed.write applied fun id change isUpdate run there => ?_
        subst isUpdate
        exact revises_timed (revises_scheduler placed next).2 there
    | transact transaction =>
      rcases exec_transact ran with ⟨-, same⟩ | ⟨result, db, applied, -, same⟩ <;> rw [same]
      · exact timed
      · exact timed.transaction applied
    | _ =>
      rw [exec_reads rfl ran]
      exact timed
  · cases step_moved moved with
    | boot registered =>
      exact timed.write registered fun id change same => by cases same

variable {files : String → Option String} {clock : Nat}

theorem reaches_timed (run : (system ext settings).Reaches Onward (Config.initial ext settings files clock) c) :
    c.Placed ∧ c.state.db.Timed c.state.now := by
  have idle := Config.initial_idle ext settings files clock
  have still : (system ext settings).Reaches Onward _ (Config.initial ext settings files clock) := .refl _
  refine run.invariant (fun c => c.Placed ∧ c.state.db.Timed c.state.now) ⟨reached_placed idle still, .empty _⟩ ?_
  rintro before label after ⟨placed, timed⟩ onward moved
  exact ⟨placed_step placed (step_moved moved), step_timed placed onward moved timed⟩

/-- While the clock is not set back, the rows of runs, node runs, events, logs and artifacts stand in the order in
which they were created, none is older than its run, and the stamps of a run agree with its status. -/
theorem stamps_agree (run : (system ext settings).Reaches Onward (Config.initial ext settings files clock) c) :
    c.state.db.Timed c.state.now := (reaches_timed run).2

def Sample.onward (c : Config) : Label → Bool
  | .clock now => c.state.clock ≤ now
  | _ => true

theorem Sample.onward_sound (c : Config) (label : Label) (checked : Sample.onward c label = true) : Onward c label := by
  rintro now rfl
  simpa [Sample.onward] using checked

theorem Sample.onward_twice {first second : List Label} {test : Config → Config → Bool}
    (passed : ((Sample.run Sample.onward first).any fun c =>
      ((system Sample.ext Sample.settings).follow Sample.onward c second).any (test c)) = true) :
    ∃ c later, (system Sample.ext Sample.settings).Reaches Onward Sample.initial c ∧
      (system Sample.ext Sample.settings).Reaches Onward c later ∧ test c later = true := by
  obtain ⟨c, followed, passed⟩ := (Option.any_eq_true _ _).mp passed
  obtain ⟨later, continued, holds⟩ := (Option.any_eq_true _ _).mp passed
  exact ⟨c, later, (Sample.reached followed).mono Sample.onward_sound,
    (system Sample.ext Sample.settings).follow_reaches Sample.onward_sound continued, holds⟩

/-- A run that was created, started and canceled at different times. -/
theorem stamps_agree_canceled : ∃ c, (system Sample.ext Sample.settings).Reaches Onward Sample.initial c ∧
    (∃ run, c.state.db.jobRuns.find 1 = some run ∧ run.startedAt = some 1001 ∧ run.cancelRequestedAt = some 1003) ∧
    c.state.db.Timed c.state.now := by
  have passed : (Sample.run Sample.onward (Sample.started "fork.yaml" "fork" ++ Sample.block 1 ++
      [.clock 1001000] ++ Sample.block 7 ++ [.clock 1003000] ++ Sample.serve 2 (.cancelRun 1) 2)).any (fun c =>
        (c.state.db.jobRuns.find 1).any fun run => run.startedAt = some 1001 ∧ run.cancelRequestedAt = some 1003) = true := by
    decide +kernel
  obtain ⟨c, reached, holds⟩ := Sample.arrives passed
  have run := reached.mono Sample.onward_sound
  obtain ⟨row, found, times⟩ := (Option.any_eq_true _ _).mp holds
  exact ⟨c, run, ⟨row, found, of_decide_eq_true times⟩, stamps_agree run⟩

end PostJen.Server
