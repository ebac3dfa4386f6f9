import PostJen.Server.Driving
import PostJen.Server.Sample

/-! The life of a job run.

A run ends by the last UPDATE of `execute_run` or by `fail_run_before_start`.
Both write without looking at the status they find, as does `cancel_run`; the
law holds as long as none of them finds a status that it must not change.
-/

set_option autoImplicit false

open PostJen.Foundations PostJen.Core

namespace PostJen.Server

def leadsTo : JobStatus → JobStatus → Bool
  | .queued, .running | .queued, .cancelRequested | .queued, .failed => true
  | .running, .cancelRequested | .running, .success | .running, .failed | .running, .timedOut
  | .running, .canceled => true
  | .cancelRequested, .canceled | .cancelRequested, .failed | .cancelRequested, .timedOut => true
  | _, _ => false

structure StatusLaw (ext : External) (settings : Settings) (admits : Config → Label → Prop) (start : Config) :
    Prop where
  moves : ∀ before label after id run run', (system ext settings).Reaches admits start before →
    admits before label → step ext settings before label = some after →
    before.state.db.jobRuns.find id = some run → after.state.db.jobRuns.find id = some run' →
    run'.status = run.status ∨ leadsTo run.status run'.status = true
  final : ∀ c later id run, (system ext settings).Reaches admits start c →
    (system ext settings).Reaches admits c later → c.state.db.jobRuns.find id = some run →
    run.status.terminal = true → (later.state.db.jobRuns.find id).map (·.status) = some run.status
  canceled : ∀ c later id run run', (system ext settings).Reaches admits start c →
    (system ext settings).Reaches admits c later → c.state.db.jobRuns.find id = some run →
    run.status = .cancelRequested → later.state.db.jobRuns.find id = some run' → run'.status ≠ .success

/-- No statement that writes a status unconditionally finds one that it must keep. -/
def keepsStatus (c : Config) : Label → Bool
  | .exec slot (.answer _) =>
      match c.pending slot with
      | some (.transact (.cancelRun id _)) => !(c.state.db.jobRuns.find id).any (·.status.terminal)
      | some (.write (.updateJob id (.finished .success _))) =>
          !(c.state.db.jobRuns.find id).any (·.status = .cancelRequested)
      | some (.write (.updateJob id (.failBeforeStart _))) =>
          !(c.state.db.jobRuns.find id).any fun run => run.status.terminal && run.status ≠ .failed
      | _ => true
  | _ => true

namespace RunLife

def Live (id : Nat) (db : Db) : Prop :=
  ∃ run, db.jobRuns.find id = some run ∧
    (run.status = .queued ∨ run.status = .running ∨ run.status = .cancelRequested)

def Active (id : Nat) (db : Db) : Prop :=
  ∃ run, db.jobRuns.find id = some run ∧ (run.status = .running ∨ run.status = .cancelRequested)

theorem Active.live {id : Nat} {db : Db} (active : Active id db) : Live id db := by
  obtain ⟨run, found, status⟩ := active
  exact ⟨run, found, .inr status⟩

def rely (before after : State) : Prop :=
  ∀ id, (Live id before.db → Live id after.db) ∧ (Active id before.db → Active id after.db)

def guarantee (op : Op) (before : State) : Prop :=
  ∀ id toStatus message, op = .write (.updateJob id (.finished toStatus message)) → Active id before.db

def assertion (slot : Slot) (point : Point) (s : State) : Prop :=
  slot = .scheduler → Slot.scheduler.hosts point = true ∧
    (∀ queued, point = .executeRun queued → Live queued.id s.db) ∧
    ∀ runId, point.looping = some runId → Active runId s.db

variable {ext : External} {settings : Settings}

def discipline (ext : External) : Discipline Sig State :=
  serving ext rely fun op before _ => guarantee op before

theorem promises (op : Op) (before after : State) (calm : Calm op) :
    (discipline ext).guarantee op before after := by
  rintro id toStatus message rfl
  cases calm

theorem calm_jobRuns {op : Op} {before after : State} {reply : op.Reply} (calm : Calm op)
    (ran : op.exec ext before reply after) : after.db.jobRuns = before.db.jobRuns := by
  rcases exec_jobRuns ran with same | ⟨_, _, rfl, -⟩ | ⟨_, _, rfl, -⟩ | ⟨_, rfl, -⟩
  · exact same
  · cases calm
  · cases calm
  · cases calm

theorem kept_live (id : Nat) : (discipline ext).Kept Calm fun s => Live id s.db where
  stable := fun _ _ moved => (moved id).1
  frame := by
    intro op before reply after calm ran live
    unfold Live
    rw [calm_jobRuns calm ran]
    exact live

theorem kept_active (id : Nat) : (discipline ext).Kept Calm fun s => Active id s.db where
  stable := fun _ _ moved => (moved id).2
  frame := by
    intro op before reply after calm ran active
    unfold Active
    rw [calm_jobRuns calm ran]
    exact active

theorem ticks (s : State) : assertion .scheduler .schedulerTick s :=
  fun _ => ⟨rfl, (fun _ same => by cases same), fun _ same => by cases same⟩

theorem fails (runId : Nat) (s : State) (reason : String) :
    (failRunBeforeStart runId reason).Holds (discipline ext) (fun _ => assertion .scheduler .schedulerTick)
      (fun _ => assertion .scheduler .schedulerTick) s := by
  have minor : ∀ op : Op, op.minor = true → ∀ before, guarantee op before := by
    rintro _ minor before id toStatus message rfl
    cases minor
  have within := within_failRunBeforeStart minor runId reason fun before id toStatus message same => by cases same
  have stable : (discipline ext).Stable fun _ => True := fun _ _ _ _ => trivial
  refine (within.holds stable (fun op before reply after promised _ _ => ⟨promised before, trivial⟩) trivial).mono
    (fun _ s _ => ticks s) fun _ s _ => ticks s

theorem update_running {id : Nat} {before after : State} {reply : Except SqlError Nat} (live : Live id before.db)
    (ran : (Op.write (.updateJob id (.running .queued))).exec ext before reply after) :
    ((∃ result, reply = .ok result) → Active id after.db) ∧ ((∃ why, reply = .error why) → Live id after.db) := by
  rcases exec_write ran with ⟨⟨why, rfl⟩, rfl⟩ | ⟨result, db, applied, rfl, rfl⟩
  · exact ⟨(fun ⟨_, same⟩ => by cases same), fun _ => live⟩
  · cases applied
    refine ⟨fun _ => ?_, fun ⟨_, same⟩ => by cases same⟩
    obtain ⟨run, found, status⟩ := live
    refine ⟨_, by rw [Serial.find_updateAt_self, found]; rfl, ?_⟩
    simp only [JobChange.apply]
    split
    · exact .inl rfl
    · rename_i left
      exact status.resolve_left left

theorem mem_nextQueuedRun {db : Db} {queued : QueuedRun} (member : some queued ∈ Select.nextQueuedRun.answers db) :
    ∃ run, db.jobRuns.find queued.id = some run ∧ run.status = .queued ∧
      queued = ⟨queued.id, run.jobId, run.definitionPath⟩ := by
  obtain ⟨picked, listed, same⟩ := List.mem_map.mp member
  obtain ⟨⟨id, run⟩, rfl, rfl⟩ := Option.map_eq_some_iff.mp same
  obtain ⟨inside, isQueued⟩ := List.mem_filter.mp (mem_limitOne listed)
  exact ⟨run, Serial.find_eq_some.mpr inside, by simpa using isQueued, rfl⟩

theorem holds_block (point : Point) (s : State) (holds : assertion .scheduler point s) :
    (block ext settings point).Holds (discipline ext) (assertion .scheduler) (fun why _ => why.elim) s := by
  obtain ⟨hosted, live, active⟩ := holds rfl
  have continues : ∀ {runId : Nat} (next : Point) (s : State), next.looping = some runId → Active runId s.db →
      assertion .scheduler next s := by
    intro runId next s looping active _
    refine ⟨(by cases next <;> first | rfl | cases looping), ?_, ?_⟩
    · rintro queued rfl
      cases looping
    · intro other same
      cases looping.symm.trans same
      exact active
  cases point with
  | schedulerTick =>
    refine holds_otherwise ((Proc.holds_bind _ _ _).mpr (holds_answer (fun _ _ _ _ same => by cases same)
      (fun queued s member => ?_) fun _ s => ticks s))
    cases queued with
    | none => exact ticks s
    | some queued =>
      obtain ⟨run, found, status, -⟩ := mem_nextQueuedRun member
      intro _
      refine ⟨rfl, ?_, fun _ same => by cases same⟩
      rintro _ ⟨⟩
      exact ⟨run, found, .inl status⟩
  | executeRun queued =>
    refine holds_prepare promises (kept_live queued.id) (kept_active queued.id) ?_ ?_
      (fun s reason _ => fails queued.id s reason) (live queued rfl)
    · intro before reply after live ran
      exact ⟨(fun _ _ _ same => by cases same), update_running live ran⟩
    · rintro x s rfl active
      exact continues _ s rfl active
  | finalizing x =>
    refine holds_finalize promises (kept_active x.run.id) (.const True) ?_ (fun s _ => ticks s)
      (fun s reason _ => fails x.run.id s reason) (active _ rfl)
    intro before reply after message active ran
    refine ⟨?_, fun _ => trivial, ?_⟩
    · rintro id toStatus message' ⟨⟩
      exact active
    · rintro ⟨why, rfl⟩
      rcases exec_write ran with ⟨-, rfl⟩ | ⟨_, _, _, same, -⟩
      · exact active
      · cases same
  | scheduling x | pass x _ _ | waiting x | polling x _ =>
    exact holds_loop promises (kept_active x.run.id) continues (fun s reason _ => fails x.run.id s reason) rfl
      (fun _ same => by cases same) (active _ rfl)
  | idle => exact holds
  | _ => cases hosted

/-! ## Runs -/

variable {start : Config} {admits : Config → Label → Prop} {c after : Config} {label : Label}

theorem step_other (placed : c.Placed) (moved : step ext settings c label = some after)
    (other : ∀ choice, label ≠ .exec .scheduler choice) {id : Nat} {run : JobRun}
    (found : c.state.db.jobRuns.find id = some run) :
    ∃ run', after.state.db.jobRuns.find id = some run' ∧ (run' = run ∨ run'.status = .cancelRequested) := by
  obtain ⟨run', found', changed⟩ := runStep moved found
  refine ⟨run', found', ?_⟩
  cases changed with
  | same => exact .inl rfl
  | update slot choice change executed next =>
    obtain ⟨rfl, -⟩ := revises_scheduler placed next
    exact absurd executed (other choice)
  | cancel => exact .inr rfl

theorem step_rely (placed : c.Placed) (moved : step ext settings c label = some after)
    (other : ∀ choice, label ≠ .exec .scheduler choice) : rely c.state after.state := by
  intro id
  constructor
  · rintro ⟨run, found, status⟩
    obtain ⟨run', found', rfl | requested⟩ := step_other placed moved other found
    · exact ⟨run', found', status⟩
    · exact ⟨run', found', .inr (.inr requested)⟩
  · rintro ⟨run, found, status⟩
    obtain ⟨run', found', rfl | requested⟩ := step_other placed moved other found
    · exact ⟨run', found', status⟩
    · exact ⟨run', found', .inr requested⟩

def outline : Outline ext settings start admits State where
  view _ c := c.state
  exec slot _ op before reply after :=
    if slot = .scheduler then op.exec ext before reply after else rely before after
  rely slot before after := slot = .scheduler → rely before after
  guarantee slot _ op before after :=
    if slot = .scheduler then guarantee op before else rely before after
  assertion := assertion

theorem outline_valid (idle : ∀ slot, start.threads slot = enter ext settings .idle) :
    (outline : Outline ext settings start admits State).Valid where
  refl := fun slot s _ id => ⟨fun live => live, fun active => active⟩
  trans := fun slot a b c first second isScheduler id =>
    ⟨fun live => ((second isScheduler) id).1 (((first isScheduler) id).1 live),
      fun active => ((second isScheduler) id).2 (((first isScheduler) id).2 active)⟩
  stable := by
    rintro slot point before after moved holds rfl
    obtain ⟨hosted, live, active⟩ := holds rfl
    exact ⟨hosted, fun queued same => (moved rfl queued.id).1 (live queued same),
      fun runId same => (moved rfl runId).2 (active runId same)⟩
  blocks := by
    intro slot point s holds
    by_cases isScheduler : slot = .scheduler
    · subst isScheduler
      simpa [Outline.discipline, outline, discipline, serving] using holds_block point s holds
    -- nothing is asserted of the other tasks
    · refine Proc.holds_trivial _ s (fun op before reply after ran => ?_)
        (fun _ _ equal => absurd equal isScheduler) fun why _ => why.elim
      simpa only [Outline.discipline, outline, if_neg isScheduler] using ran
  runs := by
    intro history c slot choice after op rest reply run admitted moved next ran
    by_cases isScheduler : slot = .scheduler
    · simpa only [outline, if_pos isScheduler] using ⟨choice, ran⟩
    · simp only [outline, if_neg isScheduler]
      refine step_rely (reached_placed idle run.reaches) moved ?_
      rintro _ ⟨⟩
      exact isScheduler rfl
  suffers := by
    rintro slot other point op before after ne guarantee rfl
    simpa only [outline, if_neg ne.symm] using guarantee
  quiet := by
    rintro history c label after run admitted moved quiet slot -
    refine step_rely (reached_placed idle run.reaches) moved fun choice same => ?_
    subst same
    cases quiet
  boot := by
    rintro history c hostname after - - - - slot rfl
    exact ticks _ rfl
  idle := by
    rintro slot s rfl
    exact ⟨rfl, (fun _ same => by cases same), fun _ same => by cases same⟩
  received := fun n request s same => by cases same
  spawned := fun n task s _ => ⟨by rintro ⟨⟩, by rintro ⟨⟩⟩

theorem finish_active (idle : ∀ slot, start.threads slot = enter ext settings .idle)
    (reached : (system ext settings).Reaches admits start c) {choice : Choice}
    (admitted : admits c (.exec .scheduler choice))
    (moved : step ext settings c (.exec .scheduler choice) = some after) {id : Nat} {toStatus : JobStatus}
    {message : Option String}
    (next : c.pending .scheduler = some (.write (.updateJob id (.finished toStatus message)))) :
    Active id c.state.db := by
  obtain ⟨history, run⟩ := reached.path
  obtain ⟨op, rest, reply, code, next', ran, -⟩ := step_exec moved
  cases next.symm.trans next'
  have valid : (outline : Outline ext settings start admits State).Valid := outline_valid idle
  have promised := (valid.guaranteed (valid.sound idle run) run admitted moved code ran).1
  exact promised id toStatus message rfl

theorem reached_created (idle : ∀ slot, start.threads slot = enter ext settings .idle)
    (empty : start.state.db.jobRuns = .empty) (reached : (system ext settings).Reaches admits start c) :
    ∀ id run, c.state.db.jobRuns.find id = some run → run.status ≠ .created := by
  have first : start.Placed ∧ ∀ id run, start.state.db.jobRuns.find id = some run → run.status ≠ .created := by
    refine ⟨?_, fun id run found => ?_⟩
    · exact fun slot => by rw [idle]; exact enter_placed slot.hosts_idle
    rw [empty] at found
    cases found
  refine (reached.invariant (fun c => c.Placed ∧
    ∀ id run, c.state.db.jobRuns.find id = some run → run.status ≠ .created) first ?_).2
  rintro before label after ⟨placed, never⟩ _ moved
  refine ⟨placed_step placed (step_moved moved), fun id run' found' => ?_⟩
  -- a new run is queued, and no UPDATE leads back
  cases found : before.state.db.jobRuns.find id with
  | none => rw [runStep_new moved found found']; simp
  | some run =>
    obtain ⟨_, found'', changed⟩ := runStep moved found
    cases found'.symm.trans found''
    cases changed with
    | same => exact never id _ found
    | cancel => simp [JobChange.apply]
    | update slot choice change executed next =>
      obtain ⟨-, revises⟩ := revises_scheduler placed next
      generalize (before.threads slot).point = point at revises
      cases revises with
      | start queued =>
        simp only [JobChange.apply]
        split
        · simp
        · exact never _ _ found
      | finish x message =>
        intro created
        have terminal := determineJobStatus_terminal x.results x.canceling
        rw [show determineJobStatus x.results x.canceling = .created from created] at terminal
        cases terminal
      | fail => simp [JobChange.apply]

end RunLife

/-! ## The law -/

variable {ext : External} {settings : Settings} {files : String → Option String} {clock : Nat}

theorem keeps_moves {before after : Config} {label : Label} {id : Nat} {run run' : JobRun}
    (reached : (system ext settings).Reaches (fun c label => keepsStatus c label = true)
      (Config.initial ext settings files clock) before)
    (kept : keepsStatus before label = true) (moved : step ext settings before label = some after)
    (found : before.state.db.jobRuns.find id = some run) (found' : after.state.db.jobRuns.find id = some run') :
    run'.status = run.status ∨ leadsTo run.status run'.status = true := by
  have idle := Config.initial_idle ext settings files clock
  have placed := reached_placed idle reached
  have known := RunLife.reached_created idle rfl reached id run found
  obtain ⟨_, found'', changed⟩ := runStep moved found
  cases found'.symm.trans found''
  cases changed with
  | same => exact .inl rfl
  | cancel slot choice fromStatus executed next =>
    subst executed
    rcases step_answered next rfl moved with same | ⟨index, rfl⟩
    · rw [same, found] at found'
      exact .inl (congrArg JobRun.status (Option.some.inj found').symm)
    -- this UPDATE has no guard, so the condition says which status it finds; likewise below
    · simp only [keepsStatus, next, found, Option.any_some, Bool.not_eq_true'] at kept
      show JobStatus.cancelRequested = run.status ∨ leadsTo run.status .cancelRequested = true
      generalize run.status = status at kept known
      cases status <;> simp [leadsTo, JobStatus.terminal] at kept known ⊢
  | update slot choice change executed next =>
    subst executed
    rcases step_answered next rfl moved with same | ⟨index, rfl⟩
    · rw [same, found] at found'
      exact .inl (congrArg JobRun.status (Option.some.inj found').symm)
    · obtain ⟨rfl, revises⟩ := revises_scheduler placed next
      generalize (before.threads .scheduler).point = point at revises
      cases revises with
      | start queued =>
        simp only [JobChange.apply]
        split
        · rename_i isQueued
          exact .inr (by rw [isQueued]; rfl)
        · exact .inl rfl
      | finish x message =>
        -- the run is in its loop: running, or asked to cancel
        obtain ⟨_, there, status⟩ := RunLife.finish_active idle reached kept moved next
        cases found.symm.trans there
        have terminal := determineJobStatus_terminal x.results x.canceling
        show determineJobStatus x.results x.canceling = run.status ∨
          leadsTo run.status (determineJobStatus x.results x.canceling) = true
        generalize determineJobStatus x.results x.canceling = toStatus at next kept terminal
        rcases status with running | canceled
        · rw [running]
          cases toStatus <;> simp [leadsTo, JobStatus.terminal] at terminal ⊢
        · rw [canceled]
          cases toStatus <;> simp [leadsTo, JobStatus.terminal, keepsStatus, next, found, canceled] at terminal kept ⊢
      | fail _ _ reason =>
        simp only [keepsStatus, next, found, Option.any_some, Bool.not_eq_true'] at kept
        show JobStatus.failed = run.status ∨ leadsTo run.status .failed = true
        generalize run.status = status at kept known
        cases status <;> simp [leadsTo, JobStatus.terminal] at kept known ⊢

theorem terminal_leads {status next : JobStatus} (terminal : status.terminal = true) :
    leadsTo status next = false := by
  cases status <;> first | rfl | cases terminal

theorem canceled_leads {status next : JobStatus}
    (canceled : status = .cancelRequested ∨ status = .canceled ∨ status = .failed ∨ status = .timedOut)
    (leads : leadsTo status next = true) :
    next = .cancelRequested ∨ next = .canceled ∨ next = .failed ∨ next = .timedOut := by
  rcases canceled with rfl | rfl | rfl | rfl <;> cases next <;> simp [leadsTo] at leads ⊢

/-- Job statuses follow the documented transitions as long as no statement that
writes a status unconditionally finds one that it must keep. -/
theorem status_law (ext : External) (settings : Settings) (files : String → Option String) (clock : Nat) :
    StatusLaw ext settings (fun c label => keepsStatus c label = true)
      (Config.initial ext settings files clock) where
  moves := fun before label after id run run' reached kept moved found found' =>
    keeps_moves reached kept moved found found'
  final := by
    intro c later id run reached passed found terminal
    have first : (system ext settings).Reaches (fun c label => keepsStatus c label = true) _ c ∧
        (c.state.db.jobRuns.find id).map (·.status) = some run.status := ⟨reached, by rw [found]; rfl⟩
    refine (passed.invariant (fun c => (system ext settings).Reaches (fun c label => keepsStatus c label = true)
      _ c ∧ (c.state.db.jobRuns.find id).map (·.status) = some run.status) first ?_).2
    rintro before label after ⟨reached, still⟩ kept moved
    refine ⟨reached.snoc kept moved, ?_⟩
    obtain ⟨run', found', same⟩ := Option.map_eq_some_iff.mp still
    obtain ⟨run'', found'', -⟩ := runStep moved found'
    have kept := keeps_moves reached kept moved found' found''
    rw [same, terminal_leads terminal] at kept
    rw [found'', Option.map_some, kept.resolve_right (by simp)]
  canceled := by
    intro c later id run run' reached passed found requested found'
    have first : (system ext settings).Reaches (fun c label => keepsStatus c label = true) _ c ∧
        ∃ run, c.state.db.jobRuns.find id = some run ∧ (run.status = .cancelRequested ∨
          run.status = .canceled ∨ run.status = .failed ∨ run.status = .timedOut) :=
      ⟨reached, run, found, .inl requested⟩
    -- from a cancellation on, success is out of reach
    have last := (passed.invariant (fun c => (system ext settings).Reaches
      (fun c label => keepsStatus c label = true) _ c ∧ ∃ run, c.state.db.jobRuns.find id = some run ∧
        (run.status = .cancelRequested ∨ run.status = .canceled ∨ run.status = .failed ∨
          run.status = .timedOut)) first ?_).2
    · obtain ⟨run, there, status⟩ := last
      cases there.symm.trans found'
      rintro success
      simp [success] at status
    · rintro before label after ⟨reached, run, found, status⟩ kept moved
      obtain ⟨run', found', -⟩ := runStep moved found
      refine ⟨reached.snoc kept moved, run', found', ?_⟩
      rcases keeps_moves reached kept moved found found' with same | leads
      · rw [same]
        exact status
      · exact canceled_leads status leads

/-- A run of the remote job that fails, as no agent has its label, up to its last UPDATE. -/
def Sample.remoteFinalizing : List Label :=
  Sample.started "remote.yaml" "remote" ++ Sample.block 1 ++ Sample.block 5 ++ Sample.block 1 ++
    Sample.block 3 ++ Sample.block 0 ++ Sample.turns .scheduler 1

/-- A cancellation that reads `running` and updates the row after the run has failed. -/
theorem status_law_late_cancel : ¬StatusLaw Sample.ext Sample.settings everything Sample.initial := by
  intro claim
  have passed : ((Sample.run (fun _ _ => true) (Sample.remoteFinalizing ++ Sample.serve 2 (.cancelRun 1) 1 ++
      Sample.turns .scheduler 1)).any fun c =>
        ((system Sample.ext Sample.settings).follow (fun _ _ => true) c (Sample.turns (.request 2) 1)).any
          fun later => (c.state.db.jobRuns.find 1).any (·.status = .failed) &&
            (later.state.db.jobRuns.find 1).any (·.status = .cancelRequested)) = true := by decide +kernel
  obtain ⟨c, later, reached, passed, test⟩ := Sample.arrives_twice passed
  simp only [Bool.and_eq_true] at test
  obtain ⟨run, found, failed⟩ := (Option.any_eq_true _ _).mp test.1
  obtain ⟨run', found', canceled⟩ := (Option.any_eq_true _ _).mp test.2
  simp only [decide_eq_true_eq] at failed canceled
  have still := claim.final c later 1 run reached passed found (by rw [failed]; rfl)
  rw [found', Option.map_some, canceled, failed] at still
  cases still

end PostJen.Server
