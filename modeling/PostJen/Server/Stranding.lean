import PostJen.Server.Alone
import PostJen.Server.RunLife
import PostJen.Server.Rows

/-! Runs that nobody drives.

`process_next_run` only picks queued runs, so a run in any other status that
has not ended must be the one that the scheduler is executing.
-/

set_option autoImplicit false

open PostJen.Foundations PostJen.Core

namespace PostJen.Server

def JobStatus.inProgress : JobStatus → Bool
  | .running | .cancelRequested => true
  | _ => false

def Db.inProgress (db : Db) (id : Nat) : Bool := (db.jobRuns.find id).any (JobStatus.inProgress ·.status)

def Config.driving (c : Config) : Option Nat :=
  match (c.threads .scheduler).code with
  | .done point => point.drives
  | _ => (c.threads .scheduler).point.drives

section
variable (ext : External) (settings : Settings)

def Config.preparation (c : Config) : Option (QueuedRun × Proc Sig Empty Point) :=
  match (c.threads .scheduler).code with
  | .done (.executeRun queued) => some (queued, block ext settings (.executeRun queued))
  | .done _ => none
  | code =>
      match (c.threads .scheduler).point with
      | .executeRun queued => some (queued, code)
      | _ => none

/-- Executed alone, the rest of the preparation of a run reaches its loop. -/
def Config.prepares (c : Config) (id : Nat) : Bool :=
  (c.preparation ext settings).any fun (queued, program) =>
    queued.id = id && match program.solo (Op.alone ext) c.state with
      | some (.scheduling _, _) => true
      | _ => false

variable (admits : Config → Label → Prop) (start : Config)

structure NoStranding : Prop where
  driven : ∀ c id run, (system ext settings).Reaches admits start c → c.state.db.jobRuns.find id = some run →
    run.status = .running ∨ run.status = .cancelRequested → c.driving = some id
  waits : ∀ c id run, (system ext settings).Reaches admits start c → c.state.db.jobRuns.find id = some run →
    run.status.terminal = false → run.status = .queued ∨ c.driving = some id
  cancels : ∀ before slot index after id fromStatus run, (system ext settings).Reaches admits start before →
    admits before (.exec slot (.answer index)) →
    step ext settings before (.exec slot (.answer index)) = some after →
    before.pending slot = some (.transact (.cancelRun id fromStatus)) →
    before.state.db.jobRuns.find id = some run → run.status = .queued →
    ∃ later, (system ext settings).Reaches admits after later ∧
      ∃ run, later.state.db.jobRuns.find id = some run ∧ run.status = .canceled

/-- A cancellation finds its run in progress, or queued while its preparation
leads to the loop. A run in progress is neither cut off by a restart nor left
by a failing `fail_run_before_start`. -/
def strandsNone (c : Config) : Label → Bool
  | .exec slot (.answer index) =>
      match c.pending slot with
      | some (.transact (.cancelRun id _)) =>
          (c.state.db.jobRuns.find id).all fun run =>
            JobStatus.inProgress run.status || (run.status = .queued &&
              (step ext settings c (.exec slot (.answer index))).all (Config.prepares ext settings · id))
      | _ => true
  | .exec slot (.fail _) =>
      match c.pending slot with
      | some (.write (.updateJob id (.failBeforeStart _))) => !c.state.db.inProgress id
      | _ => true
  | .boot _ => c.state.db.jobRuns.rows.all fun row => !JobStatus.inProgress row.2.status
  | _ => true

end

namespace Stranding

variable {ext : External} {settings : Settings} {c after : Config} {label : Label} {id : Nat}

theorem inProgress_eq {db : Db} : db.inProgress id = true ↔
    ∃ run, db.jobRuns.find id = some run ∧ JobStatus.inProgress run.status = true := by
  unfold Db.inProgress
  rw [Option.any_eq_true]

theorem driving_ended {point : Point} (ended : c.ended .scheduler = some point) : c.driving = point.drives := by
  rw [Config.driving, ended_eq_some.mp ended]

theorem driving_inside (inside : c.ended .scheduler = none) : c.driving = (c.threads .scheduler).point.drives := by
  unfold Config.driving
  unfold Config.ended at inside
  cases code : (c.threads .scheduler).code with
  | done point =>
    rw [code] at inside
    cases inside
  | halt why => exact why.elim
  | call op rest => rfl

theorem preparation_driving {queued : QueuedRun} {program : Proc Sig Empty Point}
    (preparing : c.preparation ext settings = some (queued, program)) : c.driving = some queued.id := by
  unfold Config.preparation at preparing
  unfold Config.driving
  cases code : (c.threads .scheduler).code with
  | done point =>
    rw [code] at preparing
    cases point <;> cases preparing
    rfl
  | halt why => exact why.elim
  | call op rest =>
    rw [code] at preparing
    generalize (c.threads .scheduler).point = point at preparing ⊢
    cases point <;> cases preparing
    rfl

theorem prepares_eq (prepares : c.prepares ext settings id = true) : ∃ queued program x s,
    c.preparation ext settings = some (queued, program) ∧ queued.id = id ∧
      program.solo (Op.alone ext) c.state = some (.scheduling x, s) := by
  obtain ⟨⟨queued, program⟩, preparing, passed⟩ := (Option.any_eq_true _ _).mp prepares
  simp only [Bool.and_eq_true, decide_eq_true_eq] at passed
  obtain ⟨same, passed⟩ := passed
  split at passed
  · rename_i x s ended
    exact ⟨queued, program, x, s, preparing, same, ended⟩
  · cases passed

/-! ## The scheduler -/

structure Driven (driven : Option Nat) (db : Db) : Prop where
  there : ∀ id, driven = some id → db.hasRun id = true
  only : ∀ id, db.inProgress id = true → driven = some id

def Closed (id : Nat) (db : Db) : Prop := ∃ run, db.jobRuns.find id = some run ∧ run.status.terminal = true

def Over (id : Nat) (db : Db) : Prop := Closed id db ∧ Driven none db

/-- What the other tasks leave of a run, if one run is driven. -/
structure Leaves (driven : Option Nat) (before after : Db) (id : Nat) : Prop where
  there : before.hasRun id = true → after.hasRun id = true
  closed : Closed id before → Closed id after
  opens : after.inProgress id = true → before.inProgress id = true ∨ driven = some id ∧ ¬Closed id before

theorem Leaves.trans {driven : Option Nat} {first second third : Db} (one : Leaves driven first second id)
    (two : Leaves driven second third id) : Leaves driven first third id where
  there := two.there ∘ one.there
  closed := two.closed ∘ one.closed
  opens := by
    intro now
    rcases two.opens now with now | ⟨drives, opened⟩
    · exact one.opens now
    · exact .inr ⟨drives, opened ∘ one.closed⟩

def discipline (ext : External) (point : Point) : Discipline Sig State where
  exec op before reply after := op.exec ext before reply after ∧
    ∀ id reason, op = .write (.updateJob id (.failBeforeStart reason)) → after.db.inProgress id = false
  rely before after := ∀ id, Leaves point.drives before.db after.db id
  guarantee _ _ _ := True

def assertion (point : Point) (s : State) : Prop :=
  Slot.scheduler.hosts point = true ∧ Driven point.drives s.db

theorem Driven.leaves {driven : Option Nat} {before after : Db} (holds : Driven driven before)
    (leaves : ∀ id, Leaves driven before after id) : Driven driven after :=
  ⟨fun id drives => (leaves id).there (holds.there id drives),
    fun id now => ((leaves id).opens now).elim (holds.only id) And.left⟩

theorem kept_driven {point : Point} {driven : Option Nat} (drives : point.drives = driven) :
    (discipline ext point).Kept Calm fun s => Driven driven s.db where
  stable := by
    subst drives
    exact fun before after moved holds => holds.leaves moved
  frame := by
    rintro op before reply after calm ⟨ran, -⟩ driven
    have same := RunLife.calm_jobRuns calm ran
    refine ⟨fun id drives => ?_, fun id now => driven.only id ?_⟩
    · rw [Db.hasRun, same]
      exact driven.there id drives
    · rwa [Db.inProgress, same] at now

theorem kept_over {point : Point} {driven : Nat} (drives : point.drives = some driven) :
    (discipline ext point).Kept Calm fun s => Over driven s.db where
  stable := by
    rintro before after moved ⟨closed, quiet⟩
    refine ⟨(moved driven).closed closed, (fun _ same => by cases same), fun id now => ?_⟩
    rcases (moved id).opens now with before | ⟨same, opened⟩
    · exact quiet.only id before
    · cases drives.symm.trans same
      exact absurd closed opened
  frame := by
    rintro op before reply after calm ⟨ran, -⟩ ⟨closed, quiet⟩
    have same := RunLife.calm_jobRuns calm ran
    refine ⟨?_, (fun _ same => by cases same), fun id now => quiet.only id ?_⟩
    · unfold Closed
      rw [same]
      exact closed
    · rwa [Db.inProgress, same] at now

theorem driven_update {driven : Nat} {change : JobChange} {before after : State} {reply : Except SqlError Nat}
    (ran : (Op.write (.updateJob driven change)).exec ext before reply after) (holds : Driven (some driven) before.db) :
    Driven (some driven) after.db := by
  rcases exec_write ran with ⟨-, rfl⟩ | ⟨result, db, applied, -, rfl⟩
  · exact holds
  · cases applied
    refine ⟨?_, fun id now => ?_⟩
    · rintro _ ⟨⟩
      have there := holds.there driven rfl
      unfold Db.hasRun at there ⊢
      rw [Serial.find_updateAt_self, Option.isSome_map]
      exact there
    · by_cases same : id = driven
      · rw [same]
      · refine holds.only id ?_
        rwa [Db.inProgress, Serial.find_updateAt_ne _ _ same] at now

theorem driven_none {driven : Nat} {db : Db} (holds : Driven (some driven) db) (ended : db.inProgress driven = false) :
    Driven none db := by
  refine ⟨(fun _ same => by cases same), fun id now => ?_⟩
  cases holds.only id now
  rw [ended] at now
  cases now

theorem closed_inProgress {db : Db} (closed : Closed id db) : db.inProgress id = false := by
  obtain ⟨run, found, terminal⟩ := closed
  rw [Db.inProgress, found, Option.any_some]
  generalize run.status = status at terminal
  cases status <;> first | rfl | cases terminal

theorem over_update {driven : Nat} {change : JobChange} {before after : State} {result : Nat}
    (ran : (Op.write (.updateJob driven change)).exec ext before (.ok result) after)
    (ends : ∀ now run, (change.apply now run).status.terminal = true) (holds : Driven (some driven) before.db) :
    Over driven after.db := by
  have later := driven_update ran holds
  have closed : Closed driven after.db := by
    rcases exec_write ran with ⟨⟨why, same⟩, -⟩ | ⟨_, db, applied, -, rfl⟩
    · cases same
    · cases applied
      obtain ⟨run, found⟩ := Option.isSome_iff_exists.mp (holds.there driven rfl)
      exact ⟨_, by rw [Serial.find_updateAt_self, found]; rfl, ends _ _⟩
  exact ⟨closed, driven_none later (closed_inProgress closed)⟩

theorem promises (point : Point) (op : Op) (before after : State) (_ : Calm op) :
    (discipline ext point).guarantee op before after := trivial

theorem ticks {s : State} (quiet : Driven none s.db) : assertion .schedulerTick s := ⟨rfl, quiet⟩

theorem fails {point : Point} {driven : Nat} (drives : point.drives = some driven) (s : State) (reason : String)
    (holds : Driven (some driven) s.db) :
    (failRunBeforeStart driven reason).Holds (discipline ext point) (fun _ => assertion .schedulerTick)
      (fun _ => assertion .schedulerTick) s := by
  refine (Proc.holds_bind _ _ _).mpr ((Proc.holds_bind _ _ _).mpr ?_)
  rintro before moved reply after ⟨ran, ends⟩
  have holds := (kept_driven drives).stable s before moved holds
  refine ⟨trivial, ?_⟩
  cases reply with
  | error why => exact ticks (driven_none (driven_update ran holds) (ends driven reason rfl))
  | ok result =>
    exact holds_event (promises point) (kept_over drives) (over_update ran (fun _ _ => rfl) holds)
      (fun _ closed => ticks closed.2) fun _ _ closed => ticks closed.2

theorem Over.driven {db : Db} (finished : Over id db) : Driven (some id) db := by
  obtain ⟨⟨run, found, -⟩, quiet⟩ := finished
  refine ⟨?_, fun other now => by cases quiet.only other now⟩
  rintro _ ⟨⟩
  rw [Db.hasRun, found]
  rfl

theorem looping_drives {point : Point} {runId : Nat} (looping : point.looping = some runId) :
    Slot.scheduler.hosts point = true ∧ point.drives = some runId := by
  cases point <;> first | exact ⟨rfl, looping⟩ | cases looping

theorem holds_looping {point : Point} {runId : Nat} (looping : point.looping = some runId)
    (unfinished : ∀ x, point ≠ .finalizing x) (s : State) (holds : Driven (some runId) s.db) :
    (block ext settings point).Holds (discipline ext point) assertion (fun why _ => why.elim) s := by
  have drives := (looping_drives looping).2
  have kept : (discipline ext point).Kept Calm fun s => Driven (some runId) s.db := kept_driven drives
  refine holds_loop (promises point) kept ?_ (fun s reason holds => fails drives s reason holds) looping
    unfinished holds
  intro next s looping holds
  obtain ⟨hosted, drives⟩ := looping_drives looping
  exact ⟨hosted, by rw [drives]; exact holds⟩

theorem holds_block (point : Point) (s : State) (holds : assertion point s) :
    (block ext settings point).Holds (discipline ext point) assertion (fun why _ => why.elim) s := by
  obtain ⟨hosted, holds⟩ := holds
  cases point with
  | schedulerTick =>
    refine holds_otherwise ((Proc.holds_bind _ _ _).mpr ?_)
    rintro before moved reply after ⟨ran, -⟩
    have holds := (kept_driven rfl).stable s before moved holds
    obtain ⟨rfl, ⟨why, rfl⟩ | ⟨queued, member, rfl⟩⟩ := exec_select ran
    · exact ⟨trivial, ticks holds⟩
    · refine ⟨trivial, ?_⟩
      cases queued with
      | none => exact ticks holds
      | some queued =>
        obtain ⟨run, found, -⟩ := RunLife.mem_nextQueuedRun member
        refine ⟨rfl, ?_, fun id now => by cases holds.only id now⟩
        rintro _ ⟨⟩
        rw [Db.hasRun, found]
        rfl
  | executeRun queued =>
    refine holds_prepare (promises _) (kept_driven rfl) (kept_driven rfl) ?_ ?_ ?_ holds
    · rintro before reply after holds ⟨ran, -⟩
      exact ⟨trivial, fun _ => driven_update ran holds, fun _ => driven_update ran holds⟩
    · rintro x s rfl holds
      exact ⟨rfl, holds⟩
    · exact fun s reason holds => fails rfl s reason (holds.elim id id)
  | finalizing x =>
    refine holds_finalize (promises _) (kept_driven rfl) (kept_over rfl) ?_ (fun s closed => ticks closed.2) ?_ holds
    · rintro before reply after message holds ⟨ran, -⟩
      refine ⟨trivial, ?_, fun _ => driven_update ran holds⟩
      rintro ⟨result, rfl⟩
      exact over_update ran (fun _ _ => determineJobStatus_terminal _ _) holds
    · exact fun s reason holds => fails rfl s reason (holds.elim id Over.driven)
  | scheduling x | pass x _ _ | waiting x | polling x _ =>
    exact holds_looping rfl (fun _ same => by cases same) s holds
  | idle => exact ⟨rfl, holds⟩
  | _ => cases hosted

/-! ## Steps -/

theorem driving_same (same : after.threads .scheduler = c.threads .scheduler) : after.driving = c.driving := by
  rw [Config.driving, Config.driving, same]

/-- A cancellation that succeeds finds a run which it cannot strand. -/
theorem cancel_finds (kept : strandsNone ext settings c label = true)
    (moved : step ext settings c label = some after) (other : ∀ choice, label ≠ .exec .scheduler choice)
    {slot : Slot} {choice : Choice} {fromStatus : JobStatus} {run : JobRun} (executed : label = .exec slot choice)
    (next : c.pending slot = some (.transact (.cancelRun id fromStatus)))
    (found : c.state.db.jobRuns.find id = some run) :
    after.state = c.state ∨ JobStatus.inProgress run.status = true ∨
      run.status = .queued ∧ c.driving = some id := by
  subst executed
  rcases step_answered next rfl moved with same | ⟨index, rfl⟩
  · exact .inl same
  · simp only [strandsNone, next, found, moved, Option.all_some, Bool.or_eq_true, Bool.and_eq_true,
      decide_eq_true_eq] at kept
    rcases kept with inProgress | ⟨queued, prepares⟩
    · exact .inr (.inl inProgress)
    · obtain ⟨waiting, program, x, s, preparing, rfl, -⟩ := prepares_eq prepares
      refine .inr (.inr ⟨queued, ?_⟩)
      rw [← preparation_driving preparing]
      obtain ⟨_, _, _, -, -, -, threads⟩ := step_exec moved
      refine (driving_same ?_).symm
      rw [threads, Config.put_ne _ _ fun same => ?_]
      exact other _ (by rw [same])

theorem step_leaves (placed : c.Placed) (kept : strandsNone ext settings c label = true)
    (moved : step ext settings c label = some after) (other : ∀ choice, label ≠ .exec .scheduler choice) (id : Nat) :
    Leaves c.driving c.state.db after.state.db id := by
  refine ⟨fun there => ?_, ?_, fun now => ?_⟩
  · obtain ⟨run, found⟩ := Option.isSome_iff_exists.mp there
    obtain ⟨run', found', -⟩ := runStep moved found
    rw [Db.hasRun, found']
    rfl
  -- an ended run could only be changed by a cancellation, and that finds no ended run
  · rintro ⟨run, found, terminal⟩
    obtain ⟨run', found', changed⟩ := runStep moved found
    cases changed with
    | same => exact ⟨run, found', terminal⟩
    | update slot choice change executed next =>
      obtain ⟨rfl, -⟩ := revises_scheduler placed next
      exact absurd executed (other choice)
    | cancel slot choice fromStatus executed next =>
      rcases cancel_finds kept moved other executed next found with same | inProgress | ⟨queued, -⟩
      · exact ⟨run, by rw [same, found], terminal⟩
      · have closed := closed_inProgress ⟨run, found, terminal⟩
        rw [Db.inProgress, found, Option.any_some, inProgress] at closed
        cases closed
      · rw [queued] at terminal
        cases terminal
  -- a run in progress was so before, or was canceled in the queue
  · obtain ⟨run', found', inProgress'⟩ := inProgress_eq.mp now
    cases found : c.state.db.jobRuns.find id with
    | none =>
      rw [runStep_new moved found found'] at inProgress'
      cases inProgress'
    | some run =>
      obtain ⟨_, found'', changed⟩ := runStep moved found
      cases found'.symm.trans found''
      cases changed with
      | same => exact .inl (inProgress_eq.mpr ⟨_, found, inProgress'⟩)
      | update slot choice change executed next =>
        obtain ⟨rfl, -⟩ := revises_scheduler placed next
        exact absurd executed (other choice)
      | cancel slot choice fromStatus executed next =>
        rcases cancel_finds kept moved other executed next found with same | inProgress | ⟨queued, drives⟩
        · rw [same] at now
          exact .inl now
        · exact .inl (inProgress_eq.mpr ⟨run, found, inProgress⟩)
        · refine .inr ⟨drives, ?_⟩
          rintro ⟨_, found', terminal⟩
          cases found.symm.trans found'
          rw [queued] at terminal
          cases terminal

theorem fail_closes {choice : Choice} {op : Op} {reply : op.Reply}
    (kept : strandsNone ext settings c (.exec .scheduler choice) = true) (next : c.pending .scheduler = some op)
    (ran : op.run ext choice c.state = some (reply, after.state)) (id : Nat) (reason : String)
    (same : op = .write (.updateJob id (.failBeforeStart reason))) : after.state.db.inProgress id = false := by
  subst same
  cases choice with
  | answer index =>
    generalize after.state = s at ran ⊢
    cases ran
    show Option.any _ (Serial.find _ id) = false
    rw [Serial.find_updateAt_self]
    cases c.state.db.jobRuns.find id <;> rfl
  | fail text =>
    obtain ⟨-, same⟩ := Prod.mk.inj (Option.some.inj ran)
    simp only [strandsNone, next, Bool.not_eq_true'] at kept
    rw [← same, kept]
  | _ => cases ran

variable {start : Config}

def watch (ext : External) (settings : Settings) (start : Config) :
    Watch ext settings start (fun c label => strandsNone ext settings c label = true) .scheduler State where
  view _ c := c.state
  discipline := discipline ext
  assertion := assertion

theorem boot_driven {hostname : String} (kept : strandsNone ext settings c (.boot hostname) = true)
    (moved : step ext settings c (.boot hostname) = some after) : Driven none after.state.db := by
  refine ⟨(fun _ same => by cases same), fun id now => ?_⟩
  rcases step_jobRuns moved with same | ⟨_, _, _, _, executed, -⟩ | ⟨_, _, _, _, executed, -⟩ |
    ⟨_, _, _, executed, -⟩
  · obtain ⟨run, found, inProgress⟩ := inProgress_eq.mp now
    rw [same] at found
    have row := List.all_eq_true.mp kept _ (Serial.find_eq_some.mp found)
    rw [inProgress] at row
    cases row
  · cases executed
  · cases executed
  · cases executed

theorem watch_valid (idle : ∀ slot, start.threads slot = enter ext settings .idle)
    (empty : start.state.db.jobRuns = .empty) : (watch ext settings start).Valid where
  refl := fun point s id => ⟨fun there => there, fun closed => closed, .inl⟩
  blocks := fun point s holds => holds_block point s holds
  runs := fun history c choice after op rest reply run kept moved next ran =>
    ⟨⟨choice, ran⟩, fun id reason same => fail_closes kept (pending_eq_some.mpr ⟨rest, next⟩) ran id reason same⟩
  resumes := by
    intro history c after point run kept moved ended holds
    cases step_moved moved
    exact holds
  suffers := by
    intro history c label after run kept moved notExec _ _ holds
    -- what the scheduler asserts is kept by whatever the steps of others leave
    have leaves := step_leaves (reached_placed idle run.reaches) kept moved notExec
    have holds : (c.threads .scheduler).Holds (discipline ext) assertion c.state := holds
    show (c.threads .scheduler).Holds (discipline ext) assertion after.state
    unfold Thread.Holds at holds ⊢
    unfold Config.driving at leaves
    cases code : (c.threads .scheduler).code with
    | done point =>
      rw [code] at holds leaves
      exact ⟨holds.1, holds.2.leaves leaves⟩
    | halt why => exact why.elim
    | call op rest =>
      rw [code] at holds leaves
      exact fun before later => holds before fun id => (leaves id).trans (later id)
  enters := by
    intro history c label after point run kept moved entry
    cases entry with
    | boot hostname => exact ⟨rfl, boot_driven kept moved⟩
  idle := by
    refine ⟨rfl, (fun _ same => by cases same), fun id now => ?_⟩
    obtain ⟨run, found, -⟩ := inProgress_eq.mp now
    have found : start.state.db.jobRuns.find id = some run := found
    rw [empty] at found
    cases found

theorem exec_opens (placed : c.Placed) {choice : Choice}
    (moved : step ext settings c (.exec .scheduler choice) = some after) (now : after.state.db.inProgress id = true) :
    c.state.db.inProgress id = true ∨ (c.threads .scheduler).point.drives = some id := by
  obtain ⟨run', found', inProgress'⟩ := inProgress_eq.mp now
  cases found : c.state.db.jobRuns.find id with
  | none =>
    rw [runStep_new moved found found'] at inProgress'
    cases inProgress'
  | some run =>
    obtain ⟨_, found'', changed⟩ := runStep moved found
    cases found'.symm.trans found''
    cases changed with
    | same => exact .inl (inProgress_eq.mpr ⟨_, found, inProgress'⟩)
    | update slot choice change executed next =>
      obtain ⟨-, revises⟩ := revises_scheduler placed next
      cases executed
      generalize (c.threads .scheduler).point = point at revises
      cases revises with
      | fail _ _ _ drives => exact .inr drives
      | _ => exact .inr rfl
    | cancel slot choice fromStatus executed next =>
      cases executed
      have hosted := (placed .scheduler).1
      have may := placed.pending next
      generalize (c.threads .scheduler).point = point at hosted may
      cases point <;> first | cases may | cases hosted

/-- A run in progress is the driven one. -/
theorem path_driven (idle : ∀ slot, start.threads slot = enter ext settings .idle)
    (empty : start.state.db.jobRuns = .empty) {history : List Label}
    (run : (system ext settings).Path (fun c label => strandsNone ext settings c label = true) start history c) :
    ∀ id, c.state.db.inProgress id = true → c.driving = some id := by
  have valid : (watch ext settings start).Valid := watch_valid idle empty
  -- Where a block has ended its assertion says so; within a block only the driven run is updated.
  have ends : ∀ {history : List Label} {c : Config}, (system ext settings).Path
      (fun c label => strandsNone ext settings c label = true) start history c → ∀ {point : Point},
      c.ended .scheduler = some point → ∀ id, c.state.db.inProgress id = true → c.driving = some id := by
    intro history c run point ended id now
    have holds := Thread.Holds.at_point (valid.sound (idle .scheduler) run) (ended_eq_some.mp ended)
    rw [driving_ended ended]
    exact holds.2.only id now
  induction run with
  | nil =>
    intro id now
    obtain ⟨run, found, -⟩ := inProgress_eq.mp now
    rw [empty] at found
    cases found
  | @cons history c after label run kept moved ih =>
    intro id now
    have moved : step ext settings c label = some after := moved
    cases ended : after.ended .scheduler with
    | some point => exact ends (run.cons kept moved) ended id now
    | none =>
      have placed := reached_placed idle run.reaches
      have inside := driving_inside ended
      have scheduled := scheduler_step moved
      generalize same : after.threads .scheduler = thread at scheduled inside
      generalize after.state = state at scheduled
      cases scheduled with
      | same other =>
        rw [driving_same same]
        exact ((step_leaves placed kept moved other id).opens now).elim (ih id) And.left
      | @exec choice op rest reply _ next ran =>
        rcases exec_opens placed moved now with before | drives
        · rw [inside, ← ih id before, Config.driving, next]
        · rw [inside, drives]
      | @resume point _ resumed =>
        rw [inside]
        have drives : c.driving = point.drives := by rw [Config.driving, resumed]
        have leaves := step_leaves placed kept moved (fun _ same => by cases same) id
        exact (drives.symm.trans ((leaves.opens now).elim (ih id) And.left))
      | boot => cases (boot_driven kept moved).only id now

/-! ## Canceled preparations -/

def present : RowRegime where
  fact _ _ := True
  may _ _ := True

theorem present_governs (idle : ∀ slot, start.threads slot = enter ext settings .idle)
    (admits : Config → Label → Prop) :
    (present.regime ext).Governs ext settings start admits fun _ c => c.state := by
  have valid : present.Valid := by constructor <;> intros <;> trivial
  exact valid.governs idle fun _ _ _ _ _ _ _ _ _ _ _ _ _ _ _ => trivial

theorem preparation_keeps {queued : QueuedRun} {op : Op} {before after : State} {reply : op.Reply}
    (may : (Point.executeRun queued).may op = true) (ran : op.alone ext before = some (reply, after))
    (canceled : ∃ run, before.db.jobRuns.find queued.id = some run ∧
      (run.status = .cancelRequested ∨ run.status = .failed)) :
    ∃ run, after.db.jobRuns.find queued.id = some run ∧ (run.status = .cancelRequested ∨ run.status = .failed) := by
  obtain ⟨run, found, status⟩ := canceled
  rcases exec_jobRuns ⟨.answer 0, ran⟩ with same | ⟨id, change, rfl, updated⟩ | ⟨id, fromStatus, rfl, -⟩ |
    ⟨new, rfl, -⟩
  · exact ⟨run, by rw [same, found], status⟩
  · rw [updated]
    have revises := Point.makes_revises (show (Point.executeRun queued).makes (.updateJob id change) = true from may)
    cases revises with
    | start =>
      refine ⟨_, by rw [Serial.find_updateAt_self, found]; rfl, ?_⟩
      simp only [JobChange.apply]
      split
      · rename_i waiting
        rw [waiting] at status
        rcases status with status | status <;> cases status
      · exact status
    | fail _ _ reason driving =>
      cases driving
      exact ⟨_, by rw [Serial.find_updateAt_self, found]; rfl, .inr rfl⟩
  · cases may
  · cases may

theorem preparation_within (placed : c.Placed) {queued : QueuedRun} {program : Proc Sig Empty Point}
    (preparing : c.preparation ext settings = some (queued, program)) :
    program.Within (fun op => (Point.executeRun queued).may op = true)
      fun next => Slot.scheduler.Follows (.executeRun queued) next := by
  have within := (placed .scheduler).2
  unfold Config.preparation at preparing
  cases code : (c.threads .scheduler).code with
  | done point =>
    rw [code] at preparing
    cases point <;> cases preparing
    exact block_within ext settings rfl
  | halt why => exact why.elim
  | call op rest =>
    rw [code] at preparing within
    generalize (c.threads .scheduler).point = point at preparing within
    cases point <;> cases preparing
    exact within

theorem preparation_reaches {admits : Config → Label → Prop} (free : Unhindered admits) (placed : c.Placed)
    {queued : QueuedRun} {program : Proc Sig Empty Point} {x : Execution} {s : State}
    (preparing : c.preparation ext settings = some (queued, program))
    (ended : program.solo (Op.alone ext) c.state = some (.scheduling x, s)) :
    ∃ later, (system ext settings).Reaches admits c later ∧ later.Placed ∧ later.state = s ∧
      (later.threads .scheduler).code = .done (.scheduling x) := by
  unfold Config.preparation at preparing
  cases code : (c.threads .scheduler).code with
  | done point =>
    rw [code] at preparing
    cases point <;> cases preparing
    exact enter_reaches free placed code ended
  | halt why => exact why.elim
  | call op rest =>
    rw [code] at preparing
    generalize (c.threads .scheduler).point = point at preparing
    cases point <;> cases preparing
    exact solo_reaches free placed code ended

theorem unhindered : Unhindered fun c label => strandsNone ext settings c label = true := by
  intro c placed
  refine ⟨?_, rfl⟩
  simp only [strandsNone]
  split
  · rename_i id fromStatus next
    have hosted := (placed .scheduler).1
    have may := placed.pending next
    generalize (c.threads .scheduler).point = point at hosted may
    cases point <;> first | cases may | cases hosted
  · rfl

theorem cancel_row {slot : Slot} {index : Nat} {fromStatus : JobStatus} {run : JobRun}
    (moved : step ext settings c (.exec slot (.answer index)) = some after)
    (next : c.pending slot = some (.transact (.cancelRun id fromStatus)))
    (found : c.state.db.jobRuns.find id = some run) :
    ∃ run, after.state.db.jobRuns.find id = some run ∧ run.status = .cancelRequested := by
  obtain ⟨op, rest, reply, -, next', ran, -⟩ := step_exec moved
  cases next.symm.trans next'
  generalize after.state = s at ran ⊢
  have there : c.state.db.hasRun id = true := by
    rw [Db.hasRun, found]
    rfl
  simp only [Op.run, Transaction.apply, there, Bool.not_true, Bool.false_eq_true, if_false] at ran
  cases ran
  exact ⟨_, by rw [Serial.find_updateAt_self, found]; rfl, rfl⟩

theorem cancels {admits : Config → Label → Prop} (free : Unhindered admits)
    (idle : ∀ slot, start.threads slot = enter ext settings .idle)
    (reached : (system ext settings).Reaches admits start c) (prepares : c.prepares ext settings id = true)
    {run : JobRun} (found : c.state.db.jobRuns.find id = some run) (canceled : run.status = .cancelRequested) :
    ∃ later, (system ext settings).Reaches admits c later ∧
      ∃ run, later.state.db.jobRuns.find id = some run ∧ run.status = .canceled := by
  have placed := reached_placed idle reached
  obtain ⟨queued, program, x, s, preparing, rfl, ended⟩ := prepares_eq prepares
  obtain ⟨⟨-, leads⟩, kept⟩ := (preparation_within placed preparing).solo
    (fun op before reply after => preparation_keeps) ⟨run, found, .inl canceled⟩ ended
  obtain ⟨first, reached', placed', rfl, code⟩ := preparation_reaches free placed preparing ended
  cases leads rfl with
  | prepare _ nodes nodeIds =>
    obtain ⟨history, path⟩ := (reached.trans reached').path
    have valid : (RunLife.outline : Outline ext settings start admits State).Valid := RunLife.outline_valid idle
    obtain ⟨-, -, active⟩ := ((valid.sound idle path) .scheduler).at_point code rfl
    have looping := (present_governs idle admits).at_point path code
    have row : ∃ run, first.state.db.jobRuns.find queued.id = some run ∧ run.status = .cancelRequested := by
      obtain ⟨run, found, status⟩ := kept
      obtain ⟨_, found', running⟩ := active queued.id rfl
      cases found.symm.trans found'
      refine ⟨run, found, status.resolve_right fun failed => ?_⟩
      rw [failed] at running
      rcases running with running | running <;> cases running
    obtain ⟨later, further, ended⟩ := Alone.loop_reaches free placed' code
      ⟨rfl, rfl, (fun key status result => by cases result), row, fun node member => by
        obtain ⟨id, known⟩ := looping.sound.numbered node member
        obtain ⟨row, there, -⟩ := looping.phased node member id known
        have there : first.state.db.nodeRuns.find id = some row := there
        exact ⟨id, known, by rw [Db.hasNode, there]; rfl⟩⟩
    exact ⟨later, reached'.trans further, ended⟩

end Stranding

/-- A run in progress is driven and a canceled queued run can still end as
canceled, under the conditions of `strandsNone`. -/
theorem no_stranding (ext : External) (settings : Settings) (files : String → Option String) (clock : Nat) :
    NoStranding ext settings (fun c label => strandsNone ext settings c label = true)
      (Config.initial ext settings files clock) where
  driven := by
    intro c id run reached found status
    obtain ⟨history, path⟩ := reached.path
    refine Stranding.path_driven (Config.initial_idle ext settings files clock) rfl path id
      (Stranding.inProgress_eq.mpr ⟨run, found, ?_⟩)
    rcases status with status | status <;> rw [status] <;> rfl
  waits := by
    intro c id run reached found unfinished
    have idle := Config.initial_idle ext settings files clock
    have created := RunLife.reached_created idle rfl reached id run found
    obtain ⟨history, path⟩ := reached.path
    by_cases queued : run.status = .queued
    · exact .inl queued
    · refine .inr (Stranding.path_driven idle rfl path id (Stranding.inProgress_eq.mpr ⟨run, found, ?_⟩))
      generalize run.status = status at unfinished created queued
      cases status <;> first | rfl | contradiction
  cancels := by
    intro before slot index after id fromStatus run reached kept moved next found queued
    have idle := Config.initial_idle ext settings files clock
    obtain ⟨run', found', canceled⟩ := Stranding.cancel_row moved next found
    have prepares : after.prepares ext settings id = true := by
      simp only [strandsNone, next, found, moved, queued, Option.all_some, JobStatus.inProgress, Bool.false_or,
        decide_true, Bool.true_and] at kept
      exact kept
    exact Stranding.cancels Stranding.unhindered idle (reached.snoc kept moved) prepares found' canceled

def Sample.canceledQueued : List Label :=
  Sample.started "fork.yaml" "fork" ++ Sample.serve 2 (.cancelRun 1) 2

theorem no_stranding_canceled_queued : ¬NoStranding Sample.ext Sample.settings everything Sample.initial := by
  intro claim
  have passed : (Sample.run (fun _ _ => true) Sample.canceledQueued).any (fun c =>
      (c.state.db.jobRuns.find 1).any (·.status = .cancelRequested) && c.driving = none) = true := by decide +kernel
  obtain ⟨c, followed, test⟩ := (Option.any_eq_true _ _).mp passed
  simp only [Bool.and_eq_true, decide_eq_true_eq] at test
  obtain ⟨run, found, canceled⟩ := (Option.any_eq_true _ _).mp test.1
  have driven := claim.driven c 1 run (Sample.reached_freely followed) found (.inr (by simpa using canceled))
  rw [test.2] at driven
  cases driven

end PostJen.Server
