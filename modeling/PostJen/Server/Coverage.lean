import PostJen.Server.Cron
import PostJen.Server.Disabled

/-! Which scheduled instants the cron checks cover.

The checks of a job whose schedule stays the same look into windows that begin
at the stored time. A check stores its own reading, so an instant on which the
check falls while it fires for an earlier one is in no window.
-/

set_option autoImplicit false

open PostJen.Foundations PostJen.Core

namespace PostJen.Server

/-! ## Checks without SQL errors -/

def Op.smooth (path : String) : (op : Op) → op.Reply → Bool
  | .select _, .error _ => false
  | .write _, .error _ => false
  | .transact _, .error _ => false
  | .load other, .error _ => other != path
  | _, _ => true

def Op.runSmoothly (ext : External) (path : String) (op : Op) (choice : Choice) (s : State) :
    Option (op.Reply × State) :=
  (op.run ext choice s).filter fun result => op.smooth path result.1

/-- `check_cron_triggers` executed alone. -/
def Checks (ext : External) (path : String) (before after : State) : Prop :=
  ∃ outcome, ((checkCronTriggers ext).attempt (F := Empty)).Returns
    (fun (op : Op) s reply s' => ∃ choice, op.runSmoothly ext path choice s = some (reply, s')) before outcome after

/-- The other tasks execute operations, and files and the clock change. -/
inductive Meanwhile (ext : External) (start : State) : State → Prop where
  | nothing : Meanwhile ext start start
  | operation {s s' : State} (earlier : Meanwhile ext start s) (op : Op) (reply : op.Reply)
      (ran : op.exec ext s reply s') (other : ∀ run, op = .transact (.createRun run) → run.lastTriggeredAt = none) :
      Meanwhile ext start s'
  | environment {s s' : State} (earlier : Meanwhile ext start s) (untouched : s'.db = s.db) : Meanwhile ext start s'

def Db.cronRuns (db : Db) (definitionId : Nat) : List JobRun :=
  (db.jobRuns.rows.filter fun row => row.2.jobDefinitionId = definitionId && row.2.triggerType = "cron").map Prod.snd

/-- The checks `0` to `last` of an enabled job with one schedule whose definition loads, less than a minute apart. -/
structure Checked (ext : External) (instants : String → Set Int) (definitionId : Nat) (expression : String)
    (last : Nat) (before after : Nat → State) : Prop where
  crate : CronCrate ext instants
  scheduled : (ext.schedule expression).isSome = true
  listed : ∀ i, i ≤ last → ∃ row, (before i).db.jobDefinitions.find definitionId = some row ∧ row.enabled = true ∧
    row.triggersJson.bind ext.decodeCron = some expression ∧ Checks ext row.definitionPath (before i) (after i)
  meanwhile : ∀ i, i < last → Meanwhile ext (after i) (before (i + 1))
  rising : ∀ i, i < last → (before i).clock < (before (i + 1)).clock
  close : ∀ i, i < last → (before (i + 1)).clock < (before i).clock + 60000
  first : ∀ mark, (before 0).db.stamp definitionId = some (some mark) → mark * 1000 < (before 0).clock

def checkedAt (before : Nat → State) (i : Nat) : Int := ((before i).clock : Int)

def State.searchStart (s : State) (definitionId : Nat) : Int :=
  triggerStart (s.db.stamp definitionId).join s.clock

/-- The first check later than an instant creates a cron run of the job. -/
def FiredFor (definitionId : Nat) (last : Nat) (before after : Nat → State) (instant : Int) : Prop :=
  ∃ i, i ≤ last ∧ instant < checkedAt before i ∧ (∀ earlier, earlier < i → checkedAt before earlier ≤ instant) ∧
    ∃ run, (after i).db.cronRuns definitionId = (before i).db.cronRuns definitionId ++ [run]

/-! ## One check -/

namespace Coverage

def Passes (definitionId : Nat) (fires : Bool) (stamp : Timestamp) (before after : Db) : Prop :=
  if fires then (∃ run, after.cronRuns definitionId = before.cronRuns definitionId ++ [run]) ∧
    after.stamp definitionId = some (some stamp)
  else after.cronRuns definitionId = before.cronRuns definitionId ∧ after.stamp definitionId = before.stamp definitionId

variable {ext : External} {definitionId : Nat} {path : String} {stamp : Timestamp} {first middle last : Db}
  {fires : Bool} {s s' : State}

theorem Passes.nothing (db : Db) : Passes definitionId false stamp db db := ⟨rfl, rfl⟩

theorem Passes.after (passes : Passes definitionId fires stamp middle last)
    (before : Passes definitionId false stamp first middle) : Passes definitionId fires stamp first last := by
  cases fires with
  | false => exact ⟨passes.1.trans before.1, passes.2.trans before.2⟩
  | true =>
    obtain ⟨⟨run, added⟩, stored⟩ := passes
    exact ⟨⟨run, before.1 ▸ added⟩, stored⟩

theorem Passes.before (passes : Passes definitionId fires stamp first middle)
    (after : Passes definitionId false stamp middle last) : Passes definitionId fires stamp first last := by
  cases fires with
  | false => exact ⟨after.1.trans passes.1, after.2.trans passes.2⟩
  | true =>
    obtain ⟨⟨run, added⟩, stored⟩ := passes
    exact ⟨⟨run, after.1.trans added⟩, after.2.trans stored⟩

def discipline (ext : External) (path : String) : Discipline Sig State where
  exec op s reply s' := ∃ choice, op.runSmoothly ext path choice s = some (reply, s')
  rely before after := after = before
  guarantee _ _ _ := True

theorem ran_smoothly {op : Op} {reply : op.Reply} (ran : (discipline ext path).exec op s reply s') :
    op.exec ext s reply s' ∧ op.smooth path reply = true := by
  obtain ⟨choice, ran⟩ := ran
  obtain ⟨ran, smooth⟩ := Option.filter_eq_some_iff.mp ran
  exact ⟨⟨choice, ran⟩, smooth⟩

theorem passes_createRun {job : CronJob} {workingDir : String} {now : Nat} {stamp : Timestamp} {db db' : Db}
    {response : StartRunResponse}
    (applied : (Transaction.createRun (job.newRun workingDir now)).apply stamp db = .ok (response, db')) :
    Passes definitionId (job.id = definitionId) (now / 1000) db db' := by
  obtain ⟨-, inserted, stamps⟩ := createRun_ok applied
  have runs : db'.cronRuns definitionId = db.cronRuns definitionId ++
      if job.id = definitionId then [(job.newRun workingDir now).row stamp] else [] := by
    unfold Db.cronRuns
    rw [inserted, Serial.rows_insert, List.filter_append, List.map_append]
    congr 1
    by_cases same : job.id = definitionId <;> simp [NewRun.row, CronJob.newRun, same]
  by_cases same : job.id = definitionId
  · rw [if_pos same] at runs
    rw [decide_eq_true same]
    exact ⟨⟨_, runs⟩, (stamps definitionId).trans (if_pos same.symm)⟩
  · rw [if_neg same, List.append_nil] at runs
    rw [decide_eq_false same]
    exact ⟨runs, (stamps definitionId).trans (if_neg (Ne.symm same))⟩

/-- One job of the loop: only the job itself is concerned, if it is due. -/
theorem holds_triggerCronJob (now : Nat) (job : CronJob) (first : Db)
    (self : job.id = definitionId → job.definitionPath = path ∧ ∃ next,
      (job.expression ext).bind ext.schedule = some next ∧ shouldTrigger next job.lastTriggeredAt now = fires)
    (same : s.db = first) :
    (triggerCronJob ext now job).Holds (discipline ext path)
      (fun _ s => Passes definitionId (decide (job.id = definitionId) && fires) (now / 1000) first s.db)
      (fun _ _ => False) s := by
  subst same
  have silent : (job.id = definitionId → fires = false) →
      Passes definitionId (decide (job.id = definitionId) && fires) (now / 1000) s.db s.db := by
    intro quiet
    have none : (decide (job.id = definitionId) && fires) = false := by
      by_cases here : job.id = definitionId
      · rw [quiet here, Bool.and_false]
      · rw [decide_eq_false here, Bool.false_and]
    rw [none]
    exact .nothing _
  unfold triggerCronJob
  split
  · rename_i unscheduled
    refine silent fun here => ?_
    obtain ⟨-, next, scheduled, -⟩ := self here
    cases unscheduled.symm.trans scheduled
  · rename_i next scheduled
    split
    · rename_i triggers
      rintro s rfl reply middle ran
      obtain ⟨ran, smooth⟩ := ran_smoothly ran
      have unchanged : middle.db = s.db := exec_reads rfl ran
      refine ⟨trivial, ?_⟩
      cases reply with
      | error why =>
        -- A definition that does not load is that of another job.
        show Passes _ _ _ s.db middle.db
        rw [unchanged]
        refine silent fun here => ?_
        rw [(self here).1] at smooth
        simp [Op.smooth] at smooth
      | ok definition =>
        rintro middle rfl reply last ran
        obtain ⟨ran, smooth⟩ := ran_smoothly ran
        refine ⟨trivial, ?_⟩
        rcases exec_transact ran with ⟨⟨why, rfl⟩, -⟩ | ⟨response, db, applied, rfl, rfl⟩
        · cases smooth
        · show Passes _ _ _ s.db db
          rw [unchanged] at applied
          have due : (decide (job.id = definitionId) && fires) = decide (job.id = definitionId) := by
            by_cases here : job.id = definitionId
            · obtain ⟨-, next', scheduled', known⟩ := self here
              cases scheduled.symm.trans scheduled'
              rw [← known, triggers, Bool.and_true]
            · rw [decide_eq_false here, Bool.false_and]
          rw [due]
          exact passes_createRun applied
    · rename_i rests
      refine silent fun here => ?_
      obtain ⟨-, next', scheduled', known⟩ := self here
      cases scheduled.symm.trans scheduled'
      rw [← known]
      exact Bool.eq_false_of_not_eq_true rests

theorem holds_triggerCronJobs (now : Nat) (jobs : List CronJob) (first : Db) (distinct : (jobs.map (·.id)).Nodup)
    (self : ∀ job ∈ jobs, job.id = definitionId → job.definitionPath = path ∧ ∃ next,
      (job.expression ext).bind ext.schedule = some next ∧ shouldTrigger next job.lastTriggeredAt now = fires)
    (same : s.db = first) :
    (triggerCronJobs ext now jobs).Holds (discipline ext path)
      (fun _ s => Passes definitionId (decide (definitionId ∈ jobs.map (·.id)) && fires) (now / 1000) first s.db)
      (fun _ _ => False) s := by
  -- the ids are distinct, so at most one job of the list is the one in question
  induction jobs generalizing s first with
  | nil =>
    subst same
    exact Passes.nothing _
  | cons job rest ih =>
    obtain ⟨apart, distinct⟩ := List.nodup_cons.mp distinct
    refine (Proc.holds_bind _ _ _).mpr ((holds_triggerCronJob now job first (self job List.mem_cons_self) same).mono ?_
      fun _ _ never => never)
    intro _ middle passes
    refine (ih middle.db distinct (fun other member => self other (List.mem_cons_of_mem _ member)) rfl).mono ?_
      fun _ _ never => never
    intro _ last others
    -- if it is the first job, the rest of the list passes it over
    by_cases here : job.id = definitionId
    · have absent : decide (definitionId ∈ rest.map (·.id)) = false := decide_eq_false (here ▸ apart)
      have listed : decide (definitionId ∈ (job :: rest).map (·.id)) = true :=
        decide_eq_true (here ▸ List.mem_cons_self)
      rw [absent, Bool.false_and] at others
      rw [decide_eq_true here] at passes
      rw [listed]
      exact passes.before others
    · have listed : decide (definitionId ∈ (job :: rest).map (·.id)) = decide (definitionId ∈ rest.map (·.id)) := by
        refine decide_eq_decide.mpr ?_
        rw [List.map_cons, List.mem_cons]
        exact ⟨fun either => either.resolve_left (Ne.symm here), .inr⟩
      rw [decide_eq_false here, Bool.false_and] at passes
      rw [listed]
      exact others.after passes

/-- A whole check: the job gets one run if it is due, and none otherwise. -/
theorem check_passes {row : JobDefinitionRow} {expression : String} {next : Int → Option Int}
    (found : s.db.jobDefinitions.find definitionId = some row) (enabled : row.enabled = true)
    (read : row.triggersJson.bind ext.decodeCron = some expression) (scheduled : ext.schedule expression = some next)
    (checks : Checks ext row.definitionPath s s') :
    Passes definitionId (shouldTrigger next row.lastTriggeredAt s.clock) (s.clock / 1000) s.db s'.db := by
  obtain ⟨outcome, returned⟩ := checks
  have holds : (checkCronTriggers ext).Holds (discipline ext row.definitionPath)
      (fun _ last => Passes definitionId (shouldTrigger next row.lastTriggeredAt s.clock) (s.clock / 1000) s.db last.db)
      (fun _ _ => False) s := by
    refine (Proc.holds_bind _ _ _).mpr ((Proc.holds_bind _ _ _).mpr ?_)
    rintro s rfl reply middle ran
    obtain ⟨ran, smooth⟩ := ran_smoothly ran
    refine ⟨trivial, ?_⟩
    obtain ⟨rfl, ⟨why, rfl⟩ | ⟨jobs, member, rfl⟩⟩ := exec_select ran
    · cases smooth
    · obtain ⟨distinct, rows⟩ := answers_cronJobs member
      refine (Proc.holds_bind _ _ _).mpr ?_
      rintro s rfl now later ran
      obtain ⟨⟨choice, ran⟩, -⟩ := ran_smoothly ran
      refine ⟨trivial, ?_⟩
      have clock : now = s.clock ∧ later = s := by
        cases choice with
        | answer index =>
          cases ran
          exact ⟨rfl, rfl⟩
        | _ => cases ran
      obtain ⟨rfl, rfl⟩ := clock
      -- the job is among those that the check reads, with the stored time of its row
      have listed : definitionId ∈ jobs.map (·.id) := by
        have due : row.triggersJson.isSome = true := by
          obtain ⟨text, stored, -⟩ := Option.bind_eq_some_iff.mp read
          rw [stored]
          rfl
        refine List.mem_map.mpr ⟨_, (List.mem_permutations'.mp member).mem_iff.mpr (List.mem_map.mpr
          ⟨(definitionId, row), List.mem_filter.mpr ⟨Serial.find_eq_some.mp found, ?_⟩, rfl⟩), rfl⟩
        simp only [enabled, due, Bool.and_self]
      have self : ∀ job ∈ jobs, job.id = definitionId → job.definitionPath = row.definitionPath ∧ ∃ next',
          (job.expression ext).bind ext.schedule = some next' ∧ shouldTrigger next' job.lastTriggeredAt later.clock =
            shouldTrigger next row.lastTriggeredAt later.clock := by
        rintro job inside rfl
        obtain ⟨row', found', -, made⟩ := rows job inside
        cases found.symm.trans found'
        rw [made]
        exact ⟨rfl, next, Option.bind_eq_some_iff.mpr ⟨expression, read, scheduled⟩, rfl⟩
      refine (holds_triggerCronJobs later.clock jobs later.db distinct self rfl).mono ?_ fun _ _ never => never
      intro _ last passes
      rw [decide_eq_true listed, Bool.true_and] at passes
      exact passes
  have ended := holds.returns (fun _ => rfl) returned
  cases outcome with
  | ok value => exact ended.1 value rfl
  | error why => exact (ended.2 why rfl).elim

/-! ## The sweep of the checks -/

theorem meanwhile_stamp (meanwhile : Meanwhile ext s s') {mark : Option Timestamp}
    (here : s.db.stamp definitionId = some mark) : s'.db.stamp definitionId = some mark := by
  induction meanwhile with
  | nothing => exact here
  | operation _ op reply ran other ih => exact exec_stamp ran other ih
  | environment _ untouched ih =>
    rw [untouched]
    exact ih

section
variable {instants : String → Set Int} {expression : String} {last : Nat} {before after : Nat → State}
  (checked : Checked ext instants definitionId expression last before after)
include checked

theorem checked_passes {i : Nat} (inside : i ≤ last) : ∃ mark, (before i).db.stamp definitionId = some mark ∧
    ∃ fires : Bool, (fires = true ↔ Due (instants expression) ((before i).searchStart definitionId) (checkedAt before i)) ∧
      Passes definitionId fires ((before i).clock / 1000) (before i).db (after i).db := by
  obtain ⟨next, scheduled⟩ := Option.isSome_iff_exists.mp checked.scheduled
  obtain ⟨row, found, enabled, read, checks⟩ := checked.listed i inside
  have stored : (before i).db.stamp definitionId = some row.lastTriggeredAt := by rw [Db.stamp, found, Option.map_some]
  refine ⟨_, stored, _, ?_, check_passes found enabled read scheduled checks⟩
  rw [State.searchStart, stored, Option.join_some]
  exact checked.crate.shouldTrigger_iff scheduled _ _

theorem next_stamp {i : Nat} (inside : i < last) :
    (Due (instants expression) ((before i).searchStart definitionId) (checkedAt before i) →
      (before (i + 1)).db.stamp definitionId = some (some ((before i).clock / 1000))) ∧
    (¬Due (instants expression) ((before i).searchStart definitionId) (checkedAt before i) →
      (before (i + 1)).db.stamp definitionId = (before i).db.stamp definitionId) := by
  obtain ⟨mark, stored, fires, due, passes⟩ := checked_passes checked inside.le
  have meanwhile := checked.meanwhile i inside
  constructor
  · intro isDue
    rw [due.mpr isDue] at passes
    exact meanwhile_stamp meanwhile passes.2
  · intro notDue
    rw [Bool.eq_false_of_not_eq_true fun fired => notDue (due.mp fired)] at passes
    rw [stored]
    exact meanwhile_stamp meanwhile (passes.2.trans stored)

theorem stamp_before {i : Nat} (inside : i ≤ last) {mark : Timestamp}
    (stored : (before i).db.stamp definitionId = some (some mark)) : mark * 1000 < (before i).clock := by
  induction i generalizing mark with
  | zero => exact checked.first mark stored
  | succ i ih =>
    have rising := checked.rising i inside
    obtain ⟨fired, waited⟩ := next_stamp checked inside
    by_cases due : Due (instants expression) ((before i).searchStart definitionId) (checkedAt before i)
    · cases stored.symm.trans (fired due)
      exact lt_of_le_of_lt (Nat.div_mul_le_self _ _) rising
    · rw [waited due] at stored
      exact (ih (Nat.le_of_succ_le inside) stored).trans rising

theorem sweep : Sweep (instants expression) truncated last (fun i => (before i).searchStart definitionId)
    (checkedAt before) where
  truncation := checked.crate.truncation expression
  rising := fun i inside => Int.ofNat_lt.mpr (checked.rising i inside)
  fired := by
    intro i inside due
    rw [State.searchStart, (next_stamp checked inside).1 due]
    exact truncated_now _
  waited := by
    intro i inside notDue
    have rising := checked.rising i inside
    have close := checked.close i inside
    obtain ⟨mark, stored, -⟩ := checked_passes checked inside.le
    have kept := (next_stamp checked inside).2 notDue
    simp only [State.searchStart, kept, stored, Option.join_some, checkedAt]
    cases mark with
    | none =>
      simp only [triggerStart]
      omega
    | some mark =>
      have earlier := stamp_before checked inside.le stored
      simp only [triggerStart]
      exact ⟨le_rfl, Int.ofNat_lt.mpr earlier⟩

end

end Coverage

/-- Every instant between the first and the last check is covered, unless a check falls on an instant while an
earlier one is due and no other follows before the next check. -/
theorem cron_covers {ext : External} {instants : String → Set Int} {definitionId : Nat} {expression : String}
    {last : Nat} {before after : Nat → State} (checked : Checked ext instants definitionId expression last before after) :
    (∀ instant ∈ instants expression, checkedAt before 0 ≤ instant → instant < checkedAt before last →
      FiredFor definitionId last before after instant) ↔
    ∀ i, i < last →
      ¬Coincides (instants expression) ((before 0).searchStart definitionId) (checkedAt before) i := by
  refine Iff.trans ?_ (Coverage.sweep checked).covers_iff
  refine forall₄_congr fun instant _ _ _ => exists_congr fun i => ?_
  refine and_congr_right fun inside => and_congr_right fun _ => and_congr_right fun _ => ?_
  obtain ⟨mark, stored, fires, due, passes⟩ := Coverage.checked_passes checked inside
  rw [← due]
  cases fires with
  | true => exact ⟨fun _ => rfl, fun _ => passes.1⟩
  | false =>
    refine ⟨fun ⟨run, added⟩ => ?_, fun impossible => by cases impossible⟩
    rw [passes.1] at added
    simp at added

/-! ## Two checks of a job that fires every minute -/

namespace Sample

def checkAt (s : State) (clock count : Nat) : Option (State × State) :=
  ((checkCronTriggers scheduling).play (fun op : Op => op.runSmoothly scheduling "nightly.yaml")
    (List.replicate count (.answer 0)) { s with clock }).map fun result => ({ s with clock }, result.2)

def nightlyListed (s : State) : Bool :=
  (s.db.jobDefinitions.find 1).any fun row => row.enabled &&
    row.triggersJson.bind scheduling.decodeCron = some "0 * * * * *" && row.definitionPath = "nightly.yaml"

/-- The job has fired at 1000 seconds; two checks follow. -/
def checkTwice (first second count : Nat) (test : State → State → Bool) : Bool :=
  ((system scheduling settings).follow (fun _ _ => true) nightlyInitial nightlyFired).any fun c =>
    (checkAt c.state first 4).any fun check =>
      (checkAt check.2 second count).any fun again =>
        nightlyListed check.1 && nightlyListed again.1 && check.1.db.stamp 1 = some (some 1000) &&
          test again.1 again.2

theorem checkAt_checks {s b a : State} {clock count : Nat} (checked : checkAt s clock count = some (b, a)) :
    Checks scheduling "nightly.yaml" b a ∧ b.clock = clock ∧ b.db = s.db := by
  obtain ⟨result, played, same⟩ := Option.map_eq_some_iff.mp checked
  cases same
  exact ⟨⟨_, Proc.play_returns played⟩, rfl, rfl⟩

theorem nightlyListed_row {s s' : State} (listed : nightlyListed s = true)
    (checks : Checks scheduling "nightly.yaml" s s') :
    ∃ row, s.db.jobDefinitions.find 1 = some row ∧ row.enabled = true ∧
      row.triggersJson.bind scheduling.decodeCron = some "0 * * * * *" ∧ Checks scheduling row.definitionPath s s' := by
  obtain ⟨row, found, fits⟩ := (Option.any_eq_true _ _).mp listed
  simp only [Bool.and_eq_true, decide_eq_true_eq] at fits
  obtain ⟨⟨enabled, read⟩, path⟩ := fits
  exact ⟨row, found, enabled, read, path ▸ checks⟩

theorem checkTwice_checked {first second count : Nat} {test : State → State → Bool}
    (passed : checkTwice first second count test = true) (late : 1000000 < first) (rising : first < second)
    (close : second < first + 60000) :
    ∃ before after : Nat → State, Checked scheduling minutes 1 "0 * * * * *" 1 before after ∧
      (before 0).clock = first ∧ (before 1).clock = second ∧ (before 0).db.stamp 1 = some (some 1000) ∧
      test (before 1) (after 1) = true := by
  obtain ⟨c, -, passed⟩ := (Option.any_eq_true _ _).mp passed
  obtain ⟨⟨b, a⟩, checked, passed⟩ := (Option.any_eq_true _ _).mp passed
  obtain ⟨⟨b', a'⟩, again, passed⟩ := (Option.any_eq_true _ _).mp passed
  simp only [Bool.and_eq_true, decide_eq_true_eq] at passed
  obtain ⟨⟨⟨listed, listed'⟩, stored⟩, tested⟩ := passed
  obtain ⟨checks, clock, -⟩ := checkAt_checks checked
  obtain ⟨checks', clock', same⟩ := checkAt_checks again
  refine ⟨fun i => if i = 0 then b else b', fun i => if i = 0 then a else a', ⟨scheduling_crate, rfl, ?_, ?_, ?_, ?_, ?_⟩,
    clock, clock', stored, tested⟩
  · intro i _
    by_cases zero : i = 0
    · simp only [zero, if_true]
      exact nightlyListed_row listed checks
    · simp only [zero, if_false]
      exact nightlyListed_row listed' checks'
  · intro i inside
    cases Nat.lt_one_iff.mp inside
    exact .environment .nothing same
  · intro i inside
    cases Nat.lt_one_iff.mp inside
    simp only [if_true, Nat.zero_add, Nat.one_ne_zero, if_false, clock, clock']
    exact rising
  · intro i inside
    cases Nat.lt_one_iff.mp inside
    simp only [if_true, Nat.zero_add, Nat.one_ne_zero, if_false, clock, clock']
    exact close
  · intro mark here
    simp only [if_true] at here ⊢
    cases stored.symm.trans here
    rw [clock]
    omega

end Sample

/-- Checks half a second after the minute lose no instant. -/
theorem cron_covers_apart : ∃ before after : Nat → State,
    checkedAt before 0 = 1080500 ∧ checkedAt before 1 = 1140400 ∧ ((after 1).db.cronRuns 1).length = 3 ∧
      ∀ instant ∈ Sample.minutes "0 * * * * *", checkedAt before 0 ≤ instant → instant < checkedAt before 1 →
        FiredFor 1 1 before after instant := by
  have passed : Sample.checkTwice 1080500 1140400 4 (fun _ after => (after.db.cronRuns 1).length = 3) = true := by
    decide +kernel
  obtain ⟨before, after, checked, first, second, -, runs⟩ :=
    Sample.checkTwice_checked passed (by decide) (by decide) (by decide)
  have first' : checkedAt before 0 = 1080500 := congrArg Nat.cast first
  have second' : checkedAt before 1 = 1140400 := congrArg Nat.cast second
  refine ⟨before, after, first', second', of_decide_eq_true runs, (cron_covers checked).mpr ?_⟩
  rintro i inside ⟨member, -, -⟩
  cases Nat.lt_one_iff.mp inside
  obtain ⟨minute, same⟩ := member
  omega

theorem cron_covers_coinciding : ¬∀ ext instants definitionId expression last before after,
    Checked ext instants definitionId expression last before after →
    ∀ instant ∈ instants expression, checkedAt before 0 ≤ instant → instant < checkedAt before last →
      FiredFor definitionId last before after instant := by
  intro claim
  have passed : Sample.checkTwice 1080000 1110000 2
      (fun before after => (after.db.cronRuns 1).length = (before.db.cronRuns 1).length) = true := by decide +kernel
  obtain ⟨before, after, checked, first, second, -, runs⟩ :=
    Sample.checkTwice_checked passed (by decide) (by decide) (by decide)
  have first' : checkedAt before 0 = 1080000 := congrArg Nat.cast first
  have second' : checkedAt before 1 = 1110000 := congrArg Nat.cast second
  obtain ⟨i, inside, later, -, run, added⟩ :=
    claim _ _ _ _ _ before after checked 1080000 ⟨18, rfl⟩ (by omega) (by omega)
  have isSecond : i = 1 := by
    rcases Nat.le_one_iff_eq_zero_or_eq_one.mp inside with rfl | rfl
    · rw [first'] at later
      exact absurd later (lt_irrefl _)
    · rfl
  subst isSecond
  have same := of_decide_eq_true runs
  rw [added, List.length_append] at same
  simp at same

end PostJen.Server
