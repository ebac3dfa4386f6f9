import PostJen.Server.Timeline
import PostJen.Server.Sample

/-! The order in which runs are taken from the queue.

`process_next_run` takes the queued run that was created first. While the clock
is not set back that is the one with the smallest id, so no run overtakes
another that still waits.
-/

set_option autoImplicit false

open PostJen.Foundations PostJen.Core

namespace PostJen.Server

def Db.Foremost (db : Db) (id : Nat) : Prop :=
  id < db.jobRuns.next ∧ ∀ earlier run, earlier < id → db.jobRuns.find earlier = some run → run.status ≠ .queued

/-- The scheduler works on the run or has started it. -/
def Config.Taken (c : Config) (id : Nat) : Prop :=
  (c.threads .scheduler).point.drives = some id ∨
    ∃ run, c.state.db.jobRuns.find id = some run ∧ run.startedAt.isSome = true

theorem first_of_limitOne {A : Type} {rows : List A} {before : A → A → Bool} {row : A}
    (member : some row ∈ limitOne rows before) : row ∈ rows ∧ ∀ other ∈ rows, before other row = false := by
  refine ⟨mem_limitOne member, ?_⟩
  unfold limitOne at member
  split at member
  · simp at member
  · obtain ⟨row', listed, same⟩ := List.mem_map.mp member
    cases same
    intro other inside
    simpa using List.all_eq_true.mp (List.mem_filter.mp listed).2 other inside

theorem limitOne_first {A : Type} {rows : List A} {before : A → A → Bool} {row : A} (listed : row ∈ rows)
    (first : ∀ other ∈ rows, before other row = false) :
    some row ∈ limitOne rows before ∧ none ∉ limitOne rows before := by
  cases rows with
  | nil => cases listed
  | cons head rest =>
    refine ⟨List.mem_map_of_mem (List.mem_filter.mpr ⟨listed, ?_⟩), by simp [limitOne]⟩
    exact List.all_eq_true.mpr fun other inside => by rw [first other inside]; rfl

theorem picked_foremost {db : Db} {now : Timestamp} (timed : db.Timed now) {queued : QueuedRun}
    (member : some queued ∈ Select.nextQueuedRun.answers db) : db.Foremost queued.id := by
  obtain ⟨picked, listed, same⟩ := List.mem_map.mp member
  obtain ⟨⟨id, run⟩, rfl, rfl⟩ := Option.map_eq_some_iff.mp same
  obtain ⟨inside, first⟩ := first_of_limitOne listed
  show db.Foremost id
  have found := Serial.find_eq_some.mpr (List.mem_of_mem_filter inside)
  refine ⟨Serial.lt_next found, fun earlier run' (less : earlier < id) found' isQueued => ?_⟩
  have waits : (earlier, run') ∈ db.jobRuns.rows.filter fun row => row.2.status = .queued :=
    List.mem_filter.mpr ⟨Serial.find_eq_some.mp found', by simpa using isQueued⟩
  have notBefore := first _ waits
  have older := timed.runs.le found' found less
  simp only [Bool.or_eq_false_iff, Bool.and_eq_false_iff, decide_eq_false_iff_not] at notBefore
  obtain ⟨notOlder, differ | notLess⟩ := notBefore
  · exact differ (le_antisymm older (not_lt.mp notOlder))
  · exact notLess less

theorem step_foremost {ext : External} {settings : Settings} {c after : Config} {label : Label} (placed : c.Placed)
    (moved : step ext settings c label = some after) {id : Nat} (foremost : c.state.db.Foremost id) :
    after.state.db.Foremost id := by
  obtain ⟨exist, none⟩ := foremost
  have grows : c.state.db.jobRuns.next ≤ after.state.db.jobRuns.next := by
    rcases step_jobRuns moved with same | ⟨_, _, _, _, -, -, same⟩ | ⟨_, _, _, _, -, -, same⟩ | ⟨_, _, _, -, -, same⟩
    · rw [same]
    · rw [same, Serial.next_updateAt]
    · rw [same, Serial.next_updateAt]
    · rw [same, Serial.next_insert]
      exact Nat.le_succ _
  refine ⟨exist.trans_le grows, fun earlier run' less found' => ?_⟩
  cases found : c.state.db.jobRuns.find earlier with
  | some run => exact step_dequeued placed moved found found' (none earlier run less found)
  | none =>
    obtain ⟨_, _, _, -, -, isNext, -⟩ := runStep_born moved found found'
    omega

/-! ## The scheduler -/

namespace Queueing

def Passes (before after : State) : Prop := ∀ id, before.db.Foremost id → after.db.Foremost id

def discipline (ext : External) : Discipline Sig State where
  exec op before reply after := op.exec ext before reply after ∧ before.db.Timed before.now ∧ Passes before after
  rely := Passes
  guarantee _ _ _ := True

def assertion (point : Point) (s : State) : Prop :=
  Slot.scheduler.hosts point = true ∧ ∀ id, point.drives = some id → s.db.Foremost id

variable {ext : External} {settings : Settings}

theorem drives_of_leads {point next : Point} (leads : point.Leads next) (picking : point ≠ .schedulerTick) {id : Nat}
    (driving : next.drives = some id) : point.drives = some id := by
  cases leads with
  | pick queued => exact absurd rfl picking
  | visit x x' newlyQueued newlyQueued' node todo visits => cases visits <;> exact driving
  | idle | none | finalize x | abandon point runId there => cases driving
  | _ => exact driving

theorem revises_drives {point : Point} {id : Nat} {change : JobChange} (revises : point.Revises id change) :
    point.drives = some id := by
  cases revises with
  | fail _ _ _ driving => exact driving
  | _ => rfl

theorem holds_block (point : Point) (s : State) (holds : assertion point s) :
    (block ext settings point).Holds (discipline ext) assertion (fun why _ => why.elim) s := by
  obtain ⟨hosted, foremost⟩ := holds
  by_cases picking : point = .schedulerTick
  · subst picking
    refine holds_otherwise ((Proc.holds_bind _ _ _).mpr ?_)
    rintro before moved reply after ⟨ran, timed, passes⟩
    obtain ⟨rfl, answer⟩ := exec_select ran
    refine ⟨trivial, ?_⟩
    rcases answer with ⟨why, rfl⟩ | ⟨row, member, rfl⟩
    · exact ⟨rfl, fun _ driving => by cases driving⟩
    · cases row with
      | none => exact ⟨rfl, fun _ driving => by cases driving⟩
      | some queued =>
        refine ⟨rfl, fun id driving => ?_⟩
        cases driving
        exact picked_foremost timed member
  · have stable : (discipline ext).Stable fun s => ∀ id, point.drives = some id → s.db.Foremost id :=
      fun before after passes holds id driving => passes id (holds id driving)
    have within := (block_within ext settings hosted).holds stable ?_ foremost
    · refine within.mono ?_ fun why _ _ => why.elim
      rintro next after ⟨⟨hosted', leads⟩, holds⟩
      exact ⟨hosted', fun id driving => holds id (drives_of_leads (leads rfl) picking driving)⟩
    · rintro op before reply after may holds ⟨ran, timed, passes⟩
      exact ⟨trivial, fun id driving => passes id (holds id driving)⟩

variable {files : String → Option String} {clock : Nat} {c after : Config} {history : List Label}

def watch : Watch ext settings (Config.initial ext settings files clock) Onward .scheduler State where
  view _ c := c.state
  discipline _ := discipline ext
  assertion := assertion

theorem step_passes (placed : c.Placed) {label : Label} (moved : step ext settings c label = some after) :
    Passes c.state after.state := fun _ => step_foremost placed moved

theorem watch_valid : (watch : Watch ext settings (Config.initial ext settings files clock) Onward .scheduler State).Valid where
  refl := fun _ _ _ foremost => foremost
  blocks := holds_block
  runs := by
    intro history c choice after op rest reply run admitted moved next ran
    obtain ⟨placed, timed⟩ := reaches_timed run.reaches
    exact ⟨⟨choice, ran⟩, timed, step_passes placed moved⟩
  resumes := fun _ _ _ _ run _ moved _ ⟨hosted, holds⟩ =>
    ⟨hosted, fun id driving => step_passes (reaches_timed run.reaches).1 moved id (holds id driving)⟩
  suffers := by
    intro history c label after run admitted moved notExec entry other holds
    have passes := step_passes (reaches_timed run.reaches).1 moved
    refine Thread.Holds.rely ⟨fun _ _ foremost => foremost, fun _ _ _ one two id foremost => two id (one id foremost)⟩
      ?_ holds passes
    rintro point before last passes ⟨hosted, holds⟩
    exact ⟨hosted, fun id driving => passes id (holds id driving)⟩
  enters := by
    intro history c label after point run admitted moved entry
    cases entry with
    | boot hostname slot => exact ⟨rfl, fun _ driving => by cases driving⟩
  idle := ⟨rfl, fun _ driving => by cases driving⟩

end Queueing

/-! ## Runs of the server -/

variable {ext : External} {settings : Settings} {files : String → Option String} {clock : Nat} {c : Config}

theorem path_drives {history : List Label}
    (run : (system ext settings).Path Onward (Config.initial ext settings files clock) history c) {id : Nat}
    (driving : (c.threads .scheduler).point.drives = some id) : c.state.db.Foremost id := by
  induction run with
  | nil =>
    rw [Config.initial_idle] at driving
    cases driving
  | @cons history before after label run admitted moved ih =>
    have passes := Queueing.step_passes (reaches_timed run.reaches).1 moved
    have turn := scheduler_step moved
    generalize after.threads .scheduler = thread at turn driving
    cases turn with
    | same other => exact passes id (ih driving)
    | exec next ran => exact passes id (ih driving)
    | resume ended =>
      have watched := Queueing.watch_valid.sound (Config.initial_idle ext settings files clock _) run
      exact passes id ((Thread.Holds.at_point watched ended).2 id driving)
    | boot => cases driving

theorem path_started {history : List Label}
    (run : (system ext settings).Path Onward (Config.initial ext settings files clock) history c) {id : Nat} {row : JobRun}
    (found : c.state.db.jobRuns.find id = some row) (started : row.startedAt.isSome = true) :
    c.state.db.Foremost id := by
  induction run generalizing row with
  | nil => cases found
  | @cons history before after label run admitted moved ih =>
    have placed := (reaches_timed run.reaches).1
    have passes := Queueing.step_passes placed moved
    cases old : before.state.db.jobRuns.find id with
    | none =>
      obtain ⟨_, _, _, -, -, -, rfl⟩ := runStep_born moved old found
      cases started
    | some was =>
      obtain ⟨row', there, changed⟩ := runStep moved old
      cases found.symm.trans there
      cases changed with
      | same | cancel => exact passes id (ih old started)
      | update slot choice change executed next =>
        -- Only the scheduler updates a run, and only the one that it works on.
        obtain ⟨rfl, revises⟩ := revises_scheduler placed next
        exact passes id (path_drives run (Queueing.revises_drives revises))

/-- Runs are taken in the order of their ids: when a run has been taken, none that was created before it waits. -/
theorem queue_order (run : (system ext settings).Reaches Onward (Config.initial ext settings files clock) c)
    {earlier later : Nat} (before : earlier < later) (taken : c.Taken later) {row : JobRun}
    (found : c.state.db.jobRuns.find earlier = some row) : row.status ≠ .queued := by
  obtain ⟨history, path⟩ := run.path
  have foremost : c.state.db.Foremost later := by
    rcases taken with driving | ⟨row, there, started⟩
    · exact path_drives path driving
    · exact path_started path there started
  exact foremost.2 earlier row before found

/-- The second run is taken once the first one has failed. -/
theorem queue_order_second : ∃ c, (system Sample.ext Sample.settings).Reaches Onward Sample.initial c ∧ c.Taken 2 ∧
    ∃ row, c.state.db.jobRuns.find 1 = some row ∧ row.status ≠ .queued := by
  have passed : (Sample.run Sample.onward (Sample.started "fork.yaml" "fork" ++ Sample.serve 2 (.startRun "fork" {}) 4 ++
      [.edit "fork.yaml" none] ++ Sample.block 1 ++ Sample.block 3 ++ Sample.block 1)).any (fun c =>
        (c.threads .scheduler).point.drives = some 2 && (c.state.db.jobRuns.find 1).isSome) = true := by
    decide +kernel
  obtain ⟨c, reached, holds⟩ := Sample.arrives passed
  rw [Bool.and_eq_true, decide_eq_true_eq] at holds
  have run := reached.mono Sample.onward_sound
  obtain ⟨row, found⟩ := Option.isSome_iff_exists.mp holds.2
  exact ⟨c, run, .inl holds.1, row, found, queue_order run (Nat.lt_succ_self 1) (.inl holds.1) found⟩

end PostJen.Server
