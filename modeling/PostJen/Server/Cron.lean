import PostJen.Foundations.Timetable
import PostJen.Server.Parameters

/-! Cron runs and the scheduled instants they stand for.

A firing stores the truncated clock reading, and the next search starts strictly
behind it. Only the cron task writes that column, so what it has read about a
job is still stored when it creates the run.
-/

set_option autoImplicit false

open PostJen.Foundations PostJen.Core

namespace PostJen.Server

/-! ## The cron crate -/

/-- A schedule has a set of instants, on whole seconds, and finds the least one strictly after a time. -/
structure CronCrate (ext : External) (instants : String → Set Int) : Prop where
  timetable : ∀ expression next, ext.schedule expression = some next → Timetable (instants expression) next
  seconds : ∀ expression, ∀ instant ∈ instants expression, (1000 : Int) ∣ instant

/-- A time formatted without its milliseconds and parsed again. -/
def truncated (time : Int) : Int := time / 1000 * 1000

theorem CronCrate.truncation {ext : External} {instants : String → Set Int} (crate : CronCrate ext instants)
    (expression : String) : Truncation (instants expression) truncated where
  le := fun time => Int.ediv_mul_le time (by decide)
  passes := by
    intro time instant member early
    obtain ⟨seconds, rfl⟩ := crate.seconds expression instant member
    unfold truncated
    omega

theorem truncated_now (now : Nat) : ((now / 1000 * 1000 : Nat) : Int) = truncated now := by
  unfold truncated
  omega

def CronJob.expression (ext : External) (job : CronJob) : Option String := job.triggersJson.bind ext.decodeCron

theorem CronCrate.shouldTrigger_iff {ext : External} {instants : String → Set Int} (crate : CronCrate ext instants)
    {expression : String} {next : Int → Option Int} (scheduled : ext.schedule expression = some next)
    (lastTriggeredAt : Option Timestamp) (now : Nat) :
    shouldTrigger next lastTriggeredAt now = true ↔
      Due (instants expression) (triggerStart lastTriggeredAt now) now :=
  (crate.timetable expression next scheduled).any_iff _ _

/-! ## Firings -/

/-- A run created by the cron task, the job as it was read, and the clock reading. -/
structure Firing where
  job : CronJob
  now : Nat
  runId : Nat

def Point.firing : Point → StartRunResponse → Option Firing
  | .cron now (job :: _), response => some ⟨job, now, response.runId⟩
  | _, _ => none

/-- The firing of a step, which commits the transaction of the cron task. -/
def firing (ext : External) (c : Config) : Label → Option Firing
  | .exec .cron choice =>
      match (c.threads .cron).code with
      | .call (.transact (.createRun run)) _ =>
          match (Op.transact (.createRun run)).run ext choice c.state with
          | some (.ok response, _) => (c.threads .cron).point.firing response
          | _ => none
      | _ => none
  | _ => none

def firings (ext : External) (settings : Settings) (start : Config) (history : List Label) : List Firing :=
  (system ext settings).annals (fun c label earlier => earlier ++ (firing ext c label).toList) [] start history

/-- A scheduled instant of the job, strictly before the clock reading. -/
def Firing.Fits (ext : External) (instants : String → Set Int) (firing : Firing) (instant : Int) : Prop :=
  ∃ expression, firing.job.expression ext = some expression ∧ instant ∈ instants expression ∧
    instant < (firing.now : Int)

/-- The firings of each job stand for strictly increasing instants, and no run of the cron task is left out. -/
structure CronOnce (ext : External) (settings : Settings) (instants : String → Set Int) (start : Config)
    (history : List Label) : Prop where
  matched : ∀ definitionId, ∃ times, Matched (Firing.Fits ext instants)
    ((firings ext settings start history).filter fun firing => firing.job.id = definitionId) times
  logged : ∀ id new, (system ext settings).Happened everything start
    (fun before label after => (∃ choice, label = .exec .cron choice) ∧ CreatesRun id new before label after) history →
    ∃ firing ∈ firings ext settings start history, firing.runId = id ∧ firing.job.id = new.jobDefinitionId

/-! ## The column `last_triggered_at` -/

def Db.stamp (db : Db) (definitionId : Nat) : Option (Option Timestamp) :=
  (db.jobDefinitions.find definitionId).map (·.lastTriggeredAt)

section
variable {ext : External} {before after : State}

theorem createRun_ok {run : NewRun} {now : Timestamp} {db db' : Db} {response : StartRunResponse}
    (applied : (Transaction.createRun run).apply now db = .ok (response, db')) :
    response.runId = db.jobRuns.next ∧ db'.jobRuns = db.jobRuns.insert (run.row now) ∧
      ∀ id, db'.stamp id = if id = run.jobDefinitionId then run.lastTriggeredAt.elim (db.stamp id) (some ∘ some)
        else db.stamp id := by
  simp only [Transaction.apply] at applied
  split at applied
  · cases applied
  · rename_i linked
    simp only [Bool.or_eq_true, not_or, Bool.not_eq_true, Option.isNone_eq_false_iff] at linked
    obtain ⟨job, there⟩ := Option.isSome_iff_exists.mp linked.1
    cases applied
    refine ⟨rfl, rfl, fun id => ?_⟩
    unfold Db.stamp
    cases run.lastTriggeredAt with
    | none => exact (ite_self _).symm
    | some stamp =>
      simp only [Serial.find_updateAt]
      split
      · rename_i same
        rw [same, there]
        rfl
      · rfl

theorem registerJob_stamp {definition : DefinitionUpsert} {now : Timestamp} {db db' : Db} {row : JobDefinitionRow}
    (applied : (Transaction.registerJob definition).apply now db = .ok (row, db')) {id : Nat}
    {mark : Option Timestamp} (here : db.stamp id = some mark) : db'.stamp id = some mark := by
  obtain ⟨old, found, rfl⟩ := Option.map_eq_some_iff.mp here
  simp only [Transaction.apply] at applied
  split at applied
  · cases applied
    simp only [Db.stamp, Serial.find_insert, if_neg (Nat.ne_of_lt (Serial.lt_next found)), found, Option.map_some]
  · cases applied
    simp only [Db.stamp, Serial.find_updateAt, found]
    split <;> rfl

theorem write_jobDefinitions {write : Write} {now : Timestamp} {db db' : Db} {affected : Nat}
    (applied : write.apply now db = .ok (affected, db')) : db'.jobDefinitions = db.jobDefinitions := by
  cases write with
  | insertNode node =>
    simp only [Write.apply] at applied
    split at applied
    · cases applied
    · split at applied
      · cases applied
      · split at applied <;> cases applied
        rfl
  | log new =>
    simp only [Write.apply] at applied
    split at applied
    · cases applied
    · split at applied <;> cases applied
      rfl
  | agents change | event new | artifact new =>
    simp only [Write.apply] at applied
    split at applied <;> cases applied
    rfl
  | _ =>
    cases applied
    rfl

theorem exec_stamp {op : Op} {reply : op.Reply} (ran : op.exec ext before reply after)
    (other : ∀ run, op = .transact (.createRun run) → run.lastTriggeredAt = none) {id : Nat}
    {mark : Option Timestamp} (here : before.db.stamp id = some mark) : after.db.stamp id = some mark := by
  cases op with
  | write write =>
    rcases exec_write ran with ⟨-, rfl⟩ | ⟨result, db, applied, -, rfl⟩
    · exact here
    · rw [← here, Db.stamp, Db.stamp, write_jobDefinitions applied]
  | transact transaction =>
    rcases exec_transact ran with ⟨-, rfl⟩ | ⟨result, db, applied, -, rfl⟩
    · exact here
    · cases transaction with
      | createRun run =>
        have stamps := (createRun_ok applied).2.2 id
        rw [other run rfl, Option.elim_none, ite_self] at stamps
        exact stamps.trans here
      | cancelRun runId fromStatus =>
        simp only [Transaction.apply] at applied
        split at applied <;> cases applied
        exact here
      | registerJob definition => exact registerJob_stamp applied here
  | _ => rw [← here, exec_reads rfl ran]

theorem answers_cronJobs {db : Db} {jobs : List CronJob} (member : jobs ∈ Select.cronJobs.answers db) :
    (jobs.map (·.id)).Nodup ∧ ∀ job ∈ jobs, ∃ row, db.jobDefinitions.find job.id = some row ∧ row.enabled = true ∧
      job = ⟨job.id, row.jobId, row.name, row.definitionPath, row.definitionHash, row.triggersJson,
        row.lastTriggeredAt⟩ := by
  have order := List.mem_permutations'.mp member
  constructor
  · refine ((order.map (·.id)).nodup_iff).mpr ?_
    rw [List.map_map]
    exact db.jobDefinitions.table.distinct.sublist (List.filter_sublist.map Prod.fst)
  · intro job listed
    obtain ⟨⟨id, row⟩, inside, rfl⟩ := List.mem_map.mp (order.mem_iff.mp listed)
    obtain ⟨inside, due⟩ := List.mem_filter.mp inside
    exact ⟨row, Serial.find_eq_some.mpr inside, (Bool.and_eq_true_iff.mp due).1, rfl⟩

end

/-! ## The cron task -/

namespace Cron

variable {ext : External} {settings : Settings} {start c after : Config} {admits : Config → Label → Prop}
  {history : List Label} {instants : String → Set Int}

abbrev Stamps := Nat → Option (Option Timestamp)

def Onward (before after : Stamps) : Prop := ∀ id mark, before id = some mark → after id = some mark

/-- The run that a job creates when it fires, with the stored time still the one it has read. -/
def Ready (ext : External) : Point → Stamps → NewRun → Prop
  | .cron now (job :: _), stamps, run => ∃ expression next workingDir, job.expression ext = some expression ∧
      ext.schedule expression = some next ∧ shouldTrigger next job.lastTriggeredAt now = true ∧
      stamps job.id = some job.lastTriggeredAt ∧ run = job.newRun workingDir now
  | _, _, _ => False

def Sees (before after : Stamps) : (op : Op) → op.Reply → Prop
  | .transact (.createRun run), _ => ∀ id, id ≠ run.jobDefinitionId → after id = before id
  | .select .cronJobs, .ok jobs => after = before ∧ (jobs.map (·.id)).Nodup ∧
      ∀ job ∈ jobs, before job.id = some job.lastTriggeredAt
  | op, _ => op.writes = false → after = before

def discipline (ext : External) (point : Point) : Discipline Sig Stamps where
  exec op before reply after := Sees before after op reply
  rely := Onward
  guarantee op before _ := ∀ run, op = .transact (.createRun run) → Ready ext point before run

/-- The jobs that are still to be checked have not fired since they were read. -/
def assertion : Point → Stamps → Prop
  | .idle, _ | .cronTick, _ => True
  | .cron _ todo, stamps => (todo.map (·.id)).Nodup ∧ ∀ job ∈ todo, stamps job.id = some job.lastTriggeredAt
  | _, _ => False

theorem onward_preorder (point : Point) : (discipline ext point).Preorder :=
  ⟨fun _ _ _ here => here, fun _ _ _ first second id mark here => second id mark (first id mark here)⟩

theorem stable_assertion (point next : Point) : (discipline ext point).Stable (assertion next) := by
  intro before after onward holds
  cases next with
  | cron now todo => exact ⟨holds.1, fun job member => onward _ _ (holds.2 job member)⟩
  | _ => exact holds

theorem holds_triggerCronJob (now : Nat) (job : CronJob) (todo : List CronJob) {stamps : Stamps}
    (holds : assertion (.cron now (job :: todo)) stamps) :
    (triggerCronJob ext now job).Holds (discipline ext (.cron now (job :: todo)))
      (fun _ stamps => assertion (.cron now todo) stamps) (fun _ _ => True) stamps := by
  have stable := @stable_assertion ext (.cron now (job :: todo)) (.cron now (job :: todo))
  have rest : ∀ stamps, assertion (.cron now (job :: todo)) stamps → assertion (.cron now todo) stamps :=
    fun _ holds => ⟨(List.nodup_cons.mp holds.1).2, fun other member => holds.2 other (List.mem_cons_of_mem _ member)⟩
  unfold triggerCronJob
  split
  · exact rest _ holds
  · rename_i next scheduled
    obtain ⟨expression, read, known⟩ := Option.bind_eq_some_iff.mp scheduled
    split
    · rename_i fires
      intro before onward reply after sees
      have holds := stable _ _ onward holds
      refine ⟨fun _ same => (by cases same), ?_⟩
      rw [show after = before from sees rfl]
      cases reply with
      | error why => exact rest _ holds
      | ok definition =>
        intro before' onward reply after sees
        have holds := stable _ _ onward holds
        refine ⟨fun run same => ?_, ?_⟩
        · cases same
          exact ⟨expression, next, definition.workingDir, read, known, fires, holds.2 job List.mem_cons_self, rfl⟩
        · cases reply with
          | error why => trivial
          | ok response =>
            refine ⟨(rest _ holds).1, fun other member => ?_⟩
            have apart : other.id ≠ job.id := by
              intro same
              exact (List.nodup_cons.mp holds.1).1 (List.mem_map.mpr ⟨other, member, same⟩)
            exact (sees other.id apart).trans ((rest _ holds).2 other member)
    · exact rest _ holds

theorem holds_block (point : Point) (stamps : Stamps) (holds : assertion point stamps) :
    (block ext settings point).Holds (discipline ext point) assertion (fun why _ => why.elim) stamps := by
  cases point with
  | idle => trivial
  | cronTick =>
    refine holds_otherwise ((Proc.holds_bind _ _ _).mpr ((Proc.holds_bind _ _ _).mpr ?_))
    intro before _ reply after sees
    refine ⟨fun _ same => (by cases same), ?_⟩
    cases reply with
    | error why => trivial
    | ok jobs =>
      obtain ⟨rfl, distinct, stored⟩ := sees
      intro before onward now later same
      refine ⟨fun _ impossible => (by cases impossible), distinct, fun job member => ?_⟩
      rw [show later = before from same rfl]
      exact onward _ _ (stored job member)
  | cron now todo =>
    cases todo with
    | nil => trivial
    | cons job todo =>
      exact holds_otherwise ((Proc.holds_bind _ _ _).mpr ((holds_triggerCronJob now job todo holds).mono
        (fun _ _ tail => tail) fun _ _ _ => trivial))
  | _ => exact holds.elim

variable (ext settings start admits) in
def watch : Watch ext settings start admits .cron Stamps where
  view _ c := c.state.db.stamp
  discipline := discipline ext
  assertion := assertion

theorem sees {op : Op} {reply : op.Reply} {s s' : State} (ran : op.exec ext s reply s') :
    Sees s.db.stamp s'.db.stamp op reply := by
  have reading : op.writes = false → s'.db.stamp = s.db.stamp := fun pure => by rw [exec_reads pure ran]
  cases op with
  | transact transaction =>
    cases transaction with
    | createRun run =>
      intro id apart
      rcases exec_transact ran with ⟨-, rfl⟩ | ⟨response, db, applied, -, rfl⟩
      · rfl
      · exact ((createRun_ok applied).2.2 id).trans (if_neg apart)
    | _ => exact reading
  | select query =>
    cases query with
    | cronJobs =>
      cases reply with
      | error why => exact reading
      | ok jobs =>
        obtain ⟨same, ⟨why, impossible⟩ | ⟨jobs', member, here⟩⟩ := exec_select ran
        · cases impossible
        · cases here
          obtain ⟨distinct, rows⟩ := answers_cronJobs member
          refine ⟨reading rfl, distinct, fun job listed => ?_⟩
          obtain ⟨row, found, -, made⟩ := rows job listed
          rw [Db.stamp, found, made]
          rfl
    | _ => exact reading
  | _ => exact reading

end Cron

section
variable {ext : External} {settings : Settings} {start c after : Config} {admits : Config → Label → Prop}
  {history : List Label} {label : Label}

/-- Only the cron task changes what is stored about a job that is there. -/
theorem path_stamp (idle : ∀ slot, start.threads slot = enter ext settings .idle)
    (run : (system ext settings).Path admits start history c) (admitted : admits c label)
    (moved : step ext settings c label = some after) (other : ∀ choice, label ≠ .exec .cron choice) :
    Cron.Onward c.state.db.stamp after.state.db.stamp := by
  intro id mark here
  rcases step_db moved with ⟨same, -⟩ | ⟨slot, choice, op, reply, rfl, next, ran⟩ | ⟨hostname, affected, rfl, registered⟩
  · rw [same]
    exact here
  · refine exec_stamp ran (fun new same => ?_) here
    subst same
    have placed := reached_placed idle run.reaches
    have made := path_made (idle slot) run admitted moved next
    have hosted : slot.hosts (c.threads slot).point = true := (placed slot).1
    revert made hosted
    generalize (c.threads slot).point = point
    rintro made hosted
    cases made with
    | cron now job todo definition loaded =>
      cases slot <;> first | exact absurd rfl (other choice) | cases hosted
    | _ => rfl
  · rw [Db.stamp, write_jobDefinitions registered]
    exact here

theorem Cron.watch_valid (idle : ∀ slot, start.threads slot = enter ext settings .idle) :
    (Cron.watch ext settings start admits).Valid where
  refl := fun point => (Cron.onward_preorder point).refl
  blocks := fun point stamps holds => Cron.holds_block point stamps holds
  runs := fun _ _ choice _ _ _ _ _ _ _ _ ran => Cron.sees ⟨choice, ran⟩
  resumes := by
    intro history c after point run admitted moved ended holds
    have same : after.state = c.state := by
      cases step_moved moved with
      | resume => rfl
    show Cron.assertion point after.state.db.stamp
    rw [same]
    exact holds
  suffers := by
    intro history c label after run admitted moved notExec entry other holds
    exact Thread.Holds.rely (Cron.onward_preorder _) (Cron.stable_assertion _) holds
      (path_stamp idle run admitted moved notExec)
  enters := by
    intro history c label after point _ _ _ entry
    cases entry
    trivial
  idle := trivial

theorem cron_ready (idle : ∀ slot, start.threads slot = enter ext settings .idle)
    (run : (system ext settings).Path admits start history c) {choice : Choice}
    (admitted : admits c (.exec .cron choice)) (moved : step ext settings c (.exec .cron choice) = some after)
    {new : NewRun} (next : c.pending .cron = some (.transact (.createRun new))) :
    Cron.Ready ext (c.threads .cron).point c.state.db.stamp new := by
  have valid : (Cron.watch ext settings start admits).Valid := Cron.watch_valid idle
  obtain ⟨op, rest, reply, code, next', ran, -⟩ := step_exec moved
  cases next.symm.trans next'
  exact valid.guaranteed (valid.sound (idle .cron) run) run admitted moved code ran new rfl

end

/-! ## Runs of the server -/

namespace Cron

variable {ext : External} {settings : Settings} {start c after : Config} {admits : Config → Label → Prop}
  {history : List Label} {label : Label} {instants : String → Set Int}

/-- The firings of each job stand for strictly increasing instants, none of them after the stored time. -/
def Sound (ext : External) (instants : String → Set Int) (stamps : Stamps) (fired : List Firing) : Prop :=
  ∀ id, ∃ times, Matched (Firing.Fits ext instants) (fired.filter fun firing => firing.job.id = id) times ∧
    ∀ time ∈ times, ∃ last, stamps id = some (some last) ∧ time ≤ ((last * 1000 : Nat) : Int)

theorem Sound.onward {before stamps : Stamps} {fired : List Firing} (sound : Sound ext instants before fired)
    (onward : Onward before stamps) : Sound ext instants stamps fired := by
  intro id
  obtain ⟨times, matched, bounded⟩ := sound id
  refine ⟨times, matched, fun time member => ?_⟩
  obtain ⟨last, stored, bound⟩ := bounded time member
  exact ⟨last, onward id _ stored, bound⟩

/-- A job fires for an instant after everything it fired for, and stores a time that is not before it. -/
theorem Sound.fire {before stamps : Stamps} {fired : List Firing} (sound : Sound ext instants before fired)
    (crate : CronCrate ext instants) {now : Nat} {job : CronJob} {expression : String}
    (read : job.expression ext = some expression) (stored : before job.id = some job.lastTriggeredAt)
    (due : Due (instants expression) (triggerStart job.lastTriggeredAt now) now) (runId : Nat)
    (here : stamps job.id = some (some (now / 1000))) (others : ∀ id, id ≠ job.id → stamps id = before id) :
    Sound ext instants stamps (fired ++ [⟨job, now, runId⟩]) := by
  intro id
  obtain ⟨times, matched, bounded⟩ := sound id
  rw [List.filter_append]
  by_cases same : id = job.id
  · subst same
    obtain ⟨instant, member, later, early⟩ := due
    -- the search starts behind the stored time, which no earlier instant exceeds
    have after : ∀ earlier ∈ times, earlier < instant := by
      intro earlier listed
      obtain ⟨last, mark, bound⟩ := bounded earlier listed
      rw [stored] at mark
      rw [Option.some.inj mark] at later
      exact lt_of_le_of_lt bound later
    refine ⟨times ++ [instant], ?_, fun time listed => ⟨now / 1000, here, ?_⟩⟩
    · rw [List.filter_singleton, decide_eq_true rfl]
      exact matched.snoc ⟨expression, read, member, early⟩ after
    · have bound : time ≤ instant := by
        rcases List.mem_append.mp listed with earlier | single
        · exact (after time earlier).le
        · exact (List.mem_singleton.mp single).le
      rw [truncated_now]
      exact bound.trans ((crate.truncation expression).passes _ instant member early.le)
  · have none : ([⟨job, now, runId⟩] : List Firing).filter (fun firing => firing.job.id = id) = [] := by
      rw [List.filter_singleton, decide_eq_false (Ne.symm same)]
      rfl
    refine ⟨times, ?_, fun time listed => ?_⟩
    · rw [none, List.append_nil]
      exact matched
    · obtain ⟨last, mark, bound⟩ := bounded time listed
      exact ⟨last, (others id same).trans mark, bound⟩

theorem firing_cases {choice : Choice} (moved : step ext settings c (.exec .cron choice) = some after) :
    (∃ new response, c.pending .cron = some (.transact (.createRun new)) ∧
      (Transaction.createRun new).apply c.state.now c.state.db = .ok (response, after.state.db) ∧
      firing ext c (.exec .cron choice) = (c.threads .cron).point.firing response) ∨
    (firing ext c (.exec .cron choice) = none ∧ Onward c.state.db.stamp after.state.db.stamp ∧
      after.state.db.jobRuns.next = c.state.db.jobRuns.next) := by
  obtain ⟨op, rest, reply, code, next, ran, -⟩ := step_exec moved
  -- any statement but the INSERT of a run creates none and stores nothing
  have quiet : (∀ new, op ≠ .transact (.createRun new)) → firing ext c (.exec .cron choice) = none ∧
      Onward c.state.db.stamp after.state.db.stamp ∧
      after.state.db.jobRuns.next = c.state.db.jobRuns.next := by
    intro barren
    refine ⟨?_, fun id mark here => exec_stamp ⟨choice, ran⟩ (fun new same => absurd same (barren new)) here, ?_⟩
    · simp only [firing, code]
      split
      · rename_i new other same
        cases same
        exact absurd rfl (barren new)
      · rfl
    · rcases exec_jobRuns ⟨choice, ran⟩ with same | ⟨_, _, -, same⟩ | ⟨_, _, -, same⟩ | ⟨new, same, -⟩
      · rw [same]
      · rw [same, Serial.next_updateAt]
      · rw [same, Serial.next_updateAt]
      · exact absurd same (barren new)
  cases op with
  | transact transaction =>
    cases transaction with
    | createRun new =>
      rcases exec_transact ⟨choice, ran⟩ with ⟨⟨why, rfl⟩, same⟩ | ⟨response, db, applied, rfl, same⟩
      · refine .inr ⟨?_, fun id mark here => ?_, by rw [same]⟩
        · simp only [firing, code, ran]
        · rw [same]
          exact here
      · refine .inl ⟨new, response, next, ?_, ?_⟩
        · rw [same]
          exact applied
        · simp only [firing, code, ran]
    | _ => exact .inr (quiet fun _ => nofun)
  | _ => exact .inr (quiet fun _ => nofun)

theorem firing_other (other : ∀ choice, label ≠ .exec .cron choice) : firing ext c label = none := by
  cases label with
  | exec slot choice =>
    cases slot with
    | cron => exact absurd rfl (other choice)
    | _ => rfl
  | _ => rfl

theorem firings_cons (run : (system ext settings).Path admits start history c) (label : Label) :
    firings ext settings start (label :: history) =
      firings ext settings start history ++ (firing ext c label).toList :=
  run.annals label

theorem sound_step (crate : CronCrate ext instants) (idle : ∀ slot, start.threads slot = enter ext settings .idle)
    (run : (system ext settings).Path admits start history c) (admitted : admits c label)
    (moved : step ext settings c label = some after)
    (sound : Sound ext instants c.state.db.stamp (firings ext settings start history)) :
    Sound ext instants after.state.db.stamp (firings ext settings start (label :: history)) := by
  rw [firings_cons run]
  by_cases here : ∃ choice, label = .exec .cron choice
  · obtain ⟨choice, rfl⟩ := here
    rcases firing_cases moved with ⟨new, response, next, applied, fired⟩ | ⟨none, onward, -⟩
    · have ready := cron_ready idle run admitted moved next
      rw [fired]
      generalize (c.threads .cron).point = point at ready
      cases point with
      | cron now todo =>
        cases todo with
        | nil => exact ready.elim
        | cons job todo =>
          obtain ⟨expression, next, workingDir, read, scheduled, triggers, stored, rfl⟩ := ready
          have due := (crate.shouldTrigger_iff scheduled _ _).mp triggers
          have stamps := (createRun_ok applied).2.2
          exact sound.fire crate read stored due response.runId ((stamps job.id).trans (if_pos rfl))
            fun id apart => (stamps id).trans (if_neg apart)
      | _ => exact ready.elim
    · rw [none, Option.toList_none, List.append_nil]
      exact sound.onward onward
  · have other : ∀ choice, label ≠ .exec .cron choice := fun choice same => here ⟨choice, same⟩
    rw [firing_other other, Option.toList_none, List.append_nil]
    exact sound.onward (path_stamp idle run admitted moved other)

theorem path_sound (crate : CronCrate ext instants) (idle : ∀ slot, start.threads slot = enter ext settings .idle)
    (run : (system ext settings).Path admits start history c) :
    Sound ext instants c.state.db.stamp (firings ext settings start history) := by
  induction run with
  | nil => exact fun id => ⟨[], .nil, fun _ member => by cases member⟩
  | cons run admitted moved ih => exact sound_step crate idle run admitted moved ih

theorem firing_created (idle : ∀ slot, start.threads slot = enter ext settings .idle)
    (run : (system ext settings).Path admits start history c) {choice : Choice}
    (admitted : admits c (.exec .cron choice)) (moved : step ext settings c (.exec .cron choice) = some after)
    {id : Nat} {new : NewRun} (created : CreatesRun id new c (.exec .cron choice) after) :
    ∃ fired, firing ext c (.exec .cron choice) = some fired ∧ fired.runId = id ∧ fired.job.id = new.jobDefinitionId := by
  obtain ⟨slot, choice, same, next, absent, found⟩ := created
  cases same
  have ready := cron_ready idle run admitted moved next
  obtain ⟨slot, choice', new', same, next', isNext, -⟩ := runStep_born moved absent found
  cases same
  rcases firing_cases moved with ⟨other, response, next'', applied, fired⟩ | ⟨-, -, kept⟩
  · cases next.symm.trans next''
    rw [fired]
    generalize (c.threads .cron).point = point at ready
    cases point with
    | cron now todo =>
      cases todo with
      | nil => exact ready.elim
      | cons job todo =>
        obtain ⟨expression, next, workingDir, read, scheduled, triggers, stored, rfl⟩ := ready
        exact ⟨_, rfl, (createRun_ok applied).1.trans isNext.symm, rfl⟩
    | _ => exact ready.elim
  · have fresh := Serial.lt_next found
    rw [kept, isNext] at fresh
    exact absurd fresh (lt_irrefl _)

end Cron

theorem cron_once {ext : External} {settings : Settings} {instants : String → Set Int} (crate : CronCrate ext instants)
    (files : String → Option String) (clock : Nat) {history : List Label} {c : Config}
    (run : (system ext settings).Path everything (Config.initial ext settings files clock) history c) :
    CronOnce ext settings instants (Config.initial ext settings files clock) history where
  matched := by
    intro definitionId
    obtain ⟨times, matched, -⟩ := Cron.path_sound crate (Config.initial_idle ext settings files clock) run definitionId
    exact ⟨times, matched⟩
  logged := by
    intro id new happened
    refine run.since (fun history _ => ∃ firing ∈ firings ext settings _ history, firing.runId = id ∧
      firing.job.id = new.jobDefinitionId) happened ?_ ?_
    · rintro history before label after run admitted moved ⟨⟨choice, rfl⟩, created⟩
      obtain ⟨fired, logged, same⟩ :=
        Cron.firing_created (Config.initial_idle ext settings files clock) run admitted moved created
      refine ⟨fired, ?_, same⟩
      rw [Cron.firings_cons run, logged]
      exact List.mem_append_right _ List.mem_cons_self
    · rintro history before label after run admitted moved ⟨firing, member, same⟩
      refine ⟨firing, ?_, same⟩
      rw [Cron.firings_cons run]
      exact List.mem_append_left _ member

/-! ## A job that fires every minute -/

namespace Sample

def minutes (_ : String) : Set Int := {instant | (60000 : Int) ∣ instant}

theorem scheduling_crate : CronCrate scheduling minutes where
  timetable := by
    intro expression next scheduled
    cases scheduled
    refine ⟨fun time instant found => ?_, fun time impossible => by cases impossible⟩
    cases found
    refine ⟨⟨Dvd.intro_left _ rfl, by omega⟩, ?_⟩
    rintro later ⟨⟨minute, rfl⟩, after⟩
    omega
  seconds := by
    rintro expression instant ⟨minute, rfl⟩
    omega

def nightlyInitial : Config := Config.initial scheduling settings nightlyFiles 1000000

def nightlyTwice : List Label :=
  nightlyFired ++ [.resume .cron, .resume .cron, .clock 1121500] ++ turns .cron 2 ++ [.resume .cron] ++ turns .cron 2

end Sample

theorem cron_once_nightly : ∃ history c,
    (system Sample.scheduling Sample.settings).Path everything Sample.nightlyInitial history c ∧
      (firings Sample.scheduling Sample.settings Sample.nightlyInitial history).map (·.now) = [1000000, 1121500] ∧
      CronOnce Sample.scheduling Sample.settings Sample.minutes Sample.nightlyInitial history := by
  have passed : ((system Sample.scheduling Sample.settings).follow (fun _ _ => true) Sample.nightlyInitial
      Sample.nightlyTwice).isSome = true := by decide +kernel
  obtain ⟨c, followed⟩ := Option.isSome_iff_exists.mp passed
  have run : (system Sample.scheduling Sample.settings).Path everything Sample.nightlyInitial
      (Sample.nightlyTwice.reverse ++ []) c :=
    (system Sample.scheduling Sample.settings).follow_path (fun _ _ _ => trivial) .nil followed
  refine ⟨_, c, run, by decide +kernel, cron_once Sample.scheduling_crate Sample.nightlyFiles 1000000 run⟩

end PostJen.Server
