import PostJen.Server.Placement
import PostJen.Server.Rules
import PostJen.Server.Sample

/-! The flag of `job_definitions` and the operations that create runs.

The operations are executed one after another. Three of them read the flag of
the definition they create a run of; `rerun_run` starts from an old run and
reads no definition at all.
-/

set_option autoImplicit false

open PostJen.Foundations PostJen.Core

namespace PostJen.Server

/-! ## Operations one after another -/

inductive Operation where
  | registerJob (path : String) (enabled : Option Bool)
  | startRun (jobId : String) (payload : StartRunRequest)
  | webhookTrigger (jobId : String) (payload : Option WebhookPayload)
  | rerunRun (runId : Nat)
  | checkCronTriggers

def triggerCronJobs (ext : External) (now : Nat) : List CronJob → Proc Sig AnyError Unit
  | [] => .done ()
  | job :: rest => do
      triggerCronJob ext now job
      triggerCronJobs ext now rest

def checkCronTriggers (ext : External) : Proc Sig AnyError Unit := do
  let (jobs, now) ← cronJobs
  triggerCronJobs ext now jobs

/-- Executed alone, with any answers and errors, a procedure leads to a state. -/
def Proc.LeadsTo {E A : Type} (ext : External) (program : Proc Sig E A) (before after : State) : Prop :=
  ∃ outcome, (program.attempt (F := Empty)).Returns (fun op : Op => op.exec ext) before outcome after

def Operation.Performs (ext : External) (before after : State) : Operation → Prop
  | .registerJob path enabled => Proc.LeadsTo ext (Server.registerJob ext path enabled) before after
  | .startRun jobId payload => Proc.LeadsTo ext (Server.startRun ext jobId payload) before after
  | .webhookTrigger jobId payload => Proc.LeadsTo ext (Server.webhookTrigger ext jobId payload) before after
  | .rerunRun runId => Proc.LeadsTo ext (Server.rerunRun runId) before after
  | .checkCronTriggers => Proc.LeadsTo ext (Server.checkCronTriggers ext) before after

/-- A sequence of admitted operations; between them only files and the clock change. -/
inductive Sequence (ext : External) (admits : State → Operation → Prop) (start : State) : State → Prop where
  | start : Sequence ext admits start start
  | perform {before after : State} (operation : Operation) (sequence : Sequence ext admits start before)
      (admitted : admits before operation) (performs : operation.Performs ext before after) :
      Sequence ext admits start after
  | meanwhile {before after : State} (sequence : Sequence ext admits start before)
      (untouched : after.db = before.db) : Sequence ext admits start after

def Db.enabled (db : Db) (definitionId : Nat) : Bool := (db.jobDefinitions.find definitionId).any (·.enabled)

/-- Each run that was added belongs to a job that is enabled, before and after. -/
def AddsEnabled (before after : State) : Prop :=
  ∀ id run, before.db.jobRuns.find id = none → after.db.jobRuns.find id = some run →
    before.db.enabled run.jobDefinitionId = true ∧ after.db.enabled run.jobDefinitionId = true

def RerunsDisabled (s : State) (operation : Operation) : Prop :=
  ∃ runId run job, operation = .rerunRun runId ∧ s.db.jobRuns.find runId = some run ∧
    s.db.jobDefinitions.find run.jobDefinitionId = some job ∧ job.enabled = false

/-- No run is added for a disabled job, whatever operations went before; and what a rerun needs for it. -/
structure DisabledGetNoRuns (ext : External) : Prop where
  law : ∀ start s operation s', Sequence ext (fun s operation => ¬RerunsDisabled s operation) start s →
    ¬RerunsDisabled s operation → operation.Performs ext s s' → AddsEnabled s s'
  exact' : ∀ s operation, (∀ s', operation.Performs ext s s' → AddsEnabled s s') ↔ ¬RerunsDisabled s operation

/-! ## What an operation adds -/

structure Db.Follows (first now : Db) : Prop where
  flags : ∀ id, (now.jobDefinitions.find id).map (·.enabled) = (first.jobDefinitions.find id).map (·.enabled)
  added : ∀ id run, first.jobRuns.find id = none → now.jobRuns.find id = some run →
    first.enabled run.jobDefinitionId = true

def Db.Offers (db : Db) (definitionId : Nat) : Prop :=
  ∀ job, db.jobDefinitions.find definitionId = some job → job.enabled = true

namespace Db.Follows

variable {first now after : Db}

theorem refl (db : Db) : db.Follows db := ⟨fun _ => rfl, fun id run absent found => by
  rw [absent] at found
  cases found⟩

theorem enabled_eq (follows : first.Follows now) (id : Nat) : now.enabled id = first.enabled id := by
  have same := follows.flags id
  unfold Db.enabled
  cases here : now.jobDefinitions.find id with
  | none =>
    cases there : first.jobDefinitions.find id with
    | none => rfl
    | some original =>
      rw [here, there] at same
      cases same
  | some job =>
    cases there : first.jobDefinitions.find id with
    | none =>
      rw [here, there] at same
      cases same
    | some original =>
      rw [here, there] at same
      exact Option.some.inj same

theorem create (follows : first.Follows now) {run : NewRun} {stamp : Timestamp} {response : StartRunResponse}
    (offers : first.Offers run.jobDefinitionId)
    (applied : (Transaction.createRun run).apply stamp now = .ok (response, after)) : first.Follows after := by
  simp only [Transaction.apply] at applied
  split at applied
  · cases applied
  · rename_i linked
    simp only [Bool.or_eq_true, not_or, Bool.not_eq_true, Option.isNone_eq_false_iff] at linked
    cases applied
    refine ⟨fun id => ?_, fun id other absent found => ?_⟩
    · rw [← follows.flags id]
      cases run.lastTriggeredAt with
      | none => rfl
      | some stamp =>
        simp only [Serial.find_updateAt]
        split
        · rw [Option.map_map]
          rfl
        · rfl
    · simp only [Serial.find_insert] at found
      split at found
      · cases found
        obtain ⟨job, there⟩ := Option.isSome_iff_exists.mp linked.1
        have flag := follows.flags run.jobDefinitionId
        rw [there] at flag
        obtain ⟨original, here, same⟩ := Option.map_eq_some_iff.mp flag.symm
        show first.enabled run.jobDefinitionId = true
        unfold Db.enabled
        rw [here]
        exact offers original here
      · exact follows.added id other absent found

end Db.Follows

def byItself (ext : External) : Discipline Sig State where
  exec op := op.exec ext
  rely before after := after = before
  guarantee _ _ _ := True

def Creates (first : Db) : Op → Prop
  | .transact (.createRun run) => first.Offers run.jobDefinitionId
  | op => op.writes = false

variable {ext : External} {s s' : State} {first : Db} {E A : Type}

theorem creates_reads (op : Op) (reads : op.reads = true) : Creates first op := by
  cases op with
  | transact _ => cases reads
  | _ => exact Op.writes_of_reads reads

theorem holds_creates {program : Proc Sig E A} (within : program.Within (Creates first) fun _ => True)
    (follows : first.Follows s.db) :
    program.Holds (byItself ext) (fun _ s => first.Follows s.db) (fun _ s => first.Follows s.db) s := by
  have stable : (byItself ext).Stable fun s => first.Follows s.db := by
    rintro before after rfl follows
    exact follows
  refine (within.holds stable ?_ follows).mono (fun _ _ ended => ended.2) fun _ _ follows => follows
  intro op before reply after creates follows ran
  refine ⟨trivial, ?_⟩
  have reading : op.writes = false → first.Follows after.db := by
    intro reads
    rw [exec_reads reads ran]
    exact follows
  cases op with
  | transact transaction =>
    cases transaction with
    | createRun run =>
      rcases exec_transact ran with ⟨-, rfl⟩ | ⟨response, db, applied, -, rfl⟩
      · exact follows
      · exact follows.create creates applied
    | _ => cases creates
  | _ => exact reading creates

theorem leads_addsEnabled {program : Proc Sig E A} (leads : Proc.LeadsTo ext program s s')
    (holds : program.Holds (byItself ext) (fun _ now => s.db.Follows now.db) (fun _ now => s.db.Follows now.db) s) :
    AddsEnabled s s' := by
  obtain ⟨outcome, returned⟩ := leads
  have ended := holds.returns (fun _ => rfl) returned
  have follows : s.db.Follows s'.db := by
    cases outcome with
    | ok value => exact ended.1 value rfl
    | error why => exact ended.2 why rfl
  intro id run absent found
  have enabled := follows.added id run absent found
  exact ⟨enabled, (follows.enabled_eq _).trans enabled⟩

/-! ## The operations -/

theorem holds_enabledJob (jobId : String) :
    (enabledJob jobId).Holds (byItself ext) (fun job now => now.db = s.db ∧ s.db.Offers job.id)
      (fun _ now => now.db = s.db) s := by
  refine (Proc.holds_bind _ _ _).mpr ?_
  rintro before rfl reply after ran
  obtain ⟨rfl, ⟨why, rfl⟩ | ⟨job, member, rfl⟩⟩ := exec_select ran
  · exact ⟨trivial, rfl⟩
  · refine ⟨trivial, ?_⟩
    cases job with
    | none => rfl
    | some job =>
      obtain ⟨⟨id, row⟩, inside, rfl⟩ := List.mem_map.mp (mem_anyOne member)
      have found := Serial.find_eq_some.mpr (List.mem_of_mem_filter inside)
      simp only [orHalt, Proc.holds_done]
      split
      · rename_i enabled
        refine ⟨rfl, fun job there => ?_⟩
        cases found.symm.trans there
        exact enabled
      · rfl

theorem holds_startRun (jobId : String) (payload : StartRunRequest) :
    (startRun ext jobId payload).Holds (byItself ext) (fun _ now => s.db.Follows now.db)
      (fun _ now => s.db.Follows now.db) s := by
  refine (Proc.holds_bind _ _ _).mpr ((holds_enabledJob jobId).mono ?_ fun _ now same => same ▸ .refl _)
  rintro job now ⟨same, offers⟩
  have unchanged : s.db.Follows now.db := same ▸ .refl _
  have reads : ∀ op : Op, op.reads = true → Creates s.db op := creates_reads
  dsimp only
  split
  · exact unchanged
  · refine holds_creates ?_ unchanged
    exact (within_loadOrReject reads _).bind fun _ _ => (within_lift _).bind fun _ _ =>
      (within_reads reads rfl).bind fun _ _ => (within_lift _).bind fun _ _ =>
        (within_commit offers).bind fun _ _ => trivial

theorem holds_webhookTrigger (jobId : String) (payload : Option WebhookPayload) :
    (webhookTrigger ext jobId payload).Holds (byItself ext) (fun _ now => s.db.Follows now.db)
      (fun _ now => s.db.Follows now.db) s := by
  refine (Proc.holds_bind _ _ _).mpr ((holds_enabledJob jobId).mono ?_ fun _ now same => same ▸ .refl _)
  rintro job now ⟨same, offers⟩
  have reads : ∀ op : Op, op.reads = true → Creates s.db op := creates_reads
  refine holds_creates ((within_loadOrReject reads _).bind fun definition _ => ?_) (same ▸ .refl _)
  dsimp only
  split
  · trivial
  · exact (within_lift _).bind fun _ _ => (within_commit offers).bind fun _ _ => trivial

theorem holds_rerunRun {runId : Nat} (offers : ∀ run, s.db.jobRuns.find runId = some run → s.db.Offers run.jobDefinitionId) :
    (rerunRun runId).Holds (byItself ext) (fun _ now => s.db.Follows now.db) (fun _ now => s.db.Follows now.db) s := by
  refine (Proc.holds_bind _ _ _).mpr ?_
  rintro before rfl reply after ran
  refine ⟨trivial, ?_⟩
  obtain ⟨rfl, ⟨why, rfl⟩ | ⟨source, member, rfl⟩⟩ := exec_select ran
  · exact .refl _
  · cases source with
    | none => exact .refl _
    | some source =>
      obtain ⟨run, found, rfl⟩ := Option.map_eq_some_iff.mp (List.mem_singleton.mp member).symm
      refine holds_creates ?_ (.refl _)
      exact (within_commit (offers run found)).bind fun _ _ => trivial

theorem within_triggerCronJobs (now : Nat) (jobs : List CronJob) (offers : ∀ job ∈ jobs, first.Offers job.id) :
    (triggerCronJobs ext now jobs).Within (Creates first) fun _ => True := by
  induction jobs with
  | nil => trivial
  | cons job rest ih =>
    refine (within_triggerCronJob creates_reads ext now job fun _ => ?_).bind fun _ _ => ?_
    · exact offers job List.mem_cons_self
    · exact ih fun other member => offers other (List.mem_cons_of_mem _ member)

theorem holds_checkCronTriggers :
    (checkCronTriggers ext).Holds (byItself ext) (fun _ now => s.db.Follows now.db)
      (fun _ now => s.db.Follows now.db) s := by
  refine (Proc.holds_bind _ _ _).mpr ((Proc.holds_bind _ _ _).mpr ?_)
  rintro before rfl reply after ran
  refine ⟨trivial, ?_⟩
  obtain ⟨rfl, ⟨why, rfl⟩ | ⟨jobs, member, rfl⟩⟩ := exec_select ran
  · exact .refl _
  · have offers : ∀ job ∈ jobs, after.db.Offers job.id := by
      intro job listed
      obtain ⟨⟨id, row⟩, inside, rfl⟩ := List.mem_map.mp ((List.mem_permutations'.mp member).mem_iff.mp listed)
      obtain ⟨inside, due⟩ := List.mem_filter.mp inside
      rintro other found
      cases (Serial.find_eq_some.mpr inside).symm.trans found
      exact (Bool.and_eq_true_iff.mp due).1
    refine (Proc.holds_bind _ _ _).mpr ?_
    rintro before rfl now later ran
    refine ⟨trivial, ?_⟩
    have same : later.db = before.db := exec_reads rfl ran
    exact holds_creates (within_triggerCronJobs now jobs offers) (same ▸ .refl _)

theorem registerJob_runs {path : String} {enabled : Option Bool}
    (leads : Proc.LeadsTo ext (registerJob ext path enabled) s s') : s'.db.jobRuns = s.db.jobRuns := by
  obtain ⟨outcome, returned⟩ := leads
  have within : (registerJob ext path enabled).Within
      (fun op : Op => op.writes = false ∨ ∃ definition, op = .transact (.registerJob definition)) fun _ => True := by
    have reads : ∀ op : Op, op.reads = true →
        op.writes = false ∨ ∃ definition, op = .transact (.registerJob definition) := fun _ reads =>
      .inl (Op.writes_of_reads reads)
    unfold registerJob
    dsimp only
    split
    · trivial
    · exact (within_loadOrReject reads _).bind fun _ _ => (within_readDefinitionFile reads _).bind fun _ _ =>
        (within_fetch reads _ rfl).bind fun _ _ => (within_commit (.inr ⟨_, rfl⟩)).bind fun _ _ => trivial
  refine within.returns (fun now => now.db.jobRuns = s.db.jobRuns) ?_ rfl returned
  rintro op before reply after (pure | ⟨definition, rfl⟩) ran kept
  · rw [exec_reads pure ran, kept]
  · rcases exec_jobRuns ran with same | ⟨_, _, impossible, -⟩ | ⟨_, _, impossible, -⟩ | ⟨_, impossible, -⟩
    · exact same.trans kept
    all_goals cases impossible

theorem rerun_adds {runId : Nat} {run : JobRun} {job : JobDefinitionRow} (found : s.db.jobRuns.find runId = some run)
    (defined : s.db.jobDefinitions.find run.jobDefinitionId = some job) :
    ∃ s', Proc.LeadsTo ext (rerunRun runId) s s' ∧ ∃ new, s'.db.jobRuns.find s.db.jobRuns.next = some new ∧
      new.jobDefinitionId = run.jobDefinitionId := by
  let source : RunForRerun := ⟨runId, run.jobDefinitionId, run.jobId, run.jobName, run.definitionPath,
    run.definitionHash, run.workingDir⟩
  let new : NewRun := ⟨run.jobDefinitionId, run.jobId, run.jobName, "rerun", none, run.definitionPath,
    run.definitionHash, run.workingDir, none, some runId, "rerun created", none⟩
  have fetched : (Op.select (.runForRerun runId)).exec ext s (.ok (some source)) s := by
    refine ⟨.answer 0, ?_⟩
    simp [Op.run, Select.answers, found, source]
  have linked : s.db.hasRun runId = true := by simp [Db.hasRun, found]
  have applied : ∃ response db, (Transaction.createRun new).apply s.now s.db = .ok (response, db) ∧
      db.jobRuns = s.db.jobRuns.insert (new.row s.now) := by
    simp [Transaction.apply, new, defined, linked]
  obtain ⟨response, db, applied, inserted⟩ := applied
  have committed : (Op.transact (.createRun new)).exec ext s (.ok response) { s with db } :=
    ⟨.answer 0, by simp only [Op.run, applied]⟩
  refine ⟨{ s with db }, ⟨.ok (created (.rerun response runId)), .ok (some source), s, fetched, .ok response,
    { s with db }, committed, rfl, rfl⟩, new.row s.now, ?_, rfl⟩
  show db.jobRuns.find s.db.jobRuns.next = _
  rw [inserted, Serial.find_insert, if_pos rfl]

def Operation.play (ext : External) (s : State) (choices : List Choice) : Operation → Option State
  | .registerJob path enabled => ((Server.registerJob ext path enabled).play (Op.run ext) choices s).map Prod.snd
  | .startRun jobId payload => ((Server.startRun ext jobId payload).play (Op.run ext) choices s).map Prod.snd
  | .webhookTrigger jobId payload => ((Server.webhookTrigger ext jobId payload).play (Op.run ext) choices s).map Prod.snd
  | .rerunRun runId => ((Server.rerunRun runId).play (Op.run ext) choices s).map Prod.snd
  | .checkCronTriggers => ((Server.checkCronTriggers ext).play (Op.run ext) choices s).map Prod.snd

theorem play_performs {operation : Operation} {choices : List Choice}
    (played : operation.play ext s choices = some s') : operation.Performs ext s s' := by
  cases operation <;>
  · obtain ⟨⟨outcome, last⟩, ran, rfl⟩ := Option.map_eq_some_iff.mp played
    exact ⟨outcome, Proc.play_returns ran⟩

theorem disabled_jobs (ext : External) : DisabledGetNoRuns ext := by
  have adds : ∀ s operation s', ¬RerunsDisabled s operation → operation.Performs ext s s' → AddsEnabled s s' := by
    intro s operation s' proper performs
    cases operation with
    | registerJob path enabled =>
      intro id run absent found
      rw [registerJob_runs performs, absent] at found
      cases found
    | startRun jobId payload => exact leads_addsEnabled performs (holds_startRun jobId payload)
    | webhookTrigger jobId payload => exact leads_addsEnabled performs (holds_webhookTrigger jobId payload)
    | rerunRun runId =>
      refine leads_addsEnabled performs (holds_rerunRun fun run found job defined => ?_)
      by_contra disabled
      exact proper ⟨runId, run, job, rfl, found, defined, Bool.not_eq_true _ ▸ disabled⟩
    | checkCronTriggers => exact leads_addsEnabled performs holds_checkCronTriggers
  refine ⟨fun _ s operation s' _ => adds s operation s', fun s operation => ⟨?_, fun proper s' => adds s operation s' proper⟩⟩
  rintro law ⟨runId, run, job, rfl, found, defined, disabled⟩
  obtain ⟨s', leads, new, added, owned⟩ := rerun_adds found defined
  have enabled := (law s' leads _ new (Serial.find_next _) added).1
  rw [owned] at enabled
  unfold Db.enabled at enabled
  rw [defined] at enabled
  exact absurd (disabled.symm.trans enabled) (by simp)

/-! ## A disabled job that gets a second run -/

def Sample.perform : List (Operation × Nat) → State → Option State
  | [], s => some s
  | (operation, count) :: rest, s =>
      (operation.play Sample.ext s (List.replicate count (.answer 0))).bind (perform rest)

theorem Sample.perform_sequence {operations : List (Operation × Nat)} {start : State}
    (sequence : Sequence Sample.ext (fun _ _ => True) start s) (performed : perform operations s = some s') :
    Sequence Sample.ext (fun _ _ => True) start s' := by
  induction operations generalizing s with
  | nil =>
    cases performed
    exact sequence
  | cons head rest ih =>
    obtain ⟨operation, count⟩ := head
    obtain ⟨middle, played, performed⟩ := Option.bind_eq_some_iff.mp performed
    exact ih (.perform operation sequence trivial (play_performs played)) performed

/-- The fork is registered and run, and then registered again to be disabled. -/
def Sample.disabling : List (Operation × Nat) :=
  [(.registerJob "fork.yaml" none, 4), (.startRun "fork" {}, 4), (.registerJob "fork.yaml" (some false), 4)]

theorem disabled_jobs_rerun : ¬∀ ext start s s', ∀ operation : Operation,
    Sequence ext (fun _ _ => True) start s → operation.Performs ext s s' → AddsEnabled s s' := by
  intro claim
  have passed : ((Sample.perform Sample.disabling Sample.initial.state).bind fun s =>
      ((Operation.rerunRun 1).play Sample.ext s [.answer 0, .answer 0]).map fun s' => (s, s')).any (fun ends =>
        (ends.1.db.jobRuns.find 2).isNone &&
          (ends.2.db.jobRuns.find 2).any fun run => !ends.2.db.enabled run.jobDefinitionId) = true := by
    decide +kernel
  obtain ⟨⟨s, s'⟩, ended, disabled⟩ := (Option.any_eq_true _ _).mp passed
  obtain ⟨_, performed, ended⟩ := Option.bind_eq_some_iff.mp ended
  obtain ⟨_, rerun, same⟩ := Option.map_eq_some_iff.mp ended
  cases same
  rw [Bool.and_eq_true, Option.isNone_iff_eq_none, Option.any_eq_true] at disabled
  obtain ⟨absent, run, added, disabled⟩ := disabled
  have enabled := (claim _ _ _ _ _ (Sample.perform_sequence .start performed) (play_performs rerun) 2 run absent added).2
  rw [enabled] at disabled
  cases disabled

end PostJen.Server
