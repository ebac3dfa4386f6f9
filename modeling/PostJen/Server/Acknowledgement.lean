import PostJen.Foundations.Interference
import PostJen.Server.Facts
import PostJen.Server.Sample

/-! What a client has been told.

A handler responds after its last statement, and other tasks run between any two
of them. What a response says about rows that are never deleted holds when it is
given and in every later state, also after the server has been started anew.
-/

set_option autoImplicit false

open PostJen.Foundations PostJen.Core

namespace PostJen.Server

/-- A run as its INSERT wrote it, and the event of its creation. -/
structure Db.Made (db : Db) (made : StartRunResponse) (new : NewRun) : Prop where
  run : ∃ run, db.jobRuns.find made.runId = some run ∧ run.snapshot = (new.row made.queuedAt).snapshot
  event : ∃ id, db.runEvents.find id =
    some ((jobEvent made.runId none .queued (some new.message)).row made.queuedAt)

def Db.HasEvent (db : Db) (new : NewEvent) : Prop := ∃ id time, db.runEvents.find id = some (new.row time)

def Db.HasLog (db : Db) (new : NewLog) : Prop := ∃ id time, db.runLogs.find id = some (new.row time)

def Db.HasArtifact (db : Db) (new : NewArtifact) : Prop := ∃ id time, db.runArtifacts.find id = some (new.row time)

def NewRun.Repeats (new : NewRun) (source : Nat) (run : JobRun) : Prop :=
  new.triggerType = "rerun" ∧ new.rerunOfJobRunId = some source ∧ new.jobDefinitionId = run.jobDefinitionId ∧
    new.jobId = run.jobId ∧ new.jobName = run.jobName ∧ new.definitionPath = run.definitionPath ∧
    new.definitionHash = run.definitionHash ∧ new.workingDir = run.workingDir

section
variable (ext : External) (settings : Settings)

/-- What the body of a successful response says about the database. -/
def Request.Told (db : Db) : Request → Body → Prop
  | .registerJob _ _, .definition row =>
      ∃ id job, db.jobDefinitions.find id = some job ∧ job.jobId = row.jobId ∧ job.createdAt = row.createdAt
  | .startRun jobId payload, .run made => ∃ (job : JobDefinitionForRun) (definition : ResolvedJobDefinition)
      (resolved : StringMap String), job.jobId = jobId ∧
      resolveParams (payload.params.getD ∅) definition.params ∅ = .ok resolved ∧
      db.Made made (job.newRun (trim (payload.triggerType.getD "manual")) "run created" definition.workingDir
        payload.triggeredBy (encodeParams ext resolved))
  | .webhookTrigger jobId payload, .run made => ∃ (job : JobDefinitionForRun) (definition : ResolvedJobDefinition)
      (resolved : StringMap String), job.jobId = jobId ∧
      resolveParams ((payload.bind (·.params)).getD ∅) definition.params ∅ = .ok resolved ∧
      db.Made made (job.newRun "webhook" "webhook triggered" definition.workingDir
        (payload.bind (·.triggeredBy)) (encodeParams ext resolved))
  | .rerunRun runId, .rerun made source => source = runId ∧ ∃ run new, db.jobRuns.find runId = some run ∧
      NewRun.Repeats new runId run ∧ db.Made made new
  | .cancelRun runId, .canceled response => response.runId = runId ∧ ∃ run, db.jobRuns.find runId = some run ∧
      (response.cancelRequestedAt.isSome → run.cancelRequestedAt.isSome)
  | .reportResult _ payload, .empty => ∃ runId status, (Fact.node runId payload.nodeRunId).holds db ∧
      validStatus payload.status = some status ∧
      db.HasEvent ⟨runId, some payload.nodeRunId, .node, some NodeStatus.running.text, some status.text, payload.failureReason⟩ ∧
      ∀ artifact ∈ payload.artifacts.getD [], db.HasArtifact ⟨runId, payload.nodeRunId, artifact.path,
        artifact.resolvedPath, artifact.required, artifact.existsFlag, artifact.sizeBytes⟩
  | .reportLogs _ payload, .empty => ∃ runId sequence, (Fact.node runId payload.nodeRunId).holds db ∧
      ∀ index stream content, payload.logs[index]? = some (stream, content) →
        db.HasLog ⟨runId, payload.nodeRunId, stream, sequence + index + 1, content⟩
  | .uploadArtifact _ parts, .empty => ∃ runId nodeRunId path file, (Fact.node runId nodeRunId).holds db ∧
      readParts parts {} = .ok ⟨some nodeRunId, some path, some file⟩ ∧
      db.HasArtifact ⟨runId, nodeRunId, path, artifactDest settings runId nodeRunId path, true, true,
        some (file.utf8ByteSize : Int)⟩
  | .registerJob _ _, _ | .startRun _ _, _ | .webhookTrigger _ _, _ | .rerunRun _, _ | .cancelRun _, _
  | .reportResult _ _, _ | .reportLogs _ _, _ | .uploadArtifact _ _, _ => False
  | _, _ => True

def Point.Told (db : Db) : Point → Response → Prop
  | .received request, response => request.Told ext settings db response.body
  | .picked task outputs, response => response.body = .task task outputs ∧ db.HasEvent
      ⟨task.jobRunId, some task.nodeRunId, .node, some NodeStatus.queued.text, some NodeStatus.running.text,
        some "picked by agent"⟩
  | _, _ => True

end

/-! ## What lasts -/

/-- A statement about the database that later states cannot falsify. -/
def Lasting (assertion : Db → Prop) : Prop :=
  ∀ before after, before.Extends after → assertion before → assertion after

namespace Lasting

theorem and {first second : Db → Prop} (one : Lasting first) (two : Lasting second) :
    Lasting fun db => first db ∧ second db :=
  fun before after extended both => ⟨one before after extended both.1, two before after extended both.2⟩

theorem all {A : Sort*} {family : A → Db → Prop} (each : ∀ a, Lasting (family a)) : Lasting fun db => ∀ a, family a db :=
  fun before after extended holds a => each a before after extended (holds a)

theorem exist {A : Sort*} {family : A → Db → Prop} (each : ∀ a, Lasting (family a)) : Lasting fun db => ∃ a, family a db :=
  fun before after extended ⟨a, holds⟩ => ⟨a, each a before after extended holds⟩

theorem const (fact : Prop) : Lasting fun _ => fact := fun _ _ _ holds => holds

theorem fact (fact : Fact) : Lasting fun db => fact.holds db := fun _ _ extended holds => Fact.holds_extends extended holds

theorem event (new : NewEvent) : Lasting fun db => db.HasEvent new := by
  rintro before after extended ⟨id, time, found⟩
  obtain ⟨row, found', same⟩ := extended.events.find found
  exact ⟨id, time, by rw [found']; exact congrArg _ same⟩

theorem log (new : NewLog) : Lasting fun db => db.HasLog new := by
  rintro before after extended ⟨id, time, found⟩
  obtain ⟨row, found', same⟩ := extended.logs.find found
  exact ⟨id, time, by rw [found']; exact congrArg _ same⟩

theorem artifact (new : NewArtifact) : Lasting fun db => db.HasArtifact new := by
  rintro before after extended ⟨id, time, found⟩
  obtain ⟨row, found', same⟩ := extended.artifacts.find found
  exact ⟨id, time, by rw [found']; exact congrArg _ same⟩

theorem made (response : StartRunResponse) (new : NewRun) : Lasting fun db => db.Made response new := by
  rintro before after extended ⟨⟨run, found, same⟩, ⟨id, created⟩⟩
  obtain ⟨run', found', kept⟩ := extended.runs.find found
  obtain ⟨event, listed, equal⟩ := extended.events.find created
  exact ⟨⟨run', found', kept.trans same⟩, id, by rw [listed]; exact congrArg _ equal⟩

theorem row (runId : Nat) (columns : JobRun → Prop) :
    Lasting fun db => ∃ run, db.jobRuns.find runId = some run ∧ columns run.snapshot := by
  rintro before after extended ⟨run, found, holds⟩
  obtain ⟨run', found', same⟩ := extended.runs.find found
  exact ⟨run', found', by rw [same]; exact holds⟩

theorem canceled (runId : Nat) (asked : Prop) : Lasting fun db =>
    ∃ run, db.jobRuns.find runId = some run ∧ (asked → run.cancelRequestedAt.isSome) := by
  rintro before after extended ⟨run, found, canceled⟩
  obtain ⟨run', found', precedes⟩ := extended.progress runId run found
  exact ⟨run', found', fun here => precedes.canceled (canceled here)⟩

theorem definition (jobId : String) (createdAt : Timestamp) : Lasting fun db =>
    ∃ id job, db.jobDefinitions.find id = some job ∧ job.jobId = jobId ∧ job.createdAt = createdAt := by
  rintro before after extended ⟨id, job, found, rfl, rfl⟩
  obtain ⟨job', found', same⟩ := extended.definitions.find found
  exact ⟨id, job', found', congrArg Prod.fst same, congrArg Prod.snd same⟩

end Lasting

section
variable {ext : External} {settings : Settings}

def growth (ext : External) : Discipline Sig State where
  exec := fun op => op.exec ext
  rely := fun before after => before.db.Extends after.db
  guarantee := fun _ _ _ => True

/-- A procedure that ends has brought about what it ends with. -/
def Yields {E A : Type} (ext : External) (program : Proc Sig E A) (ends : A → Db → Prop) (s : State) : Prop :=
  program.Holds (growth ext) (fun value s => ends value s.db) (fun _ _ => True) s

namespace Yields

variable {E A B : Type} {program : Proc Sig E A} {ends : A → Db → Prop} {s : State}

theorem bind {next : A → Proc Sig E B} {last : B → Db → Prop} (first : Yields ext program ends s)
    (rest : ∀ value s, ends value s.db → Yields ext (next value) last s) : Yields ext (program >>= next) last s :=
  (Proc.holds_bind program next s).mpr (Proc.Holds.mono first rest fun _ _ _ => trivial)

theorem weaken {weaker : A → Db → Prop} (yields : Yields ext program ends s)
    (implies : ∀ value db, ends value db → weaker value db) : Yields ext program weaker s :=
  Proc.Holds.mono yields (fun value s => implies value s.db) fun _ _ _ => trivial

theorem keep {assertion : Db → Prop} (yields : Yields ext program ends s) (lasting : Lasting assertion)
    (now : assertion s.db) : Yields ext program (fun value db => ends value db ∧ assertion db) s := by
  have kept : (growth ext).Kept (fun _ => True) fun s => assertion s.db :=
    ⟨fun before after extended => lasting before.db after.db extended,
      fun op before reply after _ ran => lasting before.db after.db (exec_extends ran)⟩
  exact Proc.Holds.mono (Proc.Holds.frame yields kept now) (fun _ _ both => both) fun _ _ _ => trivial

theorem fetch [FromSql E] (query : Select) :
    Yields ext (fetch query : Proc Sig E query.Row) (fun row db => row ∈ query.answers db) s := by
  intro before _ reply after ran
  refine ⟨trivial, ?_⟩
  obtain ⟨rfl, ⟨why, rfl⟩ | ⟨row, member, rfl⟩⟩ := exec_select ran
  · trivial
  · exact member

theorem run [FromSql E] (write : Write) :
    Yields ext (run write : Proc Sig E Unit) (fun _ db => ∃ now before result, write.apply now before = .ok (result, db)) s := by
  intro before _ reply after ran
  refine ⟨trivial, ?_⟩
  rcases exec_write ran with ⟨⟨why, rfl⟩, -⟩ | ⟨result, db, applied, rfl, rfl⟩
  · trivial
  · exact ⟨before.now, before.db, result, applied⟩

theorem commit [FromSql E] (transaction : Transaction) :
    Yields ext (commit transaction : Proc Sig E transaction.Row)
      (fun row db => ∃ now before, transaction.apply now before = .ok (row, db)) s := by
  intro before _ reply after ran
  refine ⟨trivial, ?_⟩
  rcases exec_transact ran with ⟨⟨why, rfl⟩, -⟩ | ⟨row, db, applied, rfl, rfl⟩
  · trivial
  · exact ⟨before.now, before.db, applied⟩

theorem lift (outcome : Except E A) : Yields ext (lift outcome) (fun value _ => outcome = .ok value) s := by
  cases outcome with
  | error why => trivial
  | ok value => rfl

theorem event [FromSql E] (new : NewEvent) : Yields ext (Server.run (.event new) : Proc Sig E Unit) (fun _ db => db.HasEvent new) s := by
  refine (run (.event new)).weaken ?_
  rintro _ after ⟨now, before, result, applied⟩
  simp only [Write.apply] at applied
  split at applied <;> cases applied
  exact ⟨_, now, by rw [Serial.find_insert, if_pos rfl]⟩

theorem log [FromSql E] (new : NewLog) : Yields ext (Server.run (.log new) : Proc Sig E Unit) (fun _ db => db.HasLog new) s := by
  refine (run (.log new)).weaken ?_
  rintro _ after ⟨now, before, result, applied⟩
  simp only [Write.apply] at applied
  repeat' split at applied
  all_goals cases applied
  exact ⟨_, now, by rw [Serial.find_insert, if_pos rfl]⟩

theorem artifact [FromSql E] (new : NewArtifact) :
    Yields ext (Server.run (.artifact new) : Proc Sig E Unit) (fun _ db => db.HasArtifact new) s := by
  refine (run (.artifact new)).weaken ?_
  rintro _ after ⟨now, before, result, applied⟩
  simp only [Write.apply] at applied
  split at applied <;> cases applied
  exact ⟨_, now, by rw [Serial.find_insert, if_pos rfl]⟩

theorem made [FromSql E] (new : NewRun) :
    Yields ext (Server.commit (.createRun new) : Proc Sig E StartRunResponse) (fun made db => db.Made made new) s := by
  refine (commit (.createRun new)).weaken ?_
  rintro made after ⟨now, before, applied⟩
  simp only [Transaction.apply] at applied
  split at applied <;> cases applied
  exact ⟨⟨_, by rw [Serial.find_insert, if_pos rfl], rfl⟩, _, by rw [Serial.find_insert, if_pos rfl]⟩

theorem logs [FromSql E] (runId nodeRunId sequence : Nat) (logs : List (String × String)) :
    Yields ext (recordLogs runId nodeRunId sequence logs : Proc Sig E Unit)
      (fun _ db => ∀ index stream content, logs[index]? = some (stream, content) →
        db.HasLog ⟨runId, nodeRunId, stream, sequence + index + 1, content⟩) s := by
  induction logs generalizing sequence s with
  | nil =>
    intro index stream content listed
    cases listed
  | cons entry rest ih =>
    refine (log _).bind fun _ s first => ?_
    refine ((ih (sequence + 1)).keep (Lasting.log _) first).weaken ?_
    rintro _ s ⟨others, first⟩ index stream content listed
    cases index with
    | zero =>
      cases listed
      exact first
    | succ index =>
      rw [show sequence + (index + 1) + 1 = sequence + 1 + index + 1 by omega]
      exact others index stream content listed

theorem artifacts (runId nodeRunId : Nat) (artifacts : List ArtifactReport) :
    Yields ext (recordArtifacts runId nodeRunId artifacts) (fun _ db => ∀ artifact ∈ artifacts,
      db.HasArtifact ⟨runId, nodeRunId, artifact.path, artifact.resolvedPath, artifact.required, artifact.existsFlag,
        artifact.sizeBytes⟩) s := by
  induction artifacts generalizing s with
  | nil =>
    intro artifact listed
    cases listed
  | cons artifact rest ih =>
    refine (Yields.artifact _).bind fun _ s first => ?_
    refine (ih.keep (Lasting.artifact _) first).weaken ?_
    rintro _ s ⟨others, first⟩ other listed
    rcases List.mem_cons.mp listed with rfl | listed
    · exact first
    · exact others other listed

theorem node (nodeRunId : Nat) (missing : ApiError) :
    Yields ext (nodeJobRun nodeRunId missing) (fun runId db => (Fact.node runId nodeRunId).holds db) s := by
  refine (fetch (.nodeJobRun nodeRunId)).bind fun found s member => ?_
  cases found with
  | none => trivial
  | some runId =>
    obtain ⟨node, found, same⟩ := Option.map_eq_some_iff.mp (List.mem_singleton.mp member).symm
    exact ⟨node, found, same⟩

theorem enabled (jobId : String) : Yields ext (enabledJob jobId) (fun job _ => job.jobId = jobId) s := by
  refine (fetch (.jobForRun jobId)).bind fun found s member => ?_
  cases found with
  | none => trivial
  | some job =>
    obtain ⟨⟨id, row⟩, inside, rfl⟩ := List.mem_map.mp (mem_anyOne member)
    have named := of_decide_eq_true (List.mem_filter.mp inside).2
    dsimp only
    split
    · exact named
    · trivial

end Yields

def Answer.Told (ext : External) (settings : Settings) (request : Request) (answer : Answer) (db : Db) : Prop :=
  match answer with
  | .response reply => request.Told ext settings db reply.body
  | .picked _ _ => True

variable {s : State}

theorem Yields.attempt {E G A : Type} {program : Proc Sig E A} {ends : A → Db → Prop} (yields : Yields ext program ends s) :
    Yields ext (program.attempt (F := G)) (fun outcome db => ∀ value, outcome = .ok value → ends value db) s := by
  refine (Proc.holds_attempt program s).mpr (Proc.Holds.mono yields ?_ ?_)
  · rintro value s holds _ ⟨⟩
    exact holds
  · rintro why s - _ ⟨⟩

variable {c after : Config} {label : Label} {files : String → Option String} {clock : Nat}

end

namespace Sample

def reported (c : Config) (slot : Slot) : Option ReportLogsRequest :=
  match (c.threads slot).point, c.ended slot with
  | .received (.reportLogs _ payload), some (.responded (.ok ⟨200, .empty⟩)) => some payload
  | _, _ => none

end Sample

end PostJen.Server
