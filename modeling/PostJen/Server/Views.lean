import Mathlib.Data.String.Basic
import PostJen.Foundations.Offset
import PostJen.Server.Logs

/-! The handlers of `http.rs` that only read.

Each executes one query, so a response shows one state of the database. A query
that leaves its order open, or breaks no ties, has several answers.
-/

set_option autoImplicit false

open PostJen.Foundations PostJen.Core

namespace PostJen.Server

/-! ## Jobs -/

structure JobSummary where
  jobId : String
  name : String
  description : Option String
  definitionPath : String
  definitionHash : String
  enabled : Bool
  updatedAt : Timestamp
  deriving DecidableEq

def JobDefinitionRow.summary (job : JobDefinitionRow) : JobSummary :=
  ⟨job.jobId, job.name, job.description, job.definitionPath, job.definitionHash, job.enabled, job.updatedAt⟩

/-- `ORDER BY job_id`. -/
def listJobs (db : Db) : List (List JobSummary) :=
  orderings JobSummary.jobId (db.jobDefinitions.rows.map fun (_, job) => job.summary)

structure JobDetail where
  jobId : String
  name : String
  description : Option String
  definitionPath : String
  definitionHash : String
  enabled : Bool
  createdAt : Timestamp
  updatedAt : Timestamp
  deriving DecidableEq

def JobDefinitionRow.detail (job : JobDefinitionRow) : JobDetail :=
  ⟨job.jobId, job.name, job.description, job.definitionPath, job.definitionHash, job.enabled, job.createdAt, job.updatedAt⟩

/-- `fetch_optional`, with the error for no row. -/
def foundOr {A : Type} (message : String) : Option A → Except ApiError A
  | some row => .ok row
  | none => .error (.notFound message)

def getJob (db : Db) (jobId : String) : List (Except ApiError JobDetail) :=
  (anyOne ((db.jobDefinitions.rows.filter fun row => row.2.jobId = jobId).map fun (_, job) => job.detail)).map
    (foundOr "job not found")

/-! ## Runs -/

structure RunListQuery where
  jobId : Option String
  status : Option String
  limit : Option Int
  offset : Option Int

structure RunSummary where
  id : Nat
  jobId : String
  jobName : String
  status : JobStatus
  triggerType : String
  triggeredBy : Option String
  queuedAt : Option Timestamp
  startedAt : Option Timestamp
  finishedAt : Option Timestamp
  deriving DecidableEq

def JobRun.summary (run : JobRun) (id : Nat) : RunSummary :=
  ⟨id, run.jobId, run.jobName, run.status, run.triggerType, run.triggeredBy, run.queuedAt, run.startedAt, run.finishedAt⟩

/-- `unwrap_or(50).clamp(1, 200)`. -/
def RunListQuery.pageSize (query : RunListQuery) : Nat := (max 1 (min 200 (query.limit.getD 50))).toNat

def RunListQuery.start (query : RunListQuery) : Nat := (max 0 (query.offset.getD 0)).toNat

def RunListQuery.matches (query : RunListQuery) (run : JobRun) : Bool :=
  (query.jobId.all fun wanted => run.jobId = wanted) && query.status.all fun wanted => run.status.text = wanted

def Db.matchingRuns (db : Db) (query : RunListQuery) : List (Timestamp × RunSummary) :=
  (db.jobRuns.rows.filter fun row => query.matches row.2).map fun (id, run) => (run.createdAt, run.summary id)

def newestFirst (row : Timestamp × RunSummary) : OrderDual Timestamp := OrderDual.toDual row.1

/-- Every answer of `list_runs`: `ORDER BY created_at DESC LIMIT OFFSET`. -/
def listRuns (db : Db) (query : RunListQuery) : List (List RunSummary) :=
  (orderings newestFirst (db.matchingRuns query)).map fun rows =>
    ((rows.drop query.start).take query.pageSize).map Prod.snd

structure RunDetail where
  id : Nat
  jobId : String
  jobName : String
  status : JobStatus
  triggerType : String
  triggeredBy : Option String
  definitionPath : String
  definitionHash : String
  workingDir : String
  queuedAt : Option Timestamp
  startedAt : Option Timestamp
  finishedAt : Option Timestamp
  cancelRequestedAt : Option Timestamp
  rerunOfJobRunId : Option Nat
  failureReason : Option String
  createdAt : Timestamp
  deriving DecidableEq

def JobRun.detail (run : JobRun) (id : Nat) : RunDetail where
  id
  jobId := run.jobId
  jobName := run.jobName
  status := run.status
  triggerType := run.triggerType
  triggeredBy := run.triggeredBy
  definitionPath := run.definitionPath
  definitionHash := run.definitionHash
  workingDir := run.workingDir
  queuedAt := run.queuedAt
  startedAt := run.startedAt
  finishedAt := run.finishedAt
  cancelRequestedAt := run.cancelRequestedAt
  rerunOfJobRunId := run.rerunOfJobRunId
  failureReason := run.failureReason
  createdAt := run.createdAt

def getRun (db : Db) (runId : Nat) : Except ApiError RunDetail :=
  foundOr "run not found" ((db.jobRuns.find runId).map fun run => run.detail runId)

structure RunEventRow where
  scope : EventScope
  fromStatus : Option String
  toStatus : Option String
  message : Option String
  occurredAt : Timestamp
  deriving DecidableEq

def RunEvent.shown (event : RunEvent) : RunEventRow :=
  ⟨event.scope, event.fromStatus, event.toStatus, event.message, event.occurredAt⟩

def earlier (first second : Nat × RunEvent) : Bool :=
  first.2.occurredAt < second.2.occurredAt || (first.2.occurredAt = second.2.occurredAt && first.1 ≤ second.1)

def getRunEvents (db : Db) (runId : Nat) : List RunEventRow :=
  ((db.runEvents.rows.filter fun row => row.2.jobRunId = runId).mergeSort earlier).map fun row => row.2.shown

structure RunStreamSnapshot where
  id : Nat
  status : JobStatus
  queuedAt : Option Timestamp
  startedAt : Option Timestamp
  finishedAt : Option Timestamp
  cancelRequestedAt : Option Timestamp
  deriving DecidableEq

inductive StreamEvent where
  | runState (snapshot : RunStreamSnapshot)
  | runDeleted (runId : Nat)
  deriving DecidableEq

def JobRun.streamed (run : JobRun) (id : Nat) : RunStreamSnapshot :=
  ⟨id, run.status, run.queuedAt, run.startedAt, run.finishedAt, run.cancelRequestedAt⟩

/-- What `stream_run` answers: an error, or a stream of events. -/
def streamRun (db : Db) (runId : Nat) : Except ApiError Unit :=
  foundOr "run not found" ((db.jobRuns.find runId).map fun _ => ())

/-- One event of the stream; a query that fails counts as one without a row. -/
def streamEvent (db : Db) (runId : Nat) (failed : Bool) : StreamEvent :=
  match if failed then none else db.jobRuns.find runId with
  | some run => .runState (run.streamed runId)
  | none => .runDeleted runId

/-! ## Agents and secrets -/

structure AgentSummary where
  agentId : String
  name : String
  hostname : String
  labelsJson : String
  status : AgentStatus
  lastHeartbeatAt : Timestamp
  registeredAt : Timestamp
  deriving DecidableEq

def Agent.summary (agent : Agent) (agentId : String) : AgentSummary :=
  ⟨agentId, agent.name, agent.hostname, agent.labelsJson, agent.status, agent.lastHeartbeatAt, agent.registeredAt⟩

/-- `ORDER BY registered_at`. -/
def listAgents (db : Db) : List (List AgentSummary) :=
  orderings AgentSummary.registeredAt (db.agents.rows.map fun (id, agent) => agent.summary id)

def getAgent (db : Db) (agentId : String) : Except ApiError AgentSummary :=
  foundOr "agent not found" ((db.agents.find agentId).map fun agent => agent.summary agentId)

def SecretRow.summary (row : SecretRow) (name : String) : SecretSummary := ⟨name, row.createdAt, row.updatedAt⟩

/-- `ORDER BY name`. -/
def listSecrets (db : Db) : List (List SecretSummary) :=
  orderings SecretSummary.name (db.secrets.rows.map fun (name, row) => row.summary name)

def getSecret (db : Db) (name : String) : Except ApiError SecretSummary :=
  foundOr "secret not found" ((db.secrets.find name).map fun row => row.summary name)

/-! ## Routing -/

inductive Get where
  | health
  | listJobs
  | getJob (jobId : String)
  | listRuns (query : RunListQuery)
  | getRun (runId : Nat)
  | getRunLogs (runId : Nat) (query : RunLogsQuery)
  | getRunEvents (runId : Nat)
  | streamRun (runId : Nat)
  | listAgents
  | getAgent (agentId : String)
  | listSecrets
  | getSecret (name : String)

inductive View where
  | ok
  | jobs (rows : List JobSummary)
  | job (row : JobDetail)
  | runs (rows : List RunSummary)
  | run (row : RunDetail)
  | logs (rows : List RunLogRow)
  | events (rows : List RunEventRow)
  | stream
  | agents (rows : List AgentSummary)
  | agent (row : AgentSummary)
  | secrets (rows : List SecretSummary)
  | secret (row : SecretSummary)
  deriving DecidableEq

/-- Every answer to a GET request when no statement fails. -/
def Get.answers (db : Db) : Get → List (Except ApiError View)
  | .health => [.ok .ok]
  | .listJobs => (Server.listJobs db).map fun rows => .ok (.jobs rows)
  | .getJob jobId => (Server.getJob db jobId).map fun found => found.map .job
  | .listRuns query => (Server.listRuns db query).map fun rows => .ok (.runs rows)
  | .getRun runId => [(Server.getRun db runId).map .run]
  | .getRunLogs runId query => (Server.getRunLogs db runId query).map fun rows => .ok (.logs rows)
  | .getRunEvents runId => [.ok (.events (Server.getRunEvents db runId))]
  | .streamRun runId => [(Server.streamRun db runId).map fun _ => .stream]
  | .listAgents => (Server.listAgents db).map fun rows => .ok (.agents rows)
  | .getAgent agentId => [(Server.getAgent db agentId).map .agent]
  | .listSecrets => (Server.listSecrets db).map fun rows => .ok (.secrets rows)
  | .getSecret name => [(Server.getSecret db name).map .secret]

end PostJen.Server
