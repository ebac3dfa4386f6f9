import PostJen.Server.Schema
import Mathlib.Data.List.Permutation

/-! The SQL statements of the server, one constructor each.

A query that leaves its order open, or breaks ties of it, has several answers
and may return any of them. A statement changes the tables completely or, when
it fails, not at all; a transaction counts as one statement.
-/

set_option autoImplicit false

open PostJen.Foundations PostJen.Core

namespace PostJen.Server

inductive SqlError where
  | rowNotFound
  | constraint (code : Nat) (text : String)
  | failed (text : String)
  deriving DecidableEq

def SqlError.text : SqlError → String
  | .rowNotFound => "no rows returned by a query that expected to return at least one row"
  | .constraint code text => "error returned from database: (code: " ++ toString code ++ ") " ++ text
  | .failed text => text

/-- What `{:#}` prints behind the message once more. -/
def SqlError.source : SqlError → List String
  | .constraint code text => ["(code: " ++ toString code ++ ") " ++ text]
  | _ => []

/-! ## Rows returned by queries -/

structure QueuedRun where
  id : Nat
  jobId : String
  definitionPath : String
  deriving DecidableEq

structure AgentRow where
  agentId : String
  name : String
  labelsJson : String
  deriving DecidableEq

/-- `LocalTask` of the local worker and `TaskRow` of the agent API. -/
structure Task where
  nodeRunId : Nat
  jobRunId : Nat
  nodeId : String
  nodeName : Option String
  program : String
  argsJson : String
  workingDir : String
  envJson : Option String
  timeoutSec : Nat
  definitionPath : String
  jobId : String
  deriving DecidableEq

structure OfflineNodeRun where
  id : Nat
  jobRunId : Nat
  deriving DecidableEq

structure JobDefinitionForRun where
  id : Nat
  jobId : String
  name : String
  definitionPath : String
  definitionHash : String
  enabled : Bool
  deriving DecidableEq

structure RunCancellationRecord where
  id : Nat
  status : JobStatus
  cancelRequestedAt : Option Timestamp
  deriving DecidableEq

structure RunForRerun where
  id : Nat
  jobDefinitionId : Nat
  jobId : String
  jobName : String
  definitionPath : String
  definitionHash : String
  workingDir : String
  deriving DecidableEq

structure CronJob where
  id : Nat
  jobId : String
  name : String
  definitionPath : String
  definitionHash : String
  triggersJson : Option String
  lastTriggeredAt : Option Timestamp
  deriving DecidableEq

structure EncryptedSecret where
  encryptedValue : String
  nonce : String
  deriving DecidableEq

structure SecretSummary where
  name : String
  createdAt : Timestamp
  updatedAt : Timestamp
  deriving DecidableEq

/-! ## Queries -/

inductive Select where
  | nextQueuedRun
  | paramsJson (runId : Nat)
  | jobStatus (runId : Nat)
  | secret (name : String)
  | onlineAgents (name : Option String)
  | nodeStatus (nodeRunId : Nat)
  | nodeFailureReason (nodeRunId : Nat)
  | queuedTask (agentId : String)
  | maxSequence (runId : Nat)
  | offlineNodes
  | jobForRun (jobId : String)
  | definitionCount (jobId : String)
  | runForCancellation (runId : Nat)
  | runForRerun (runId : Nat)
  | agentByToken (tokenHash : String)
  | agentLabels (agentId : String)
  | assignedAgent (nodeRunId : Nat)
  | nodeJobRun (nodeRunId : Nat)
  | secretSummary (name : String)
  | cronJobs
  deriving DecidableEq

abbrev Select.Row : Select → Type
  | .nextQueuedRun => Option QueuedRun
  | .paramsJson _ => Option String
  | .jobStatus _ => JobStatus
  | .secret _ => Option EncryptedSecret
  | .onlineAgents _ => List AgentRow
  | .nodeStatus _ => NodeStatus
  | .nodeFailureReason _ => Option String
  | .queuedTask _ => Option Task
  | .maxSequence _ => Nat
  | .offlineNodes => List OfflineNodeRun
  | .jobForRun _ => Option JobDefinitionForRun
  | .definitionCount _ => Nat
  | .runForCancellation _ => Option RunCancellationRecord
  | .runForRerun _ => Option RunForRerun
  | .agentByToken _ => Option String
  | .agentLabels _ => String
  | .assignedAgent _ => Option (Option String)
  | .nodeJobRun _ => Option Nat
  | .secretSummary _ => Option SecretSummary
  | .cronJobs => List CronJob

/-- `LIMIT 1` after an order that may leave several rows first. -/
def limitOne {A : Type} (rows : List A) (before : A → A → Bool) : List (Option A) :=
  match rows with
  | [] => [none]
  | _ => (rows.filter fun row => rows.all fun other => !before other row).map some

/-- `fetch_optional` on a filter without an order. -/
def anyOne {A : Type} (rows : List A) : List (Option A) :=
  limitOne rows fun _ _ => false

def Db.task (db : Db) (nodeRunId : Nat) (node : NodeRun) : Option Task :=
  (db.jobRuns.find node.jobRunId).map fun run =>
    { nodeRunId
      jobRunId := node.jobRunId
      nodeId := node.nodeId
      nodeName := node.nodeName
      program := node.program
      argsJson := node.argsJson
      workingDir := node.workingDir
      envJson := node.envJson
      timeoutSec := node.timeoutSec
      definitionPath := run.definitionPath
      jobId := run.jobId }

/-- The rows a task query orders, each with its `created_at`. -/
def Db.queuedTasks (db : Db) (agentId : String) : List (Timestamp × Task) :=
  db.nodeRuns.rows.filterMap fun (id, node) =>
    if node.status = .queued ∧ node.assignedAgentId = some agentId then
      (db.task id node).map fun task => (node.createdAt, task)
    else none

def NodeRun.lost (node : NodeRun) (db : Db) : Bool :=
  (node.status = .queued || node.status = .running) &&
    match node.assignedAgentId.bind db.agents.find with
    | some agent => agent.status = .offline
    | none => false

/-- The results the query may return; `fetch_one` without a row has none. -/
def Select.answers (db : Db) : (query : Select) → List query.Row
  | .nextQueuedRun =>
      (limitOne (db.jobRuns.rows.filter fun row => row.2.status = .queued) fun first second =>
        first.2.createdAt < second.2.createdAt ||
          (first.2.createdAt = second.2.createdAt && first.1 < second.1)).map fun row =>
        row.map fun (id, run) => ⟨id, run.jobId, run.definitionPath⟩
  | .paramsJson runId => ((db.jobRuns.find runId).map (·.paramsJson)).toList
  | .jobStatus runId => ((db.jobRuns.find runId).map (·.status)).toList
  | .secret name => [(db.secrets.find name).map fun row => ⟨row.encryptedValue, row.nonce⟩]
  | .onlineAgents name =>
      ((db.agents.rows.filter fun (_, agent) =>
        agent.status = .online && (name.all fun wanted => agent.name = wanted)).map
          fun (id, agent) => (⟨id, agent.name, agent.labelsJson⟩ : AgentRow)).permutations'
  | .nodeStatus nodeRunId => ((db.nodeRuns.find nodeRunId).map (·.status)).toList
  | .nodeFailureReason nodeRunId => ((db.nodeRuns.find nodeRunId).map (·.failureReason)).toList
  | .queuedTask agentId =>
      (limitOne (db.queuedTasks agentId) fun first second => first.1 < second.1).map fun row =>
        row.map Prod.snd
  | .maxSequence runId =>
      [((db.runLogs.rows.filter fun row => row.2.jobRunId = runId).map
        fun row => row.2.sequence).foldl Nat.max (0 : Nat)]
  | .offlineNodes =>
      ((db.nodeRuns.rows.filter fun row => row.2.lost db).map
        fun (id, node) => (⟨id, node.jobRunId⟩ : OfflineNodeRun)).permutations'
  | .jobForRun jobId =>
      anyOne ((db.jobDefinitions.rows.filter fun row => row.2.jobId = jobId).map
        fun (id, job) => ⟨id, job.jobId, job.name, job.definitionPath, job.definitionHash, job.enabled⟩)
  | .definitionCount jobId => [(db.jobDefinitions.rows.filter fun row => row.2.jobId = jobId).length]
  | .runForCancellation runId =>
      [(db.jobRuns.find runId).map fun run => ⟨runId, run.status, run.cancelRequestedAt⟩]
  | .runForRerun runId =>
      [(db.jobRuns.find runId).map fun run => ⟨runId, run.jobDefinitionId, run.jobId, run.jobName,
        run.definitionPath, run.definitionHash, run.workingDir⟩]
  | .agentByToken tokenHash =>
      anyOne ((db.agents.rows.filter fun (_, agent) =>
        agent.tokenHash = tokenHash && agent.status = .online).map Prod.fst)
  | .agentLabels agentId => ((db.agents.find agentId).map (·.labelsJson)).toList
  | .assignedAgent nodeRunId => [(db.nodeRuns.find nodeRunId).map (·.assignedAgentId)]
  | .nodeJobRun nodeRunId => [(db.nodeRuns.find nodeRunId).map (·.jobRunId)]
  | .secretSummary name =>
      [(db.secrets.find name).map fun row => ⟨name, row.createdAt, row.updatedAt⟩]
  | .cronJobs =>
      ((db.jobDefinitions.rows.filter fun (_, job) => job.enabled && job.triggersJson.isSome).map
        fun (id, job) => (⟨id, job.jobId, job.name, job.definitionPath, job.definitionHash,
          job.triggersJson, job.lastTriggeredAt⟩ : CronJob)).permutations'

/-! ## Changes of one row -/

/-- The SET clause of an UPDATE of `node_runs` by id, with its status guard. -/
inductive NodeChange where
  | assign (agentId : String)
  | skip (reason : String)
  | status (toStatus : NodeStatus) (failureReason : Option String) (exitCode : Option Int) (retryCount : Nat)
  | start
  | startQueued
  | finish (status : NodeStatus) (exitCode : Option Int) (failureReason : Option String)
  | lost
  deriving DecidableEq

def NodeChange.apply (now : Timestamp) : NodeChange → NodeRun → NodeRun
  | .assign agentId, node => { node with assignedAgentId := some agentId }
  | .skip reason, node =>
      { node with status := .skipped, finishedAt := some now, failureReason := some reason }
  | .status toStatus failureReason exitCode retryCount, node =>
      { node with
        status := toStatus
        startedAt := if toStatus = .running then some (node.startedAt.getD now) else node.startedAt
        finishedAt := if toStatus.reported then some now else node.finishedAt
        cancelRequestedAt :=
          if toStatus = .cancelRequested then some now else node.cancelRequestedAt
        failureReason
        exitCode
        retryCount }
  | .start, node => { node with status := .running, startedAt := some now }
  | .startQueued, node =>
      if node.status = .queued then { node with status := .running, startedAt := some now } else node
  | .finish reported exitCode failureReason, node =>
      { node with
        status := reported
        exitCode
        failureReason
        finishedAt := if reported.reported then some now else node.finishedAt }
  | .lost, node =>
      { node with
        status := .failed, finishedAt := some now, failureReason := some "agent went offline" }

/-- The SET clause of an UPDATE of `job_runs` by id, with its status guard. -/
inductive JobChange where
  | running (fromStatus : JobStatus)
  | finished (toStatus : JobStatus) (message : Option String)
  | status (toStatus : JobStatus)
  | failBeforeStart (reason : String)
  | cancelRequested
  deriving DecidableEq

def JobChange.apply (now : Timestamp) : JobChange → JobRun → JobRun
  | .running fromStatus, run =>
      if run.status = fromStatus then
        { run with status := .running, startedAt := some (run.startedAt.getD now) }
      else run
  | .finished toStatus message, run =>
      { run with
        status := toStatus
        finishedAt := some now
        failureReason := message.or run.failureReason }
  | .status toStatus, run => { run with status := toStatus }
  | .failBeforeStart reason, run =>
      { run with
        status := .failed
        startedAt := some (run.startedAt.getD now)
        finishedAt := some now
        failureReason := some reason }
  | .cancelRequested, run =>
      { run with status := .cancelRequested, cancelRequestedAt := some now }

/-! ## Writes -/

structure NewNodeRun where
  jobRunId : Nat
  nodeId : String
  nodeName : String
  program : String
  argsJson : String
  workingDir : String
  envJson : Option String
  timeoutSec : Nat
  targetJson : Option String
  deriving DecidableEq

structure NewAgent where
  agentId : String
  name : String
  hostname : String
  labelsJson : String
  tokenHash : String
  deriving DecidableEq

inductive AgentWrite where
  | registerLocal (hostname : String) (tokenHash : String)
  | register (agent : NewAgent)
  | delete (agentId : String)
  | touch (agentId : String)
  | expire
  | heartbeat (agentId : String)
  deriving DecidableEq

structure NewEvent where
  jobRunId : Nat
  nodeRunId : Option Nat
  scope : EventScope
  fromStatus : Option String
  toStatus : Option String
  message : Option String
  deriving DecidableEq

structure NewLog where
  jobRunId : Nat
  nodeRunId : Nat
  stream : String
  sequence : Nat
  content : String
  deriving DecidableEq

structure NewArtifact where
  jobRunId : Nat
  nodeRunId : Nat
  path : String
  resolvedPath : String
  required : Bool
  existsFlag : Bool
  sizeBytes : Option Int
  deriving DecidableEq

inductive Write where
  | insertNode (node : NewNodeRun)
  | updateNode (nodeRunId : Nat) (change : NodeChange)
  | updateJob (runId : Nat) (change : JobChange)
  | agents (write : AgentWrite)
  | event (event : NewEvent)
  | log (log : NewLog)
  | artifact (artifact : NewArtifact)
  | secret (name : String) (value : EncryptedSecret)
  | deleteSecret (name : String)
  deriving DecidableEq

def foreignKeyFailed : SqlError := .constraint 787 "FOREIGN KEY constraint failed"

def uniqueFailed (columns : String) : SqlError :=
  .constraint 2067 ("UNIQUE constraint failed: " ++ columns)

def checkFailed (condition : String) : SqlError :=
  .constraint 275 ("CHECK constraint failed: " ++ condition)

def NewNodeRun.row (node : NewNodeRun) (now : Timestamp) : NodeRun where
  jobRunId := node.jobRunId
  nodeId := node.nodeId
  nodeName := some node.nodeName
  status := .pending
  program := node.program
  argsJson := node.argsJson
  workingDir := node.workingDir
  envJson := node.envJson
  timeoutSec := node.timeoutSec
  retryCount := 0
  exitCode := none
  startedAt := none
  finishedAt := none
  cancelRequestedAt := none
  failureReason := none
  targetJson := node.targetJson
  assignedAgentId := none
  createdAt := now

def NewAgent.row (agent : NewAgent) (now : Timestamp) : Agent where
  name := agent.name
  hostname := agent.hostname
  labelsJson := agent.labelsJson
  status := .online
  tokenHash := agent.tokenHash
  lastHeartbeatAt := now
  registeredAt := now

def NewEvent.row (event : NewEvent) (now : Timestamp) : RunEvent where
  jobRunId := event.jobRunId
  nodeRunId := event.nodeRunId
  scope := event.scope
  fromStatus := event.fromStatus
  toStatus := event.toStatus
  message := event.message
  occurredAt := now

def NewLog.row (log : NewLog) (now : Timestamp) : RunLog where
  jobRunId := log.jobRunId
  nodeRunId := some log.nodeRunId
  stream := log.stream
  sequence := log.sequence
  content := log.content
  occurredAt := now

def NewArtifact.row (artifact : NewArtifact) (now : Timestamp) : RunArtifact where
  jobRunId := artifact.jobRunId
  nodeRunId := artifact.nodeRunId
  path := artifact.path
  resolvedPath := artifact.resolvedPath
  required := artifact.required
  existsFlag := artifact.existsFlag
  sizeBytes := artifact.sizeBytes
  checkedAt := now

/-- `datetime(last_heartbeat_at) < datetime('now', '-60 seconds')` on a remote agent. -/
def Agent.expired (agent : Agent) (agentId : String) (now : Timestamp) : Bool :=
  agent.status = .online && agentId ≠ localAgentId && agent.lastHeartbeatAt + 60 < now

def AgentWrite.apply (now : Timestamp) (agents : Table String Agent) :
    AgentWrite → Except SqlError (Nat × Table String Agent)
  | .registerLocal hostname tokenHash =>
      .ok (1, agents.upsert localAgentId
        ((⟨localAgentId, "local", hostname, "[\"local\"]", tokenHash⟩ : NewAgent).row now)
        fun agent => { agent with status := .online, lastHeartbeatAt := now })
  | .register agent =>
      if fresh : ∀ entry ∈ agents.rows, entry.1 ≠ agent.agentId then
        .ok (1, agents.append agent.agentId (agent.row now) fresh)
      else .error (uniqueFailed "agents.agent_id")
  | .delete agentId =>
      .ok (agents.count fun id _ => id = agentId, agents.delete fun id _ => id = agentId)
  | .touch agentId =>
      .ok (agents.count fun id _ => id = agentId,
        agents.updateAt agentId fun agent => { agent with lastHeartbeatAt := now })
  | .expire =>
      .ok (agents.count fun id agent => agent.expired id now,
        agents.update fun id agent =>
          if agent.expired id now then { agent with status := .offline } else agent)
  | .heartbeat agentId =>
      .ok (agents.count fun id _ => id = agentId,
        agents.updateAt agentId fun agent =>
          { agent with lastHeartbeatAt := now, status := .online })

def Db.hasRun (db : Db) (runId : Nat) : Bool := (db.jobRuns.find runId).isSome

def Db.hasNode (db : Db) (nodeRunId : Nat) : Bool := (db.nodeRuns.find nodeRunId).isSome

/-- Returns the number of rows affected, an INSERT its `last_insert_rowid`. -/
def Write.apply (now : Timestamp) (db : Db) : Write → Except SqlError (Nat × Db)
  | .insertNode node =>
      if node.timeoutSec = 0 then .error (checkFailed "timeout_sec > 0")
      else if db.nodeRuns.rows.any fun row =>
          row.2.jobRunId = node.jobRunId && row.2.nodeId = node.nodeId then
        .error (uniqueFailed "node_runs.job_run_id, node_runs.node_id")
      else if !db.hasRun node.jobRunId then .error foreignKeyFailed
      else .ok (db.nodeRuns.next, { db with nodeRuns := db.nodeRuns.insert (node.row now) })
  | .updateNode nodeRunId change =>
      .ok (1, { db with nodeRuns := db.nodeRuns.updateAt nodeRunId (change.apply now) })
  | .updateJob runId change =>
      .ok (1, { db with jobRuns := db.jobRuns.updateAt runId (change.apply now) })
  | .agents write =>
      match write.apply now db.agents with
      | .error why => .error why
      | .ok (affected, rows) => .ok (affected, { db with agents := rows })
  | .event new =>
      if !db.hasRun new.jobRunId || !new.nodeRunId.all db.hasNode then .error foreignKeyFailed
      else .ok (db.runEvents.next, { db with runEvents := db.runEvents.insert (new.row now) })
  | .log new =>
      if new.stream ∉ ["stdout", "stderr", "system"] then
        .error (checkFailed "stream IN ('stdout', 'stderr', 'system')")
      else if !db.hasRun new.jobRunId || !db.hasNode new.nodeRunId then .error foreignKeyFailed
      else .ok (db.runLogs.next, { db with runLogs := db.runLogs.insert (new.row now) })
  | .artifact new =>
      if !db.hasRun new.jobRunId || !db.hasNode new.nodeRunId then .error foreignKeyFailed
      else .ok (db.runArtifacts.next, { db with runArtifacts := db.runArtifacts.insert (new.row now) })
  | .secret name value =>
      let row : SecretRow := ⟨value.encryptedValue, value.nonce, now, now⟩
      .ok (1, { db with secrets :=
        (db.secrets.upsert name row fun old => { row with createdAt := old.createdAt }) })
  | .deleteSecret name =>
      .ok (db.secrets.count fun key _ => key = name,
        { db with secrets := (db.secrets.delete fun key _ => key = name) })

/-! ## Transactions -/

/-- The INSERT of a run; a cron run also stamps its definition. -/
structure NewRun where
  jobDefinitionId : Nat
  jobId : String
  jobName : String
  triggerType : String
  triggeredBy : Option String
  definitionPath : String
  definitionHash : String
  workingDir : String
  paramsJson : Option String
  rerunOfJobRunId : Option Nat
  message : String
  lastTriggeredAt : Option Timestamp
  deriving DecidableEq

structure DefinitionUpsert where
  jobId : String
  name : String
  description : Option String
  definitionPath : String
  definitionHash : String
  enabled : Bool
  triggersJson : Option String
  deriving DecidableEq

inductive Transaction where
  | createRun (run : NewRun)
  | cancelRun (runId : Nat) (fromStatus : JobStatus)
  | registerJob (definition : DefinitionUpsert)
  deriving DecidableEq

structure StartRunResponse where
  runId : Nat
  status : JobStatus
  queuedAt : Timestamp
  deriving DecidableEq

structure CancelRunResponse where
  runId : Nat
  status : JobStatus
  cancelRequestedAt : Option Timestamp
  deriving DecidableEq

abbrev Transaction.Row : Transaction → Type
  | .createRun _ => StartRunResponse
  | .cancelRun _ _ => CancelRunResponse
  | .registerJob _ => JobDefinitionRow

def NewRun.row (run : NewRun) (now : Timestamp) : JobRun where
  jobDefinitionId := run.jobDefinitionId
  jobId := run.jobId
  jobName := run.jobName
  status := .queued
  triggerType := run.triggerType
  triggeredBy := run.triggeredBy
  definitionPath := run.definitionPath
  definitionHash := run.definitionHash
  workingDir := run.workingDir
  queuedAt := some now
  startedAt := none
  finishedAt := none
  cancelRequestedAt := none
  rerunOfJobRunId := run.rerunOfJobRunId
  failureReason := none
  paramsJson := run.paramsJson
  createdAt := now

def DefinitionUpsert.row (definition : DefinitionUpsert) (now : Timestamp) : JobDefinitionRow where
  jobId := definition.jobId
  name := definition.name
  description := definition.description
  definitionPath := definition.definitionPath
  definitionHash := definition.definitionHash
  enabled := definition.enabled
  triggersJson := definition.triggersJson
  lastTriggeredAt := none
  createdAt := now
  updatedAt := now

def DefinitionUpsert.change (definition : DefinitionUpsert) (now : Timestamp) (row : JobDefinitionRow) :
    JobDefinitionRow :=
  { definition.row now with
    jobId := row.jobId, lastTriggeredAt := row.lastTriggeredAt, createdAt := row.createdAt }

def jobEvent (runId : Nat) (fromStatus : Option JobStatus) (toStatus : JobStatus)
    (message : Option String) : NewEvent :=
  ⟨runId, none, .job, fromStatus.map (·.text), some toStatus.text, message⟩

def Transaction.apply (now : Timestamp) (db : Db) :
    (transaction : Transaction) → Except SqlError (transaction.Row × Db)
  | .createRun run =>
      if (db.jobDefinitions.find run.jobDefinitionId).isNone || !run.rerunOfJobRunId.all db.hasRun then
        .error foreignKeyFailed
      else
        let runId := db.jobRuns.next
        let event := (jobEvent runId none .queued (some run.message)).row now
        .ok (⟨runId, .queued, now⟩, { db with
          jobRuns := db.jobRuns.insert (run.row now)
          runEvents := db.runEvents.insert event
          jobDefinitions := match run.lastTriggeredAt with
            | none => db.jobDefinitions
            | some stamp => db.jobDefinitions.updateAt run.jobDefinitionId fun job =>
                { job with lastTriggeredAt := some stamp } })
  | .cancelRun runId fromStatus =>
      if !db.hasRun runId then .error foreignKeyFailed
      else
        let event := (jobEvent runId (some fromStatus) .cancelRequested (some "cancel requested")).row now
        .ok (⟨runId, .cancelRequested, some now⟩, { db with
          jobRuns := db.jobRuns.updateAt runId (JobChange.cancelRequested.apply now)
          runEvents := db.runEvents.insert event })
  | .registerJob definition =>
      match db.jobDefinitions.rows.find? fun row => row.2.jobId = definition.jobId with
      | none =>
          .ok (definition.row now,
            { db with jobDefinitions := db.jobDefinitions.insert (definition.row now) })
      | some (id, row) =>
          .ok (definition.change now row,
            { db with jobDefinitions := db.jobDefinitions.updateAt id (definition.change now) })

end PostJen.Server
