import PostJen.Core.Types
import PostJen.Foundations.Table

/-! The tables of `db/schema.sql`.

A status column holds a constructor of its enumeration in place of a text under
a CHECK. `CURRENT_TIMESTAMP` has whole seconds, so a timestamp column is a
number of seconds; event rows keep their status texts.
-/

set_option autoImplicit false

open PostJen.Foundations PostJen.Core

namespace PostJen.Server

abbrev Timestamp := Nat

structure JobDefinitionRow where
  jobId : String
  name : String
  description : Option String
  definitionPath : String
  definitionHash : String
  enabled : Bool
  triggersJson : Option String
  lastTriggeredAt : Option Timestamp
  createdAt : Timestamp
  updatedAt : Timestamp
  deriving DecidableEq

structure JobRun where
  jobDefinitionId : Nat
  jobId : String
  jobName : String
  status : JobStatus
  triggerType : String
  triggeredBy : Option String
  definitionPath : String
  definitionHash : String
  workingDir : String
  queuedAt : Option Timestamp
  startedAt : Option Timestamp
  finishedAt : Option Timestamp
  cancelRequestedAt : Option Timestamp
  rerunOfJobRunId : Option Nat
  failureReason : Option String
  paramsJson : Option String
  createdAt : Timestamp
  deriving DecidableEq

structure Agent where
  name : String
  hostname : String
  labelsJson : String
  status : AgentStatus
  tokenHash : String
  lastHeartbeatAt : Timestamp
  registeredAt : Timestamp
  deriving DecidableEq

structure NodeRun where
  jobRunId : Nat
  nodeId : String
  nodeName : Option String
  status : NodeStatus
  program : String
  argsJson : String
  workingDir : String
  envJson : Option String
  timeoutSec : Nat
  retryCount : Nat
  exitCode : Option Int
  startedAt : Option Timestamp
  finishedAt : Option Timestamp
  cancelRequestedAt : Option Timestamp
  failureReason : Option String
  targetJson : Option String
  assignedAgentId : Option String
  createdAt : Timestamp
  deriving DecidableEq

inductive EventScope where
  | job | node
  deriving DecidableEq, Repr

/-- `event_type` is `status_changed` in every row. -/
structure RunEvent where
  jobRunId : Nat
  nodeRunId : Option Nat
  scope : EventScope
  fromStatus : Option String
  toStatus : Option String
  message : Option String
  occurredAt : Timestamp
  deriving DecidableEq

structure RunLog where
  jobRunId : Nat
  nodeRunId : Option Nat
  stream : String
  sequence : Nat
  content : String
  occurredAt : Timestamp
  deriving DecidableEq

structure RunArtifact where
  jobRunId : Nat
  nodeRunId : Nat
  path : String
  resolvedPath : String
  required : Bool
  existsFlag : Bool
  sizeBytes : Option Int
  checkedAt : Timestamp
  deriving DecidableEq

structure SecretRow where
  encryptedValue : String
  nonce : String
  createdAt : Timestamp
  updatedAt : Timestamp
  deriving DecidableEq

/-- `agents` and `secrets` are keyed by their UNIQUE text column. -/
structure Db where
  jobDefinitions : Serial JobDefinitionRow
  jobRuns : Serial JobRun
  agents : Table String Agent
  nodeRuns : Serial NodeRun
  runEvents : Serial RunEvent
  runLogs : Serial RunLog
  runArtifacts : Serial RunArtifact
  secrets : Table String SecretRow

def Db.empty : Db where
  jobDefinitions := .empty
  jobRuns := .empty
  agents := .empty
  nodeRuns := .empty
  runEvents := .empty
  runLogs := .empty
  runArtifacts := .empty
  secrets := .empty

def localAgentId : String := "local"

end PostJen.Server
