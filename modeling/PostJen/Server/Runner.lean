import PostJen.Server.Procedures

/-! The scheduler, the local worker and the heartbeat monitor of `runner.rs`.

`execute_run` is cut at the head of its loop, at each node of a scheduling pass
and at each row polled while waiting; between two cuts it is one procedure.
-/

set_option autoImplicit false

open PostJen.Foundations PostJen.Core

namespace PostJen.Server

/-! ## Events -/

def insertNodeEvent {E : Type} [FromSql E] (runId nodeRunId : Nat) (fromStatus toStatus : NodeStatus)
    (message : Option String) : Proc Sig E Unit :=
  run (.event ⟨runId, some nodeRunId, .node, some fromStatus.text, some toStatus.text, message⟩)

def insertJobEvent {E : Type} [FromSql E] (runId : Nat) (fromStatus toStatus : JobStatus)
    (message : Option String) : Proc Sig E Unit :=
  run (.event ⟨runId, none, .job, some fromStatus.text, some toStatus.text, message⟩)

/-! ## Preparation of a run -/

/-- `node.env.entry(key).or_insert(value)` for every parameter. -/
def injectParams (params : StringMap String) (node : ResolvedNodeDefinition) : ResolvedNodeDefinition :=
  { node with env := params.entries.foldl (fun env entry =>
      match env.lookup entry.1 with
      | some _ => env
      | none => env.insert entry.1 entry.2) node.env }

def resolveSecrets (ext : External) (key : String) :
    List String → StringMap String → Proc Sig ApiError (StringMap String)
  | [], resolved => .done resolved
  | name :: rest, resolved => do
      let row ← fetch (.secret name)
      match (row : Option EncryptedSecret) with
      | none => .halt (.badRequest ("secret '" ++ name ++ "' not found"))
      | some row =>
          match ext.decrypt key row with
          | .error why => .halt (.internal why)
          | .ok value => resolveSecrets ext key rest (resolved.insert name value)

def injectSecrets (ext : External) (key : String) :
    List ResolvedNodeDefinition → Proc Sig AnyError (List ResolvedNodeDefinition)
  | [] => .done []
  | node :: rest => do
      let resolved ← (resolveSecrets ext key node.secrets ∅).attempt
      match resolved with
      | .error why =>
          .halt (.msg ("failed to resolve secrets for node '" ++ node.id ++ "': " ++ why.debug))
      | .ok secrets =>
          let others ← injectSecrets ext key rest
          return { node with env := JobDefinition.extendEnv node.env secrets } :: others

def newNodeRun (ext : External) (runId : Nat) (node : ResolvedNodeDefinition) : NewNodeRun where
  jobRunId := runId
  nodeId := node.id
  nodeName := node.name
  program := node.program
  argsJson := ext.encodeStrings node.args
  workingDir := node.workingDir
  envJson := if node.env.entries = [] then none else some (ext.encodeMap node.env)
  timeoutSec := node.timeoutSec
  targetJson := node.target.map ext.encodeTarget

def timeoutExceeds : AnyError :=
  (AnyError.msg "number too large to fit in target type").context "timeout_sec exceeds i64"

def ensureNodes (ext : External) (runId : Nat) :
    List ResolvedNodeDefinition → StringMap Nat → Proc Sig AnyError (StringMap Nat)
  | [], nodeIds => .done nodeIds
  | node :: rest, nodeIds =>
      if node.timeoutSec ≥ 2 ^ 63 then .halt timeoutExceeds
      else do
        let nodeRunId ← execute (.insertNode (newNodeRun ext runId node))
        ensureNodes ext runId rest (nodeIds.insert node.id nodeRunId)

def transitionChange (fromStatus toStatus : JobStatus) (message : Option String) : JobChange :=
  match toStatus with
  | .running => .running fromStatus
  | .success | .failed | .timedOut | .canceled => .finished toStatus message
  | _ => .status toStatus

def transitionJob (runId : Nat) (fromStatus toStatus : JobStatus) (message : Option String) :
    Proc Sig AnyError Unit := do
  run (.updateJob runId (transitionChange fromStatus toStatus message))
  insertJobEvent runId fromStatus toStatus message

/-- The local variables of `execute_run` at its loop. -/
structure Execution where
  run : QueuedRun
  nodes : List ResolvedNodeDefinition
  nodeIds : StringMap Nat
  results : StringMap NodeStatus
  runningNodes : StringMap Nat
  stopScheduling : Bool
  canceling : Bool

def loadForRun (queued : QueuedRun) : Proc Sig AnyError ResolvedJobDefinition :=
  .call (.load queued.definitionPath) fun reply =>
    match (reply : Except AnyError ResolvedJobDefinition) with
    | .error why => .halt why
    | .ok definition =>
        if definition.id ≠ queued.jobId then
          .halt (.msg ("job definition id mismatch: run has '" ++ queued.jobId ++ "', YAML has '" ++
            definition.id ++ "'"))
        else .done definition

def withParams (ext : External) (paramsJson : Option String) (nodes : List ResolvedNodeDefinition) :
    List ResolvedNodeDefinition :=
  match paramsJson with
  | none => nodes
  | some json => nodes.map (injectParams ((ext.decodeMap json).getD ∅))

def withSecrets (ext : External) (settings : Settings) (nodes : List ResolvedNodeDefinition) :
    Proc Sig AnyError (List ResolvedNodeDefinition) :=
  match settings.secretKey with
  | none => .done nodes
  | some key => injectSecrets ext key nodes

/-- `execute_run` up to its loop. -/
def prepareRun (ext : External) (settings : Settings) (queued : QueuedRun) :
    Proc Sig AnyError Execution := do
  let definition ← loadForRun queued
  let paramsJson ← fetch (.paramsJson queued.id)
  let nodes ← withSecrets ext settings (withParams ext paramsJson definition.nodes)
  let nodeIds ← ensureNodes ext queued.id nodes ∅
  transitionJob queued.id .queued .running none
  return ⟨queued, nodes, nodeIds, ∅, ∅, false, false⟩

/-! ## A scheduling pass -/

def isCancelRequested (runId : Nat) : Proc Sig AnyError Bool := do
  let status ← fetch (.jobStatus runId)
  return status = JobStatus.cancelRequested

namespace Execution

/-- The head of the loop. -/
def observeCancel (x : Execution) : Proc Sig AnyError Execution := do
  let shouldCancel ← isCancelRequested x.run.id
  return { x with canceling := x.canceling || shouldCancel }

def blockedBy (x : Execution) (node : ResolvedNodeDefinition) : Option (String × NodeStatus) :=
  node.dependsOn.findSome? fun dep =>
    (x.results.lookup dep).bind fun status => if status ≠ .success then some (dep, status) else none

def waitsOn (x : Execution) (node : ResolvedNodeDefinition) : Bool :=
  node.dependsOn.any fun dep => (x.results.lookup dep).isNone

def record (x : Execution) (nodeId : String) (status : NodeStatus) : Execution :=
  { x with results := x.results.insert nodeId status }

def nodeRunId (x : Execution) (nodeId : String) : Proc Sig AnyError Nat :=
  match x.nodeIds.lookup nodeId with
  | some id => .done id
  | none => .halt (.msg ("missing node_run id for node '" ++ nodeId ++ "'"))

def markNodeSkipped (x : Execution) (node : ResolvedNodeDefinition) (reason : String) :
    Proc Sig AnyError Execution := do
  let id ← x.nodeRunId node.id
  Server.run (.updateNode id (.skip reason))
  insertNodeEvent x.run.id id .pending .skipped (some reason)
  return x.record node.id .skipped

end Execution

def agentMatches (ext : External) (target : NodeTarget) (agent : AgentRow) : Bool :=
  target.labels.all fun label => label ∈ (ext.decodeStrings agent.labelsJson).getD []

def assignToAgent (ext : External) (nodeRunId : Nat) (node : ResolvedNodeDefinition) :
    Proc Sig AnyError Bool :=
  match node.target with
  | some target => do
      let agents ← fetch (.onlineAgents target.agent)
      match (agents : List AgentRow).find? (agentMatches ext target) with
      | some agent =>
          run (.updateNode nodeRunId (.assign agent.agentId))
          return true
      | none => return false
  | none => do
      run (.updateNode nodeRunId (.assign localAgentId))
      return true

def updateNodeStatus (runId nodeRunId : Nat) (fromStatus toStatus : NodeStatus)
    (failureReason : Option String) (exitCode : Option Int) (eventMessage : Option String)
    (retryCount : Nat) : Proc Sig AnyError Unit := do
  run (.updateNode nodeRunId (.status toStatus failureReason exitCode retryCount))
  insertNodeEvent runId nodeRunId fromStatus toStatus (eventMessage.or failureReason)

namespace Execution

def startNode (ext : External) (x : Execution) (newlyQueued : List (String × Nat))
    (node : ResolvedNodeDefinition) : Proc Sig AnyError (Execution × List (String × Nat)) := do
  let id ← x.nodeRunId node.id
  let assigned ← assignToAgent ext id node
  if assigned then
    updateNodeStatus x.run.id id .pending .queued none none none 0
    return (x, newlyQueued ++ [(node.id, id)])
  else
    updateNodeStatus x.run.id id .pending .failed (some "no matching agent available") none none 0
    return ({ x.record node.id .failed with stopScheduling := true }, newlyQueued)

/-- The body of the loop over the nodes. -/
def scheduleNode (ext : External) (x : Execution) (newlyQueued : List (String × Nat))
    (node : ResolvedNodeDefinition) : Proc Sig AnyError (Execution × List (String × Nat)) :=
  if (x.results.lookup node.id).isSome || (x.runningNodes.lookup node.id).isSome then
    .done (x, newlyQueued)
  else match x.blockedBy node with
  | some (dep, status) => do
      let x ← x.markNodeSkipped node ("dependency '" ++ dep ++ "' ended with " ++ status.text)
      return (x, newlyQueued)
  | none =>
      if x.waitsOn node then .done (x, newlyQueued)
      else if x.stopScheduling then do
        let x ← x.markNodeSkipped node "job execution already stopped"
        return (x, newlyQueued)
      else if x.canceling then do
        let x ← x.markNodeSkipped node "job cancellation requested"
        return (x, newlyQueued)
      else x.startNode ext newlyQueued node

def launch (x : Execution) (newlyQueued : List (String × Nat)) : Execution :=
  { x with runningNodes :=
      (newlyQueued.foldl (fun running entry => running.insert entry.1 entry.2) x.runningNodes) }

/-! ## Waiting -/

/-- One row of the loop of `wait_for_any_node_completion`. -/
def pollNode (nodeRunId : Nat) : Proc Sig AnyError (Option NodeExecutionOutcome) := do
  let status ← fetch (.nodeStatus nodeRunId)
  match (status : NodeStatus) with
  | .success => return some (.success none)
  | .failed =>
      let reason ← fetch (.nodeFailureReason nodeRunId)
      return some (.failed ((reason : Option String).getD "execution failed"))
  | .timedOut => return some .timedOut
  | .canceled => return some .canceled
  | _ => return none

/-- What the loop does with a completed node; the cancel sentinel has an empty id. -/
def complete (x : Execution) (nodeId : String) (outcome : NodeExecutionOutcome) : Execution where
  run := x.run
  nodes := x.nodes
  nodeIds := x.nodeIds
  results := x.results.insert nodeId outcome.status
  runningNodes := x.runningNodes.erase nodeId
  stopScheduling := x.stopScheduling ||
    (outcome.status = .failed || outcome.status = .timedOut || outcome.status = .canceled)
  canceling := x.canceling || outcome.status = .canceled

end Execution

/-! ## The end of a run -/

def determineJobStatus (results : StringMap NodeStatus) (canceling : Bool) : JobStatus :=
  let statuses := results.entries.map (·.2)
  if NodeStatus.timedOut ∈ statuses then .timedOut
  else if NodeStatus.failed ∈ statuses then .failed
  else if canceling || NodeStatus.canceled ∈ statuses then .canceled
  else .success

def finalReason : JobStatus → Option String
  | .failed => some "one or more nodes failed"
  | .timedOut => some "one or more nodes timed out"
  | .canceled => some "job canceled"
  | _ => none

def finalizeJob (runId : Nat) (finalStatus : JobStatus) : Proc Sig AnyError Unit := do
  let currentStatus ← fetch (.jobStatus runId)
  transitionJob runId currentStatus finalStatus (finalReason finalStatus)

def failRunBeforeStart (runId : Nat) (reason : String) : Proc Sig AnyError Unit := do
  run (.updateJob runId (.failBeforeStart reason))
  insertJobEvent runId .queued .failed (some reason)

/-! ## The local worker -/

def pickLocalTask : Proc Sig AnyError (Option Task) := do
  let task ← fetch (.queuedTask localAgentId)
  match (task : Option Task) with
  | none => return none
  | some task =>
      run (.updateNode task.nodeRunId .startQueued)
      insertNodeEvent task.jobRunId task.nodeRunId .queued .running (some "picked by local agent")
      return some task

/-- The declared outputs of a node, or none when the definition does not load. -/
def loadOutputs {E : Type} (task : Task) : Proc Sig E (List ResolvedNodeOutput) :=
  .call (.load task.definitionPath) fun reply =>
    match (reply : Except AnyError ResolvedJobDefinition) with
    | .error _ => .done []
    | .ok definition =>
        .done (((definition.nodes.find? fun node => node.id = task.nodeId).map (·.outputs)).getD [])

/-- The node that a worker rebuilds from a task. -/
def Task.node (task : Task) (args : List String) (env : StringMap String)
    (outputs : List ResolvedNodeOutput) : ResolvedNodeDefinition where
  id := task.nodeId
  name := task.nodeName.getD task.nodeId
  program := task.program
  args
  workingDir := task.workingDir
  dependsOn := []
  env
  timeoutSec := task.timeoutSec
  retry := 0
  outputs
  target := none
  secrets := []

def decodeEnv (ext : External) (envJson : Option String) : StringMap String :=
  (envJson.bind ext.decodeMap).getD ∅

def runProcess {E : Type} (node : ResolvedNodeDefinition) : Proc Sig E NodeExecutionOutcome :=
  .call (.process node) fun result => .done result.outcome

def checkOutputs {E : Type} (workingDir : String) :
    List ResolvedNodeOutput → Proc Sig E (List ArtifactResult)
  | [] => .done []
  | output :: rest =>
      .call (.metadata (resolveOutputPath workingDir output)) fun size => do
        let results ← checkOutputs workingDir rest
        return checkOutput workingDir output size :: results

def artifactDest (settings : Settings) (runId nodeRunId : Nat) (path : String) : String :=
  joinPath (joinPath (joinPath settings.artifactsDir (toString runId)) (toString nodeRunId)) path

/-- Copy an artifact into the server's store; a failure is ignored. -/
def storeLocally (settings : Settings) (task : Task) (artifact : ArtifactResult) :
    Proc Sig AnyError Unit :=
  if artifact.existsFlag then
    .call (.copyFile artifact.resolvedPath
      (artifactDest settings task.jobRunId task.nodeRunId artifact.path)) fun _ => .done ()
  else .done ()

def newArtifact (runId nodeRunId : Nat) (artifact : ArtifactResult) : NewArtifact :=
  ⟨runId, nodeRunId, artifact.path, artifact.resolvedPath, artifact.required, artifact.existsFlag,
    artifact.sizeBytes⟩

def recordLocalArtifacts (settings : Settings) (task : Task) :
    List ArtifactResult → Proc Sig AnyError Unit
  | [] => .done ()
  | artifact :: rest => do
      storeLocally settings task artifact
      run (.artifact (newArtifact task.jobRunId task.nodeRunId artifact))
      recordLocalArtifacts settings task rest

def outcomeLogs (outcome : NodeExecutionOutcome) : List (String × String) :=
  (if outcome.stdout = "" then [] else [("stdout", outcome.stdout)]) ++
    if outcome.stderr = "" then [] else [("stderr", outcome.stderr)]

def recordLogs {E : Type} [FromSql E] (runId nodeRunId : Nat) :
    Nat → List (String × String) → Proc Sig E Unit
  | _, [] => .done ()
  | sequence, (stream, content) :: rest => do
      run (.log ⟨runId, nodeRunId, stream, sequence + 1, content⟩)
      recordLogs runId nodeRunId (sequence + 1) rest

def enforceOutputs (outcome : NodeExecutionOutcome) (results : List ArtifactResult) :
    NodeStatus × Option String :=
  match missingArtifactsReason results with
  | some reason => (.failed, some reason)
  | none => (outcome.status, outcome.failureReason)

theorem enforceOutputs_reported {outcome : NodeExecutionOutcome} (reported : outcome.status.reported = true)
    (results : List ArtifactResult) : (enforceOutputs outcome results).1.reported = true := by
  unfold enforceOutputs
  split
  · rfl
  · exact reported

def checkAfter {E : Type} (outcome : NodeExecutionOutcome) (workingDir : String)
    (outputs : List ResolvedNodeOutput) : Proc Sig E (List ArtifactResult) :=
  if outcome.status = .success then checkOutputs workingDir outputs else .done []

def executeLocalTask (ext : External) (settings : Settings) (task : Task) : Proc Sig AnyError Unit := do
  let outputs ← loadOutputs task
  let args := (ext.decodeStrings task.argsJson).getD []
  let outcome ← runProcess (task.node args (decodeEnv ext task.envJson) outputs)
  let sequence ← fetch (.maxSequence task.jobRunId)
  recordLogs task.jobRunId task.nodeRunId sequence (outcomeLogs outcome)
  let results ← checkAfter outcome task.workingDir outputs
  recordLocalArtifacts settings task results
  let (status, failureReason) := enforceOutputs outcome results
  run (.updateNode task.nodeRunId (.finish status outcome.exitCode failureReason))
  insertNodeEvent task.jobRunId task.nodeRunId .running status failureReason

/-! ## The heartbeat monitor -/

/-- The updates of a monitor pass; returns the nodes to sweep. -/
def checkAgentHeartbeats : Proc Sig AnyError (List OfflineNodeRun) := do
  run (.agents (.touch localAgentId))
  let updated ← execute (.agents .expire)
  if updated > 0 then fetch .offlineNodes else return []

def sweepNode (node : OfflineNodeRun) : Proc Sig AnyError Unit := do
  run (.updateNode node.id .lost)
  insertNodeEvent node.jobRunId node.id .running .failed (some "agent went offline")

end PostJen.Server
