import PostJen.Server.Http

/-! The agent process of `agent_client.rs` and `agent_worker.rs`.

A request and its response cross the network as one operation of the agent; the
reply is the text of a transport error or what the server answered.
-/

set_option autoImplicit false

open PostJen.Foundations PostJen.Core

namespace PostJen.Server

/-! ## Requests of the client -/

structure TaskInfo where
  nodeRunId : Nat
  jobRunId : Nat
  nodeId : String
  nodeName : Option String
  program : String
  argsJson : String
  workingDir : String
  envJson : Option String
  timeoutSec : Nat
  outputs : List ResolvedNodeOutput
  deriving DecidableEq

/-- The JSON of a `TaskResponse`, parsed by the client. -/
def Task.info (task : Task) (outputs : List ResolvedNodeOutput) : TaskInfo where
  nodeRunId := task.nodeRunId
  jobRunId := task.jobRunId
  nodeId := task.nodeId
  nodeName := task.nodeName
  program := task.program
  argsJson := task.argsJson
  workingDir := task.workingDir
  envJson := task.envJson
  timeoutSec := task.timeoutSec
  outputs

inductive AgentOp where
  | request (request : Request)
  | process (node : ResolvedNodeDefinition)
  | metadata (path : String)
  | readFile (path : String)

abbrev AgentOp.Reply : AgentOp → Type
  | .request _ => Except String (Except ApiError Response)
  | .process _ => ChildResult
  | .metadata _ => Option Nat
  | .readFile _ => Except String String

abbrev AgentSig : Signature := ⟨AgentOp, AgentOp.Reply⟩

def bearerAuth (token : String) : Headers := ⟨some ("Bearer " ++ token)⟩

/-- The `Display` of a status code. -/
def statusText : Nat → String
  | 400 => "400 Bad Request"
  | 401 => "401 Unauthorized"
  | 404 => "404 Not Found"
  | 409 => "409 Conflict"
  | 500 => "500 Internal Server Error"
  | code => toString code

/-- A JSON string as `serde_json` writes it. -/
def jsonString (text : String) : String :=
  let escape : Char → List Char
    | '"' => ['\\', '"']
    | '\\' => ['\\', '\\']
    | '\n' => ['\\', 'n']
    | '\r' => ['\\', 'r']
    | '\t' => ['\\', 't']
    | c =>
        if c.toNat = 8 then ['\\', 'b']
        else if c.toNat = 12 then ['\\', 'f']
        else if c.toNat < 32 then ['\\', 'u', '0', '0', hexDigit (c.toNat / 16), hexDigit (c.toNat % 16)]
        else [c]
  "\"" ++ String.ofList (text.toList.flatMap escape) ++ "\""

def ApiError.body (error : ApiError) : String :=
  "\x7b\"error\":" ++ jsonString error.message ++ "\x7d"

/-- A request whose failure to connect and whose refusal have texts of their own. -/
def send (request : Request) (disconnected refused : String) : Proc AgentSig AnyError Response :=
  .call (.request request) fun reply =>
    match (reply : Except String (Except ApiError Response)) with
    | .error why => .halt ((AnyError.msg why).context disconnected)
    | .ok (.error why) => .halt (.msg (refused ++ ": " ++ statusText why.status ++ " " ++ why.body))
    | .ok (.ok response) => .done response

namespace AgentClient

def pollTask (token : String) : Proc AgentSig AnyError (Option TaskInfo) := do
  let response ← send (.pollTask (bearerAuth token)) "failed to poll task" "poll failed"
  match response.body with
  | .empty => return none
  | .task task outputs => return some (task.info outputs)
  | _ => .halt ((AnyError.msg "error decoding response body").context "failed to parse task response")

def reportResult (token : String) (report : ReportResultRequest) : Proc AgentSig AnyError Unit := do
  let _ ← send (.reportResult (bearerAuth token) report) "failed to report result" "result report failed"
  return ()

def reportLogs (token : String) (report : ReportLogsRequest) : Proc AgentSig AnyError Unit := do
  let _ ← send (.reportLogs (bearerAuth token) report) "failed to report logs" "log report failed"
  return ()

def heartbeat (token : String) : Proc AgentSig AnyError Unit := do
  let _ ← send (.heartbeat (bearerAuth token)) "failed to send heartbeat" "heartbeat failed"
  return ()

def artifactForm (nodeRunId : Nat) (artifactPath fileData : String) : List Part :=
  [⟨"node_run_id", toString nodeRunId⟩, ⟨"path", artifactPath⟩, ⟨"file", fileData⟩]

def uploadArtifact (token : String) (nodeRunId : Nat) (artifactPath fileData : String) :
    Proc AgentSig AnyError Unit := do
  let _ ← send (.uploadArtifact (bearerAuth token) (artifactForm nodeRunId artifactPath fileData))
    "failed to upload artifact" "artifact upload failed"
  return ()

end AgentClient

/-! ## Execution of a task -/

namespace AgentWorker

def node (task : TaskInfo) (args : List String) (env : StringMap String) : ResolvedNodeDefinition where
  id := task.nodeId
  name := task.nodeName.getD task.nodeId
  program := task.program
  args
  workingDir := task.workingDir
  dependsOn := []
  env
  timeoutSec := task.timeoutSec
  retry := 0
  outputs := task.outputs
  target := none
  secrets := []

def decodeArgs (ext : External) (complaint : String → String) (argsJson : String) :
    Proc AgentSig AnyError (List String) :=
  match ext.decodeStrings argsJson with
  | some args => .done args
  | none => .halt (.msg (complaint argsJson))

def runProcess (node : ResolvedNodeDefinition) : Proc AgentSig AnyError NodeExecutionOutcome :=
  .call (.process node) fun result => .done result.outcome

def checkOutputs (workingDir : String) : List ResolvedNodeOutput → Proc AgentSig AnyError (List ArtifactResult)
  | [] => .done []
  | output :: rest =>
      .call (.metadata (resolveOutputPath workingDir output)) fun size => do
        let results ← checkOutputs workingDir rest
        return checkOutput workingDir output size :: results

def checkAfter (outcome : NodeExecutionOutcome) (task : TaskInfo) : Proc AgentSig AnyError (List ArtifactResult) :=
  if outcome.status = .success then checkOutputs task.workingDir task.outputs else .done []

def sendLogs (token : String) (nodeRunId : Nat) (logs : List (String × String)) : Proc AgentSig AnyError Unit :=
  if logs = [] then .done () else AgentClient.reportLogs token ⟨nodeRunId, logs⟩

/-- Read and upload one artifact; a failure of either is logged and ignored. -/
def upload (token : String) (nodeRunId : Nat) (artifact : ArtifactResult) : Proc AgentSig AnyError Unit :=
  if artifact.existsFlag then
    .call (.readFile artifact.resolvedPath) fun reply =>
      match (reply : Except String String) with
      | .error _ => .done ()
      | .ok fileData => do
          let _ ← (AgentClient.uploadArtifact token nodeRunId artifact.path fileData).attempt
          return ()
  else .done ()

def uploadAll (token : String) (nodeRunId : Nat) : List ArtifactResult → Proc AgentSig AnyError Unit
  | [] => .done ()
  | artifact :: rest => do
      upload token nodeRunId artifact
      uploadAll token nodeRunId rest

def artifactReport (artifact : ArtifactResult) : ArtifactReport :=
  ⟨artifact.path, artifact.resolvedPath, artifact.required, artifact.existsFlag, artifact.sizeBytes⟩

def resultReport (nodeRunId : Nat) (outcome : NodeExecutionOutcome) (results : List ArtifactResult) :
    ReportResultRequest where
  nodeRunId
  status := (enforceOutputs outcome results).1.text
  exitCode := outcome.exitCode
  failureReason := (enforceOutputs outcome results).2
  artifacts := if results = [] then none else some (results.map artifactReport)

def executeTask (ext : External) (complaint : String → String) (token : String) (task : TaskInfo) :
    Proc AgentSig AnyError Unit := do
  let args ← decodeArgs ext complaint task.argsJson
  let outcome ← runProcess (node task args (decodeEnv ext task.envJson))
  sendLogs token task.nodeRunId (outcomeLogs outcome)
  let results ← checkAfter outcome task
  uploadAll token task.nodeRunId results
  AgentClient.reportResult token (resultReport task.nodeRunId outcome results)

def failureReport (task : TaskInfo) (why : AnyError) : ReportResultRequest :=
  ⟨task.nodeRunId, NodeStatus.failed.text, none, some why.chain, none⟩

def pollOnce (ext : External) (complaint : String → String) (token : String) : Proc AgentSig Empty Unit := do
  match ← (AgentClient.pollTask token).attempt with
  | .ok (some task) =>
      match ← (executeTask ext complaint token task).attempt with
      | .ok _ => return ()
      | .error why =>
          let _ ← (AgentClient.reportResult token (failureReport task why)).attempt
          return ()
  | _ => return ()

end AgentWorker

end PostJen.Server
