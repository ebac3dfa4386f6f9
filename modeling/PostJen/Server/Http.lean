import PostJen.Server.Runner

/-! The handlers of `http.rs` that change the database.

Path and body parameters arrive parsed. Row ids are positive, so an id that a
client sends is a natural number and zero stands for the ids that name no row.
-/

set_option autoImplicit false

open PostJen.Foundations PostJen.Core

namespace PostJen.Server

/-! ## Requests and responses -/

/-- The `authorization` header, if it is visible ASCII. -/
structure Headers where
  authorization : Option String
  deriving DecidableEq

structure StartRunRequest where
  triggerType : Option String := none
  triggeredBy : Option String := none
  params : Option (StringMap String) := none

structure WebhookPayload where
  params : Option (StringMap String) := none
  triggeredBy : Option String := none

structure ArtifactReport where
  path : String
  resolvedPath : String
  required : Bool
  existsFlag : Bool
  sizeBytes : Option Int
  deriving DecidableEq

structure ReportResultRequest where
  nodeRunId : Nat
  status : String
  exitCode : Option Int
  failureReason : Option String
  artifacts : Option (List ArtifactReport)
  deriving DecidableEq

structure ReportLogsRequest where
  nodeRunId : Nat
  logs : List (String × String)
  deriving DecidableEq

structure Part where
  name : String
  contents : String
  deriving DecidableEq

inductive Request where
  | registerJob (definitionPath : String) (enabled : Option Bool)
  | startRun (jobId : String) (payload : StartRunRequest)
  | webhookTrigger (jobId : String) (payload : Option WebhookPayload)
  | cancelRun (runId : Nat)
  | rerunRun (runId : Nat)
  | registerAgent (name hostname : String) (labels : Option (List String))
  | deleteAgent (agentId : String)
  | pollTask (headers : Headers)
  | reportResult (headers : Headers) (payload : ReportResultRequest)
  | reportLogs (headers : Headers) (payload : ReportLogsRequest)
  | heartbeat (headers : Headers)
  | uploadArtifact (headers : Headers) (parts : List Part)
  | createSecret (name value : String)
  | deleteSecret (name : String)

inductive Body where
  | empty
  | definition (row : JobDefinitionRow)
  | run (response : StartRunResponse)
  | canceled (response : CancelRunResponse)
  | rerun (response : StartRunResponse) (rerunOf : Nat)
  | agent (agentId token : String)
  | task (task : Task) (outputs : List ResolvedNodeOutput)
  | secret (summary : SecretSummary)
  deriving DecidableEq

structure Response where
  status : Nat
  body : Body
  deriving DecidableEq

/-- `poll_task` is cut after its UPDATE; every other handler runs to its response. -/
inductive Answer where
  | response (response : Response)
  | picked (task : Task) (outputs : List ResolvedNodeOutput)
  deriving DecidableEq

def created (body : Body) : Answer := .response ⟨201, body⟩

def ok (body : Body) : Answer := .response ⟨200, body⟩

def noContent : Answer := .response ⟨204, .empty⟩

/-! ## Jobs and runs -/

def loadOrReject (path : String) : Proc Sig ApiError ResolvedJobDefinition :=
  .call (.load path) fun reply =>
    match (reply : Except AnyError ResolvedJobDefinition) with
    | .error why => .halt (.badRequest why.message)
    | .ok definition => .done definition

def readDefinitionFile (path : String) : Proc Sig ApiError String :=
  .call (.readFile path) fun reply =>
    match (reply : Except String String) with
    | .error why => .halt (.badRequest ("failed to read definition file: " ++ why))
    | .ok contents => .done contents

def registerJob (ext : External) (path : String) (enabled : Option Bool) : Proc Sig ApiError Answer := do
  let definitionPath := trim path
  if definitionPath = "" then
    .halt (.badRequest "definition_path must not be empty")
  else
    let definition ← loadOrReject definitionPath
    let contents ← readDefinitionFile definitionPath
    let existing ← fetch (.definitionCount definition.id)
    let row ← commit (.registerJob {
      jobId := definition.id
      name := definition.name
      description := definition.description
      definitionPath
      definitionHash := ext.sha256Hex contents
      enabled := enabled.getD true
      triggersJson := definition.triggers.map ext.encodeTriggers })
    return .response ⟨if existing = 0 then 201 else 200, .definition row⟩

/-- The loop over the declared parameters. -/
def resolveParams (supplied : StringMap String) :
    List ParamDefinition → StringMap String → Except ApiError (StringMap String)
  | [], resolved => .ok resolved
  | param :: rest, resolved =>
      match supplied.lookup param.name with
      | some value => resolveParams supplied rest (resolved.insert param.name value)
      | none =>
          match param.default with
          | some value => resolveParams supplied rest (resolved.insert param.name value)
          | none =>
              if param.required then
                .error (.badRequest ("required parameter '" ++ param.name ++ "' is missing"))
              else resolveParams supplied rest resolved

def rejectUnknown (params : List ParamDefinition) : List String → Except ApiError Unit
  | [] => .ok ()
  | key :: rest =>
      if params.any fun param => param.name = key then rejectUnknown params rest
      else .error (.badRequest ("unknown parameter '" ++ key ++ "'"))

def encodeParams (ext : External) (resolved : StringMap String) : Option String :=
  if resolved.entries = [] then none else some (ext.encodeMap resolved)

def enabledJob (jobId : String) : Proc Sig ApiError JobDefinitionForRun := do
  let job ← fetch (.jobForRun jobId)
  match (job : Option JobDefinitionForRun) with
  | none => .halt (.notFound "job not found")
  | some job => if job.enabled then .done job else .halt (.conflict "job is disabled")

def JobDefinitionForRun.newRun (job : JobDefinitionForRun) (triggerType message workingDir : String)
    (triggeredBy paramsJson : Option String) : NewRun where
  jobDefinitionId := job.id
  jobId := job.jobId
  jobName := job.name
  triggerType
  triggeredBy
  definitionPath := job.definitionPath
  definitionHash := job.definitionHash
  workingDir
  paramsJson
  rerunOfJobRunId := none
  message
  lastTriggeredAt := none

def startRun (ext : External) (jobId : String) (payload : StartRunRequest) :
    Proc Sig ApiError Answer := do
  let job ← enabledJob jobId
  let triggerType := trim (payload.triggerType.getD "manual")
  if triggerType = "" then
    .halt (.badRequest "trigger_type must not be empty")
  else
    let definition ← loadOrReject job.definitionPath
    let supplied := payload.params.getD ∅
    let resolved ← lift (resolveParams supplied definition.params ∅)
    let keys ← Proc.call (.order supplied.keys) .done
    lift (rejectUnknown definition.params keys)
    let response ← commit (.createRun (job.newRun triggerType "run created" definition.workingDir
      payload.triggeredBy (encodeParams ext resolved)))
    return created (.run response)

def webhookTrigger (ext : External) (jobId : String) (payload : Option WebhookPayload) :
    Proc Sig ApiError Answer := do
  let job ← enabledJob jobId
  let definition ← loadOrReject job.definitionPath
  if (definition.triggers.map (·.webhook)).getD false = false then
    .halt (.badRequest "webhook trigger is not enabled for this job")
  else
    let supplied := (payload.bind (·.params)).getD ∅
    let resolved ← lift (resolveParams supplied definition.params ∅)
    let response ← commit (.createRun (job.newRun "webhook" "webhook triggered" definition.workingDir
      (payload.bind (·.triggeredBy)) (encodeParams ext resolved)))
    return created (.run response)

def cancelRun (runId : Nat) : Proc Sig ApiError Answer := do
  let run ← fetch (.runForCancellation runId)
  match (run : Option RunCancellationRecord) with
  | none => .halt (.notFound "run not found")
  | some run =>
      match run.status with
      | .queued | .running => do
          let response ← commit (.cancelRun runId run.status)
          return ok (.canceled response)
      | .cancelRequested | .canceled =>
          return ok (.canceled ⟨run.id, run.status, run.cancelRequestedAt⟩)
      | _ => .halt (.conflict "run cannot be canceled in its current status")

def rerunRun (runId : Nat) : Proc Sig ApiError Answer := do
  let source ← fetch (.runForRerun runId)
  match (source : Option RunForRerun) with
  | none => .halt (.notFound "run not found")
  | some source => do
      let response ← commit (.createRun {
        jobDefinitionId := source.jobDefinitionId
        jobId := source.jobId
        jobName := source.jobName
        triggerType := "rerun"
        triggeredBy := none
        definitionPath := source.definitionPath
        definitionHash := source.definitionHash
        workingDir := source.workingDir
        paramsJson := none
        rerunOfJobRunId := some source.id
        message := "rerun created"
        lastTriggeredAt := none })
      return created (.rerun response source.id)

/-! ## Agent management -/

def random {E : Type} (bytes : Nat) : Proc Sig E String := .call (.random bytes) .done

def registerAgent (ext : External) (name hostname : String) (labels : Option (List String)) :
    Proc Sig ApiError Answer := do
  let name := trim name
  if name = "" then
    .halt (.badRequest "name must not be empty")
  else
    let id ← random 8
    let token ← random 32
    let agentId := "agent-" ++ id
    run (.agents (.register ⟨agentId, name, hostname, ext.encodeStrings (labels.getD []),
      ext.sha256Hex token⟩))
    return created (.agent agentId token)

def deleteAgent (agentId : String) : Proc Sig ApiError Answer := do
  let affected ← execute (.agents (.delete agentId))
  if affected = 0 then .halt (.notFound "agent not found") else return noContent

/-! ## Agent worker API -/

def stripPrefix (start text : String) : Option String :=
  if start.toList.isPrefixOf text.toList then
    some (String.ofList (text.toList.drop start.toList.length))
  else none

def bearer (headers : Headers) : Option String :=
  headers.authorization.bind (stripPrefix "Bearer ")

def authenticateAgent (ext : External) (headers : Headers) : Proc Sig ApiError String :=
  match bearer headers with
  | none => .halt (.unauthorized "missing or invalid Authorization header")
  | some token => do
      let agentId ← fetch (.agentByToken (ext.sha256Hex token))
      match (agentId : Option String) with
      | none => .halt (.unauthorized "invalid token or agent offline")
      | some agentId => return agentId

/-- `poll_task` up to its UPDATE. -/
def pollTask (ext : External) (headers : Headers) : Proc Sig ApiError Answer := do
  let agentId ← authenticateAgent ext headers
  let _ ← fetch (.agentLabels agentId)
  let task ← fetch (.queuedTask agentId)
  match (task : Option Task) with
  | none => return noContent
  | some task =>
      let outputs ← loadOutputs task
      run (.updateNode task.nodeRunId .start)
      return .picked task outputs

/-- `poll_task` from its UPDATE on. -/
def answerTask (task : Task) (outputs : List ResolvedNodeOutput) : Proc Sig ApiError Answer := do
  insertNodeEvent task.jobRunId task.nodeRunId .queued .running (some "picked by agent")
  return ok (.task task outputs)

def validStatus : String → Option NodeStatus
  | "success" => some .success
  | "failed" => some .failed
  | "timed_out" => some .timedOut
  | "canceled" => some .canceled
  | _ => none

theorem validStatus_reported {text : String} {status : NodeStatus} (valid : validStatus text = some status) :
    status.reported = true := by
  unfold validStatus at valid
  split at valid <;> cases valid <;> rfl

def recordArtifacts (runId nodeRunId : Nat) : List ArtifactReport → Proc Sig ApiError Unit
  | [] => .done ()
  | artifact :: rest => do
      run (.artifact ⟨runId, nodeRunId, artifact.path, artifact.resolvedPath, artifact.required,
        artifact.existsFlag, artifact.sizeBytes⟩)
      recordArtifacts runId nodeRunId rest

/-- `fetch_one` of a node's run. -/
def nodeJobRun (nodeRunId : Nat) (missing : ApiError) : Proc Sig ApiError Nat := do
  let runId ← fetch (.nodeJobRun nodeRunId)
  match (runId : Option Nat) with
  | none => .halt missing
  | some runId => return runId

def reportResult (ext : External) (headers : Headers) (payload : ReportResultRequest) :
    Proc Sig ApiError Answer := do
  let agentId ← authenticateAgent ext headers
  let assigned ← fetch (.assignedAgent payload.nodeRunId)
  if (assigned : Option (Option String)).join ≠ some agentId then
    .halt (.badRequest "node not assigned to this agent")
  else match validStatus payload.status with
  | none => .halt (.badRequest "invalid status")
  | some status => do
      let runId ← nodeJobRun payload.nodeRunId (FromSql.fromSql .rowNotFound)
      run (.updateNode payload.nodeRunId (.finish status payload.exitCode payload.failureReason))
      insertNodeEvent runId payload.nodeRunId .running status payload.failureReason
      recordArtifacts runId payload.nodeRunId (payload.artifacts.getD [])
      return ok .empty

def reportLogs (ext : External) (headers : Headers) (payload : ReportLogsRequest) :
    Proc Sig ApiError Answer := do
  let _ ← authenticateAgent ext headers
  let runId ← nodeJobRun payload.nodeRunId (.notFound "node run not found")
  let sequence ← fetch (.maxSequence runId)
  recordLogs runId payload.nodeRunId sequence payload.logs
  return ok .empty

def heartbeat (ext : External) (headers : Headers) : Proc Sig ApiError Answer := do
  let agentId ← authenticateAgent ext headers
  run (.agents (.heartbeat agentId))
  return ok .empty

/-- `str::parse::<i64>`, with zero for a negative number. -/
def parseRowId (text : String) : Except String Nat :=
  let digits (chars : List Char) : Option Nat :=
    if chars ≠ [] && chars.all Char.isDigit then
      some (chars.foldl (fun value c => 10 * value + (c.toNat - '0'.toNat)) 0)
    else none
  match text.toList with
  | [] => .error "cannot parse integer from empty string"
  | '-' :: chars =>
      match digits chars with
      | none => .error "invalid digit found in string"
      | some value =>
          if value ≤ 2 ^ 63 then .ok 0 else .error "number too small to fit in target type"
  | chars =>
      match digits (if chars.head? = some '+' then chars.tail else chars) with
      | none => .error "invalid digit found in string"
      | some value =>
          if value < 2 ^ 63 then .ok value else .error "number too large to fit in target type"

structure Upload where
  nodeRunId : Option Nat := none
  path : Option String := none
  file : Option String := none

/-- The loop over the multipart fields. -/
def readParts : List Part → Upload → Except ApiError Upload
  | [], upload => .ok upload
  | part :: rest, upload =>
      if part.name = "node_run_id" then
        match parseRowId part.contents with
        | .error why => .error (.badRequest why)
        | .ok id => readParts rest { upload with nodeRunId := some id }
      else if part.name = "path" then readParts rest { upload with path := some part.contents }
      else if part.name = "file" then readParts rest { upload with file := some part.contents }
      else readParts rest upload

def requirePart {A : Type} (name : String) : Option A → Except ApiError A
  | none => .error (.badRequest (name ++ " is required"))
  | some value => .ok value

def uploadArtifact (ext : External) (settings : Settings) (headers : Headers) (parts : List Part) :
    Proc Sig ApiError Answer := do
  let _ ← authenticateAgent ext headers
  let upload ← lift (readParts parts {})
  let nodeRunId ← lift (requirePart "node_run_id" upload.nodeRunId)
  let path ← lift (requirePart "path" upload.path)
  let file ← lift (requirePart "file" upload.file)
  let runId ← nodeJobRun nodeRunId (.notFound "node run not found")
  let dest := artifactDest settings runId nodeRunId path
  let written ← Proc.call (.writeFile dest file) .done
  match (written : Except String Unit) with
  | .error why => .halt (.internal ("failed to write artifact: " ++ why))
  | .ok _ =>
      run (.artifact ⟨runId, nodeRunId, path, dest, true, true, some (file.utf8ByteSize : Int)⟩)
      return ok .empty

/-! ## Secrets -/

def createSecret (ext : External) (settings : Settings) (name value : String) :
    Proc Sig ApiError Answer :=
  match settings.secretKey with
  | none => .halt (.badRequest "POSTJEN_SECRET_KEY is not configured")
  | some key => do
      let name := trim name
      if name = "" then
        .halt (.badRequest "name must not be empty")
      else
        let nonce ← random 12
        match ext.encrypt key value nonce with
        | .error why => .halt (.internal ("encryption failed: " ++ why))
        | .ok encrypted => do
            run (.secret name ⟨encrypted, nonce⟩)
            let summary ← fetch (.secretSummary name)
            match (summary : Option SecretSummary) with
            | none => .halt (FromSql.fromSql .rowNotFound)
            | some summary => return created (.secret summary)

def deleteSecret (name : String) : Proc Sig ApiError Answer := do
  let affected ← execute (.deleteSecret name)
  if affected = 0 then .halt (.notFound "secret not found") else return noContent

/-! ## Routing -/

def handle (ext : External) (settings : Settings) : Request → Proc Sig ApiError Answer
  | .registerJob path enabled => registerJob ext path enabled
  | .startRun jobId payload => startRun ext jobId payload
  | .webhookTrigger jobId payload => webhookTrigger ext jobId payload
  | .cancelRun runId => cancelRun runId
  | .rerunRun runId => rerunRun runId
  | .registerAgent name hostname labels => registerAgent ext name hostname labels
  | .deleteAgent agentId => deleteAgent agentId
  | .pollTask headers => pollTask ext headers
  | .reportResult headers payload => reportResult ext headers payload
  | .reportLogs headers payload => reportLogs ext headers payload
  | .heartbeat headers => heartbeat ext headers
  | .uploadArtifact headers parts => uploadArtifact ext settings headers parts
  | .createSecret name value => createSecret ext settings name value
  | .deleteSecret name => deleteSecret name

end PostJen.Server
