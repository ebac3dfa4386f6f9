import PostJen.Server.Agent
import PostJen.Server.Sample

/-! One node, executed by the local worker and by an agent.

Both executions run alone on one machine and nothing fails: the process ends in
one way, the files that exist are the same, and every request of the agent is
answered by its handler. What they leave about the node is compared.
-/

set_option autoImplicit false

open PostJen.Foundations PostJen.Core

namespace PostJen.Server

/-! ## The machine of the node -/

structure Host where
  result : ChildResult
  size : String → Option Nat
  contents : String → String

namespace Host

def choice (host : Host) : Op → Choice
  | .process _ => .child host.result
  | .metadata path => .size (host.size path)
  | .copyFile source _ => .contents (host.contents source)
  | _ => .answer 0

def check (host : Host) (workingDir : String) (outputs : List ResolvedNodeOutput) : List ArtifactResult :=
  outputs.map fun output => checkOutput workingDir output (host.size (resolveOutputPath workingDir output))

/-- The artifacts that a worker checks: none unless the process succeeded. -/
def checked (host : Host) (workingDir : String) (outputs : List ResolvedNodeOutput) : List ArtifactResult :=
  if host.result.outcome.status = .success then host.check workingDir outputs else []

end Host

def Op.faultless (ext : External) (host : Host) (op : Op) (s : State) : Option (op.Reply × State) :=
  op.run ext (host.choice op) s

/-- A request from its handler's first statement to its response. -/
def serve (ext : External) (settings : Settings) (request : Request) : Proc Sig Empty Point := do
  match ← block ext settings (.received request) with
  | .picked task outputs => block ext settings (.picked task outputs)
  | point => return point

/-- An operation of the agent that does not fail; a request is served at once. -/
def AgentOp.faultless (ext : External) (settings : Settings) (host : Host) (op : AgentOp) (s : State) :
    Option (op.Reply × State) :=
  match op with
  | .request sent =>
      match (serve ext settings sent).solo (Op.faultless ext host) s with
      | some (.responded response, s) => some (.ok response, s)
      | _ => none
  | .process _ => some (host.result, s)
  | .metadata path => some (host.size path, s)
  | .readFile path => some (.ok (host.contents path), s)

/-! ## What an execution leaves about a node -/

/-- A row of `run_artifacts` up to its `resolved_path`. -/
structure ArtifactFlags where
  path : String
  required : Bool
  existsFlag : Bool
  deriving DecidableEq

def RunArtifact.flags (row : RunArtifact) : ArtifactFlags := ⟨row.path, row.required, row.existsFlag⟩

def artifactFlags (result : ArtifactResult) : ArtifactFlags :=
  ⟨result.path, result.required, result.existsFlag⟩

def Db.nodeResult (db : Db) (nodeRunId : Nat) : Option (NodeStatus × Option Int × Option String) :=
  (db.nodeRuns.find nodeRunId).map fun node => (node.status, node.exitCode, node.failureReason)

def Db.nodeLogs (db : Db) (nodeRunId : Nat) : List (Nat × String × String) :=
  (db.runLogs.rows.filter fun row => row.2.nodeRunId = some nodeRunId).map fun row =>
    (row.2.sequence, row.2.stream, row.2.content)

def Db.nodeArtifacts (db : Db) (nodeRunId : Nat) : List ArtifactFlags :=
  (db.runArtifacts.rows.filter fun row => row.2.nodeRunId = nodeRunId).map fun row => row.2.flags

def numbered : Nat → List (String × String) → List (Nat × String × String)
  | _, [] => []
  | sequence, (stream, content) :: rest => (sequence + 1, stream, content) :: numbered (sequence + 1) rest

/-- What was added about a node while its row, its run and the agents stayed as they were. -/
structure Leaves (id : Nat) (s s' : State) (logs : List (Nat × String × String)) (artifacts : List ArtifactFlags) :
    Prop where
  runs : s'.db.jobRuns = s.db.jobRuns
  nodes : s'.db.nodeRuns = s.db.nodeRuns
  agents : s'.db.agents = s.db.agents
  logs : s'.db.nodeLogs id = s.db.nodeLogs id ++ logs
  artifacts : s'.db.nodeArtifacts id = s.db.nodeArtifacts id ++ artifacts

variable {id runId : Nat} {s s' middle : State} {logs more : List (Nat × String × String)}
  {artifacts others : List ArtifactFlags}

namespace Leaves

theorem nothing (s : State) : Leaves id s s [] [] := ⟨rfl, rfl, rfl, (List.append_nil _).symm, (List.append_nil _).symm⟩

theorem trans (first : Leaves id s middle logs artifacts) (rest : Leaves id middle s' more others) :
    Leaves id s s' (logs ++ more) (artifacts ++ others) where
  runs := rest.runs.trans first.runs
  nodes := rest.nodes.trans first.nodes
  agents := rest.agents.trans first.agents
  logs := by rw [rest.logs, first.logs, List.append_assoc]
  artifacts := by rw [rest.artifacts, first.artifacts, List.append_assoc]

theorem store (s : State) (dest contents : String) : Leaves id s (s.store dest contents).2 [] [] := by
  unfold State.store
  split
  · exact .nothing s
  · exact ⟨rfl, rfl, rfl, (List.append_nil _).symm, (List.append_nil _).symm⟩

end Leaves

structure Present (runId id : Nat) (s : State) : Prop where
  run : s.db.hasRun runId = true
  node : s.db.hasNode id = true

theorem Present.after (present : Present runId id s) (leaves : Leaves id s s' logs artifacts) : Present runId id s' where
  run := by rw [Db.hasRun, leaves.runs]; exact present.run
  node := by rw [Db.hasNode, leaves.nodes]; exact present.node

theorem Present.apply_event (present : Present runId id s) {now : Timestamp} {scope : EventScope}
    {fromStatus toStatus message : Option String} :
    (Write.event ⟨runId, some id, scope, fromStatus, toStatus, message⟩).apply now s.db =
      .ok (s.db.runEvents.next, { s.db with
        runEvents := s.db.runEvents.insert (NewEvent.row ⟨runId, some id, scope, fromStatus, toStatus, message⟩ now) }) := by
  simp only [Write.apply, Option.all_some, present.run, present.node, Bool.not_true, Bool.or_self, Bool.false_eq_true,
    if_false]

/-! ## Statements -/

section
variable {ext : External} {settings : Settings} {host : Host} {E : Type} [FromSql E]

theorem fetched {query : Select} {row : query.Row} (answers : query.answers s.db = [row]) :
    (fetch query : Proc Sig E query.Row).solo (Op.faultless ext host) s = some (row, s) :=
  fetch_solo (run_select answers)

theorem ran {write : Write} {affected : Nat} {db : Db} (applied : write.apply s.now s.db = .ok (affected, db)) :
    (run write : Proc Sig E Unit).solo (Op.faultless ext host) s = some ((), { s with db }) :=
  run_solo (run_write applied)

variable (ext host E)

theorem log_solo (present : Present runId id s) {stream : String} (known : stream ∈ ["stdout", "stderr", "system"])
    (sequence : Nat) (content : String) :
    ∃ s', (run (.log ⟨runId, id, stream, sequence, content⟩) : Proc Sig E Unit).solo (Op.faultless ext host) s =
      some ((), s') ∧ Leaves id s s' [(sequence, stream, content)] [] := by
  have applied : (Write.log ⟨runId, id, stream, sequence, content⟩).apply s.now s.db = .ok (s.db.runLogs.next,
      { s.db with runLogs := s.db.runLogs.insert (NewLog.row ⟨runId, id, stream, sequence, content⟩ s.now) }) := by
    simp only [Write.apply, known, not_true_eq_false, if_false, present.run, present.node, Bool.not_true, Bool.or_self,
      Bool.false_eq_true]
  refine ⟨_, ran applied, rfl, rfl, rfl, ?_, (List.append_nil _).symm⟩
  simp only [Db.nodeLogs, Serial.rows_insert, List.filter_append, List.map_append]
  simp [NewLog.row]

theorem artifact_solo (present : Present runId id s) (artifact : NewArtifact) (run : artifact.jobRunId = runId)
    (node : artifact.nodeRunId = id) :
    ∃ s', (Server.run (.artifact artifact) : Proc Sig E Unit).solo (Op.faultless ext host) s = some ((), s') ∧
      Leaves id s s' [] [⟨artifact.path, artifact.required, artifact.existsFlag⟩] := by
  subst run node
  have applied : (Write.artifact artifact).apply s.now s.db = .ok (s.db.runArtifacts.next,
      { s.db with runArtifacts := s.db.runArtifacts.insert (artifact.row s.now) }) := by
    simp only [Write.apply, present.run, present.node, Bool.not_true, Bool.or_self, Bool.false_eq_true, if_false]
  refine ⟨_, ran applied, rfl, rfl, rfl, (List.append_nil _).symm, ?_⟩
  simp only [Db.nodeArtifacts, Serial.rows_insert, List.filter_append, List.map_append]
  simp [NewArtifact.row, RunArtifact.flags]

theorem event_solo (present : Present runId id s) (fromStatus toStatus : NodeStatus) (message : Option String) :
    ∃ s', (insertNodeEvent runId id fromStatus toStatus message : Proc Sig E Unit).solo (Op.faultless ext host) s =
      some ((), s') ∧ Leaves id s s' [] [] :=
  ⟨_, ran present.apply_event, rfl, rfl, rfl, (List.append_nil _).symm, (List.append_nil _).symm⟩

theorem recordLogs_solo (present : Present runId id s) (sequence : Nat) (streams : List (String × String))
    (known : ∀ entry ∈ streams, entry.1 ∈ ["stdout", "stderr", "system"]) :
    ∃ s', (recordLogs runId id sequence streams : Proc Sig E Unit).solo (Op.faultless ext host) s = some ((), s') ∧
      Leaves id s s' (numbered sequence streams) [] := by
  induction streams generalizing s sequence with
  | nil => exact ⟨s, rfl, .nothing s⟩
  | cons entry rest ih =>
    obtain ⟨stream, content⟩ := entry
    obtain ⟨middle, logged, leaves⟩ := log_solo ext host E present (known _ List.mem_cons_self) (sequence + 1) content
    obtain ⟨last, recorded, left⟩ := ih (present.after leaves) (sequence + 1) fun entry inside =>
      known entry (List.mem_cons_of_mem _ inside)
    refine ⟨last, ?_, leaves.trans left⟩
    rw [recordLogs, Proc.solo_bind logged]
    exact recorded

end

/-! ## The end of an execution -/

/-- What an execution leaves: the end of the node's row, and its rows behind those that were there. -/
structure Reported (id : Nat) (s s' : State) (result : NodeStatus × Option Int × Option String)
    (logs : List (Nat × String × String)) (artifacts : List ArtifactFlags) : Prop where
  result : s'.db.nodeResult id = some result
  logs : s'.db.nodeLogs id = s.db.nodeLogs id ++ logs
  artifacts : s'.db.nodeArtifacts id = s.db.nodeArtifacts id ++ artifacts

theorem Reported.after {first last : State} {result : NodeStatus × Option Int × Option String}
    (reported : Reported id middle last result more others) (leaves : Leaves id first middle logs artifacts) :
    Reported id first last result (logs ++ more) (artifacts ++ others) where
  result := reported.result
  logs := by rw [reported.logs, leaves.logs, List.append_assoc]
  artifacts := by rw [reported.artifacts, leaves.artifacts, List.append_assoc]

theorem Reported.before {first last : State} {result : NodeStatus × Option Int × Option String}
    (reported : Reported id first middle result logs artifacts) (leaves : Leaves id middle last more others) :
    Reported id first last result (logs ++ more) (artifacts ++ others) where
  result := by rw [Db.nodeResult, leaves.nodes]; exact reported.result
  logs := by rw [leaves.logs, reported.logs, List.append_assoc]
  artifacts := by rw [leaves.artifacts, reported.artifacts, List.append_assoc]

section
variable (ext : External) (host : Host) (E : Type) [FromSql E]

theorem finish_solo (present : Present runId id s) (status : NodeStatus) (exitCode : Option Int)
    (failureReason : Option String) :
    ∃ s', (run (.updateNode id (.finish status exitCode failureReason)) : Proc Sig E Unit).solo (Op.faultless ext host) s =
      some ((), s') ∧ Reported id s s' (status, exitCode, failureReason) [] [] ∧ Present runId id s' := by
  obtain ⟨node, found⟩ := Option.isSome_iff_exists.mp present.node
  refine ⟨_, ran rfl, ⟨?_, (List.append_nil _).symm, (List.append_nil _).symm⟩, present.run, ?_⟩
  · rw [Db.nodeResult, Serial.find_updateAt_self, found]
    rfl
  · rw [Db.hasNode, Serial.find_updateAt_self, found]
    rfl

theorem ending_solo (present : Present runId id s) (status : NodeStatus) (exitCode : Option Int)
    (failureReason : Option String) :
    ∃ middle s', (run (.updateNode id (.finish status exitCode failureReason)) : Proc Sig E Unit).solo
        (Op.faultless ext host) s = some ((), middle) ∧
      (insertNodeEvent runId id .running status failureReason : Proc Sig E Unit).solo (Op.faultless ext host) middle =
        some ((), s') ∧ Reported id s s' (status, exitCode, failureReason) [] [] ∧ Present runId id s' := by
  obtain ⟨middle, finished, reported, there⟩ := finish_solo ext host E present status exitCode failureReason
  obtain ⟨last, recorded, leaves⟩ := event_solo ext host E there .running status failureReason
  exact ⟨middle, last, finished, recorded, reported.before leaves, there.after leaves⟩

end

/-! ## The local worker -/

def declaredOutputs (ext : External) (files : String → Option String) (task : Task) : List ResolvedNodeOutput :=
  match loadDefinition ext files task.definitionPath with
  | .error _ => []
  | .ok definition => ((definition.nodes.find? fun node => node.id = task.nodeId).map (·.outputs)).getD []

section
variable (ext : External) (settings : Settings) (host : Host)

theorem loadOutputs_solo (E : Type) (task : Task) (s : State) :
    (loadOutputs task : Proc Sig E (List ResolvedNodeOutput)).solo (Op.faultless ext host) s =
      some (declaredOutputs ext s.files task, s) := by
  have ran : Op.faultless ext host (.load task.definitionPath) s = some (loadDefinition ext s.files task.definitionPath, s) :=
    rfl
  rw [loadOutputs, Proc.solo_call ran, declaredOutputs]
  cases loadDefinition ext s.files task.definitionPath <;> rfl

theorem checkOutputs_solo (E : Type) (workingDir : String) (outputs : List ResolvedNodeOutput) (s : State) :
    (checkOutputs workingDir outputs : Proc Sig E (List ArtifactResult)).solo (Op.faultless ext host) s =
      some (host.check workingDir outputs, s) := by
  induction outputs with
  | nil => rfl
  | cons output rest ih =>
    have ran : Op.faultless ext host (.metadata (resolveOutputPath workingDir output)) s =
        some (host.size (resolveOutputPath workingDir output), s) := rfl
    rw [checkOutputs, Proc.solo_call ran, Proc.solo_bind ih]
    rfl

theorem checkAfter_solo (E : Type) (workingDir : String) (outputs : List ResolvedNodeOutput) (s : State) :
    (checkAfter host.result.outcome workingDir outputs : Proc Sig E (List ArtifactResult)).solo (Op.faultless ext host) s =
      some (host.checked workingDir outputs, s) := by
  unfold checkAfter Host.checked
  split
  · exact checkOutputs_solo ext host E workingDir outputs s
  · rfl

theorem storeLocally_solo (task : Task) (artifact : ArtifactResult) (s : State) :
    ∃ s', (storeLocally settings task artifact).solo (Op.faultless ext host) s = some ((), s') ∧
      Leaves task.nodeRunId s s' [] [] := by
  unfold storeLocally
  split
  · let dest := artifactDest settings task.jobRunId task.nodeRunId artifact.path
    have ran : Op.faultless ext host (.copyFile artifact.resolvedPath dest) s =
        some (s.store dest (host.contents artifact.resolvedPath)) := rfl
    refine ⟨(s.store dest (host.contents artifact.resolvedPath)).2, ?_, .store s dest _⟩
    rw [Proc.solo_call ran]
    rfl
  · exact ⟨s, rfl, .nothing s⟩

theorem recordLocalArtifacts_solo (task : Task) (present : Present task.jobRunId task.nodeRunId s)
    (results : List ArtifactResult) :
    ∃ s', (recordLocalArtifacts settings task results).solo (Op.faultless ext host) s = some ((), s') ∧
      Leaves task.nodeRunId s s' [] (results.map artifactFlags) := by
  induction results generalizing s with
  | nil => exact ⟨s, rfl, .nothing s⟩
  | cons artifact rest ih =>
    obtain ⟨copied, stored, leaves⟩ := storeLocally_solo ext settings host task artifact s
    obtain ⟨middle, inserted, left⟩ := artifact_solo ext host AnyError (present.after leaves)
      (newArtifact task.jobRunId task.nodeRunId artifact) rfl rfl
    obtain ⟨last, recorded, others⟩ := ih ((present.after leaves).after left)
    refine ⟨last, ?_, (leaves.trans left).trans others⟩
    rw [recordLocalArtifacts, Proc.solo_bind stored, Proc.solo_bind inserted]
    exact recorded

end

theorem outcomeLogs_known (outcome : NodeExecutionOutcome) :
    ∀ entry ∈ outcomeLogs outcome, entry.1 ∈ ["stdout", "stderr", "system"] := by
  unfold outcomeLogs
  split <;> split <;> simp

def Db.logged (db : Db) (runId : Nat) : Nat :=
  ((db.runLogs.rows.filter fun row => row.2.jobRunId = runId).map fun row => row.2.sequence).foldl Nat.max 0

def Host.ending (host : Host) (results : List ArtifactResult) : NodeStatus × Option Int × Option String :=
  ((enforceOutputs host.result.outcome results).1, host.result.outcome.exitCode,
    (enforceOutputs host.result.outcome results).2)

theorem executeLocalTask_solo (ext : External) (settings : Settings) (host : Host) (task : Task)
    (present : Present task.jobRunId task.nodeRunId s) {outputs : List ResolvedNodeOutput}
    (declared : declaredOutputs ext s.files task = outputs) :
    ∃ here, (executeLocalTask ext settings task).solo (Op.faultless ext host) s = some ((), here) ∧
      Reported task.nodeRunId s here (host.ending (host.checked task.workingDir outputs))
        (numbered (s.db.logged task.jobRunId) (outcomeLogs host.result.outcome))
        ((host.checked task.workingDir outputs).map artifactFlags) := by
  have loaded := loadOutputs_solo ext host AnyError task s
  rw [declared] at loaded
  have sequence : (fetch (.maxSequence task.jobRunId) : Proc Sig AnyError Nat).solo (Op.faultless ext host) s =
      some (s.db.logged task.jobRunId, s) := fetched rfl
  obtain ⟨logged, recorded, logs⟩ := recordLogs_solo ext host AnyError present (s.db.logged task.jobRunId)
    (outcomeLogs host.result.outcome) (outcomeLogs_known _)
  have checked := checkAfter_solo ext host AnyError task.workingDir outputs logged
  obtain ⟨stored, inserted, artifacts⟩ := recordLocalArtifacts_solo ext settings host task (present.after logs)
    (host.checked task.workingDir outputs)
  obtain ⟨middle, here, finished, ended, reported, -⟩ := ending_solo ext host AnyError
    ((present.after logs).after artifacts)
    (enforceOutputs host.result.outcome (host.checked task.workingDir outputs)).1 host.result.outcome.exitCode
    (enforceOutputs host.result.outcome (host.checked task.workingDir outputs)).2
  refine ⟨here, ?_, ?_⟩
  · unfold executeLocalTask
    rw [Proc.solo_bind loaded]
    show Proc.solo _ (_ >>= _) s = _
    have ran : (runProcess (task.node ((ext.decodeStrings task.argsJson).getD []) (decodeEnv ext task.envJson) outputs) :
        Proc Sig AnyError NodeExecutionOutcome).solo (Op.faultless ext host) s = some (host.result.outcome, s) := rfl
    rw [Proc.solo_bind ran, Proc.solo_bind sequence, Proc.solo_bind recorded, Proc.solo_bind checked,
      Proc.solo_bind inserted, Proc.solo_bind finished]
    exact ended
  · have all := (reported.after artifacts).after logs
    simp only [List.nil_append, List.append_nil] at all
    exact all

/-! ## The agent -/

theorem bearer_bearerAuth (token : String) : bearer (bearerAuth token) = some token := by
  have starts : "Bearer ".toList.isPrefixOf ("Bearer ".toList ++ token.toList) = true :=
    List.isPrefixOf_iff_prefix.mpr (List.prefix_append _ _)
  simp only [bearer, bearerAuth, Option.bind_some, stripPrefix, String.toList_append, starts, if_true, List.drop_left,
    String.ofList_toList]

theorem parseRowId_toString {id : Nat} (small : id < 2 ^ 63) : parseRowId (toString id) = .ok id := by
  have digits : ∀ c ∈ Nat.toDigits 10 id, c.isDigit = true := fun c member =>
    Nat.isDigit_of_mem_toDigits (by decide) (by decide) member
  have value : (Nat.toDigits 10 id).foldl (fun value c => 10 * value + (c.toNat - '0'.toNat)) 0 = id :=
    Nat.ofDigitChars_eq_foldl.symm.trans Nat.ofDigitChars_ten_toDigits
  have text : (toString id).toList = Nat.toDigits 10 id := Nat.toList_repr
  unfold parseRowId
  rw [text]
  cases written : Nat.toDigits 10 id with
  | nil => exact absurd written Nat.toDigits_ne_nil
  | cons first rest =>
    rw [written] at digits value
    have minus : first ≠ '-' := fun same => absurd (digits first List.mem_cons_self) (by rw [same]; decide)
    have plus : first ≠ '+' := fun same => absurd (digits first List.mem_cons_self) (by rw [same]; decide)
    have all : (first :: rest).all Char.isDigit = true := List.all_eq_true.mpr digits
    split
    · rename_i empty
      cases empty
    · rename_i signed
      exact absurd (List.cons.inj signed).1 minus
    · simp only [List.head?_cons, Option.some.injEq, plus, if_false, all, value, small, if_true, ne_eq, reduceCtorEq,
        not_false_eq_true, decide_true, Bool.and_self]

structure Held (ext : External) (token : String) (task : Task) (s : State) : Prop where
  run : s.db.hasRun task.jobRunId = true
  node : ∃ agentId, (Select.agentByToken (ext.sha256Hex token)).answers s.db = [some agentId] ∧
    ∃ node, s.db.nodeRuns.find task.nodeRunId = some node ∧ node.jobRunId = task.jobRunId ∧
      node.assignedAgentId = some agentId

theorem Held.present {ext : External} {token : String} {task : Task} (held : Held ext token task s) :
    Present task.jobRunId task.nodeRunId s where
  run := held.run
  node := by
    obtain ⟨-, -, node, found, -⟩ := held.node
    rw [Db.hasNode, found]
    rfl

theorem Held.after {ext : External} {token : String} {task : Task} (held : Held ext token task s)
    (leaves : Leaves id s s' logs artifacts) : Held ext token task s' where
  run := by rw [Db.hasRun, leaves.runs]; exact held.run
  node := by
    simp only [Select.answers, leaves.nodes, leaves.agents]
    exact held.node

section
variable {ext : External} {settings : Settings} {host : Host} {request : Request} {response : Response}

theorem serve_solo (ended : (handle ext settings request).solo (Op.faultless ext host) s =
      some (.response response, s')) :
    (serve ext settings request).solo (Op.faultless ext host) s = some (.responded (.ok response), s') := by
  have responded : (block ext settings (.received request)).solo (Op.faultless ext host) s =
      some (.responded (.ok response), s') := Proc.solo_bind (Proc.solo_attempt ended)
  exact Proc.solo_bind responded

theorem serve_refused {why : ApiError}
    (ended : ((handle ext settings request).attempt (F := Empty)).solo (Op.faultless ext host) s = some (.error why, s')) :
    (serve ext settings request).solo (Op.faultless ext host) s = some (.responded (.error why), s') := by
  have responded : (block ext settings (.received request)).solo (Op.faultless ext host) s =
      some (.responded (.error why), s') := Proc.solo_bind ended
  exact Proc.solo_bind responded

theorem send_refused (disconnected refused : String) {why : ApiError}
    (ended : ((handle ext settings request).attempt (F := Empty)).solo (Op.faultless ext host) s = some (.error why, s')) :
    ((send request disconnected refused).attempt (F := AnyError)).solo (AgentOp.faultless ext settings host) s =
      some (.error (.msg (refused ++ ": " ++ statusText why.status ++ " " ++ why.body)), s') := by
  have ran : AgentOp.faultless ext settings host (.request request) s = some (.ok (.error why), s') := by
    simp only [AgentOp.faultless, serve_refused ended]
  rw [send, Proc.attempt, Proc.solo_call ran]
  rfl

theorem send_solo (disconnected refused : String)
    (ended : (handle ext settings request).solo (Op.faultless ext host) s = some (.response response, s')) :
    (send request disconnected refused).solo (AgentOp.faultless ext settings host) s = some (response, s') := by
  have ran : AgentOp.faultless ext settings host (.request request) s = some (.ok (.ok response), s') := by
    simp only [AgentOp.faultless, serve_solo ended]
  rw [send, Proc.solo_call ran]
  rfl

end

section
variable (ext : External) (settings : Settings) (host : Host) {token : String} {task : Task}

theorem nodeJobRun_solo (held : Held ext token task s) (missing : ApiError) :
    (nodeJobRun task.nodeRunId missing).solo (Op.faultless ext host) s = some (task.jobRunId, s) := by
  obtain ⟨-, -, node, found, run, -⟩ := held.node
  have answers : (Select.nodeJobRun task.nodeRunId).answers s.db = [some task.jobRunId] := by
    rw [Select.answers, found, Option.map_some, run]
  rw [nodeJobRun, Proc.solo_bind (fetched answers)]
  rfl

theorem authenticate_solo {agentId : String} (known : (Select.agentByToken (ext.sha256Hex token)).answers s.db = [some agentId]) :
    (authenticateAgent ext (bearerAuth token)).solo (Op.faultless ext host) s = some (agentId, s) := by
  unfold authenticateAgent
  rw [bearer_bearerAuth]
  dsimp only
  rw [Proc.solo_bind (fetched known)]
  rfl

theorem reportLogs_solo (held : Held ext token task s) (streams : List (String × String))
    (known : ∀ entry ∈ streams, entry.1 ∈ ["stdout", "stderr", "system"]) :
    ∃ s', (AgentClient.reportLogs token ⟨task.nodeRunId, streams⟩).solo (AgentOp.faultless ext settings host) s =
        some ((), s') ∧ Leaves task.nodeRunId s s' (numbered (s.db.logged task.jobRunId) streams) [] := by
  obtain ⟨agentId, authenticates, -⟩ := held.node
  have sequence : (fetch (.maxSequence task.jobRunId) : Proc Sig ApiError Nat).solo (Op.faultless ext host) s =
      some (s.db.logged task.jobRunId, s) := fetched rfl
  obtain ⟨last, recorded, leaves⟩ := recordLogs_solo ext host ApiError held.present (s.db.logged task.jobRunId)
    streams known
  have handled : (handle ext settings (.reportLogs (bearerAuth token) ⟨task.nodeRunId, streams⟩)).solo
      (Op.faultless ext host) s = some (ok .empty, last) := by
    show (reportLogs ext _ _).solo _ s = _
    rw [reportLogs, Proc.solo_bind (authenticate_solo ext host authenticates),
      Proc.solo_bind (nodeJobRun_solo ext host held _), Proc.solo_bind sequence, Proc.solo_bind recorded]
    rfl
  refine ⟨last, ?_, leaves⟩
  rw [AgentClient.reportLogs, Proc.solo_bind (send_solo _ _ handled)]
  rfl

theorem sendLogs_solo (held : Held ext token task s) (streams : List (String × String))
    (known : ∀ entry ∈ streams, entry.1 ∈ ["stdout", "stderr", "system"]) :
    ∃ s', (AgentWorker.sendLogs token task.nodeRunId streams).solo (AgentOp.faultless ext settings host) s =
        some ((), s') ∧ Leaves task.nodeRunId s s' (numbered (s.db.logged task.jobRunId) streams) [] := by
  unfold AgentWorker.sendLogs
  split
  · rename_i empty
    subst empty
    exact ⟨s, rfl, .nothing s⟩
  · exact reportLogs_solo ext settings host held streams known

theorem uploadArtifact_solo (held : Held ext token task s) (small : task.nodeRunId < 2 ^ 63) {path : String}
    (fileData : String) (isFile : namesDirectory (artifactDest settings task.jobRunId task.nodeRunId path) = false) :
    ∃ s', (AgentClient.uploadArtifact token task.nodeRunId path fileData).solo (AgentOp.faultless ext settings host) s =
        some ((), s') ∧ Leaves task.nodeRunId s s' [] [⟨path, true, true⟩] := by
  obtain ⟨agentId, authenticates, -⟩ := held.node
  have parts : readParts (AgentClient.artifactForm task.nodeRunId path fileData) {} =
      .ok ⟨some task.nodeRunId, some path, some fileData⟩ := by
    rw [AgentClient.artifactForm, readParts, if_pos rfl, parseRowId_toString small]
    rfl
  let dest := artifactDest settings task.jobRunId task.nodeRunId path
  let stored : State := { s with stored := Function.update s.stored dest (some fileData) }
  have written : Op.faultless ext host (.writeFile dest fileData) s = some (.ok (), stored) := by
    simp only [Op.faultless, Host.choice, Op.run, State.store, isFile, dest]
    rfl
  obtain ⟨last, inserted, leaves⟩ := artifact_solo ext host ApiError (s := stored) ⟨held.present.run, held.present.node⟩
    ⟨task.jobRunId, task.nodeRunId, path, dest, true, true, some (fileData.utf8ByteSize : Int)⟩ rfl rfl
  have handled : (handle ext settings (.uploadArtifact (bearerAuth token)
      (AgentClient.artifactForm task.nodeRunId path fileData))).solo (Op.faultless ext host) s =
      some (ok .empty, last) := by
    show (uploadArtifact ext settings _ _).solo _ s = _
    rw [uploadArtifact, Proc.solo_bind (authenticate_solo ext host authenticates), parts]
    simp only [lift, requirePart, Proc.done_bind]
    rw [Proc.solo_bind (nodeJobRun_solo ext host held _), Proc.call_bind, Proc.solo_call written]
    simp only [Proc.done_bind]
    rw [Proc.solo_bind inserted]
    rfl
  refine ⟨last, ?_, leaves.runs, leaves.nodes, leaves.agents, leaves.logs, leaves.artifacts⟩
  rw [AgentClient.uploadArtifact, Proc.solo_bind (send_solo _ _ handled)]
  rfl

theorem uploadArtifact_refused (held : Held ext token task s) (small : task.nodeRunId < 2 ^ 63) {path : String}
    (fileData : String) (directory : namesDirectory (artifactDest settings task.jobRunId task.nodeRunId path) = true) :
    ∃ error, ((AgentClient.uploadArtifact token task.nodeRunId path fileData).attempt (F := AnyError)).solo
      (AgentOp.faultless ext settings host) s = some (.error error, s) := by
  obtain ⟨agentId, authenticates, -⟩ := held.node
  have parts : readParts (AgentClient.artifactForm task.nodeRunId path fileData) {} =
      .ok ⟨some task.nodeRunId, some path, some fileData⟩ := by
    rw [AgentClient.artifactForm, readParts, if_pos rfl, parseRowId_toString small]
    rfl
  have written : Op.faultless ext host (.writeFile (artifactDest settings task.jobRunId task.nodeRunId path) fileData) s =
      some (.error "Is a directory (os error 21)", s) := by
    simp only [Op.faultless, Host.choice, Op.run, State.store, directory]
    rfl
  have handled : ((handle ext settings (.uploadArtifact (bearerAuth token)
      (AgentClient.artifactForm task.nodeRunId path fileData))).attempt (F := Empty)).solo (Op.faultless ext host) s =
      some (.error (.internal "failed to write artifact: Is a directory (os error 21)"), s) := by
    show ((uploadArtifact ext settings _ _).attempt (F := Empty)).solo _ s = _
    rw [uploadArtifact, Proc.solo_attempt_bind (authenticate_solo ext host authenticates), parts]
    simp only [lift, requirePart, Proc.done_bind]
    rw [Proc.solo_attempt_bind (nodeJobRun_solo ext host held _), Proc.call_bind, Proc.attempt, Proc.solo_call written]
    rfl
  exact ⟨_, Proc.solo_attempt_error (send_refused "failed to upload artifact" "artifact upload failed" handled)⟩

def uploadRows (settings : Settings) (task : Task) (results : List ArtifactResult) : List ArtifactFlags :=
  (results.filter fun result => result.existsFlag &&
    !namesDirectory (artifactDest settings task.jobRunId task.nodeRunId result.path)).map fun result =>
      ⟨result.path, true, true⟩

theorem upload_solo (held : Held ext token task s) (small : task.nodeRunId < 2 ^ 63) (artifact : ArtifactResult) :
    ∃ s', (AgentWorker.upload token task.nodeRunId artifact).solo (AgentOp.faultless ext settings host) s =
        some ((), s') ∧ Leaves task.nodeRunId s s' [] (uploadRows settings task [artifact]) := by
  unfold AgentWorker.upload
  split
  · rename_i there
    have read : AgentOp.faultless ext settings host (.readFile artifact.resolvedPath) s =
        some (.ok (host.contents artifact.resolvedPath), s) := rfl
    rw [Proc.solo_call read]
    cases isFile : namesDirectory (artifactDest settings task.jobRunId task.nodeRunId artifact.path) with
    | false =>
      obtain ⟨last, uploaded, leaves⟩ := uploadArtifact_solo ext settings host held small
        (host.contents artifact.resolvedPath) isFile
      refine ⟨last, Proc.solo_bind (Proc.solo_attempt uploaded), ?_⟩
      simpa [uploadRows, there, isFile] using leaves
    | true =>
      obtain ⟨error, refused⟩ := uploadArtifact_refused ext settings host held small
        (host.contents artifact.resolvedPath) isFile
      refine ⟨s, Proc.solo_bind refused, ?_⟩
      simpa [uploadRows, isFile] using Leaves.nothing s
  · rename_i missing
    refine ⟨s, rfl, ?_⟩
    simpa [uploadRows, missing] using Leaves.nothing s

theorem uploadAll_solo (held : Held ext token task s) (small : task.nodeRunId < 2 ^ 63) (results : List ArtifactResult) :
    ∃ s', (AgentWorker.uploadAll token task.nodeRunId results).solo (AgentOp.faultless ext settings host) s =
        some ((), s') ∧ Leaves task.nodeRunId s s' [] (uploadRows settings task results) := by
  induction results generalizing s with
  | nil => exact ⟨s, rfl, .nothing s⟩
  | cons artifact rest ih =>
    obtain ⟨middle, uploaded, leaves⟩ := upload_solo ext settings host held small artifact
    obtain ⟨last, others, left⟩ := ih (held.after leaves)
    refine ⟨last, ?_, ?_⟩
    · rw [AgentWorker.uploadAll, Proc.solo_bind uploaded]
      exact others
    · have all := leaves.trans left
      rwa [uploadRows, uploadRows, ← List.map_append, ← List.filter_append, List.singleton_append] at all

theorem recordArtifacts_solo (present : Present runId id s) (reports : List ArtifactReport) :
    ∃ s', (recordArtifacts runId id reports).solo (Op.faultless ext host) s = some ((), s') ∧
      Leaves id s s' [] (reports.map fun report => ⟨report.path, report.required, report.existsFlag⟩) := by
  induction reports generalizing s with
  | nil => exact ⟨s, rfl, .nothing s⟩
  | cons report rest ih =>
    obtain ⟨middle, inserted, leaves⟩ := artifact_solo ext host ApiError present
      ⟨runId, id, report.path, report.resolvedPath, report.required, report.existsFlag, report.sizeBytes⟩ rfl rfl
    obtain ⟨last, recorded, left⟩ := ih (present.after leaves)
    refine ⟨last, ?_, leaves.trans left⟩
    rw [recordArtifacts, Proc.solo_bind inserted]
    exact recorded

theorem validStatus_text {status : NodeStatus} (reported : status.reported = true) :
    validStatus status.text = some status := by
  cases status <;> first | rfl | cases reported

def ReportResultRequest.rows (payload : ReportResultRequest) : List ArtifactFlags :=
  (payload.artifacts.getD []).map fun report => ⟨report.path, report.required, report.existsFlag⟩

theorem reportResult_solo (held : Held ext token task s) (payload : ReportResultRequest)
    (named : payload.nodeRunId = task.nodeRunId) {status : NodeStatus} (valid : validStatus payload.status = some status) :
    ∃ s', (AgentClient.reportResult token payload).solo (AgentOp.faultless ext settings host) s = some ((), s') ∧
      Reported task.nodeRunId s s' (status, payload.exitCode, payload.failureReason) [] payload.rows := by
  obtain ⟨agentId, authenticates, node, found, -, assigned⟩ := held.node
  have assignment : (Select.assignedAgent task.nodeRunId).answers s.db = [some (some agentId)] := by
    rw [Select.answers, found, Option.map_some, assigned]
  obtain ⟨finished, ended, updated, eventful, reported, there⟩ := ending_solo ext host ApiError held.present status
    payload.exitCode payload.failureReason
  obtain ⟨last, recorded, leaves⟩ := recordArtifacts_solo ext host there (payload.artifacts.getD [])
  have handled : (handle ext settings (.reportResult (bearerAuth token) payload)).solo (Op.faultless ext host) s =
      some (ok .empty, last) := by
    have authorized : ¬(some (some agentId)).join ≠ some agentId := not_not_intro rfl
    show (reportResult ext _ _).solo _ s = _
    rw [reportResult, Proc.solo_bind (authenticate_solo ext host authenticates), named,
      Proc.solo_bind (fetched assignment), if_neg authorized, valid]
    dsimp only
    rw [Proc.solo_bind (nodeJobRun_solo ext host held _), Proc.solo_bind updated, Proc.solo_bind eventful,
      Proc.solo_bind recorded]
    rfl
  refine ⟨last, ?_, reported.before leaves⟩
  rw [AgentClient.reportResult, Proc.solo_bind (send_solo _ _ handled)]
  rfl

theorem resultReport_rows (nodeRunId : Nat) (outcome : NodeExecutionOutcome) (results : List ArtifactResult) :
    (AgentWorker.resultReport nodeRunId outcome results).rows = results.map artifactFlags := by
  unfold AgentWorker.resultReport ReportResultRequest.rows
  dsimp only
  split
  · rename_i empty
    subst empty
    rfl
  · rw [Option.getD_some, List.map_map]
    rfl

theorem agentCheckOutputs_solo (workingDir : String) (outputs : List ResolvedNodeOutput) (s : State) :
    (AgentWorker.checkOutputs workingDir outputs).solo (AgentOp.faultless ext settings host) s =
      some (host.check workingDir outputs, s) := by
  induction outputs with
  | nil => rfl
  | cons output rest ih =>
    have ran : AgentOp.faultless ext settings host (.metadata (resolveOutputPath workingDir output)) s =
        some (host.size (resolveOutputPath workingDir output), s) := rfl
    rw [AgentWorker.checkOutputs, Proc.solo_call ran, Proc.solo_bind ih]
    rfl

theorem agentCheckAfter_solo (task : TaskInfo) (s : State) :
    (AgentWorker.checkAfter host.result.outcome task).solo (AgentOp.faultless ext settings host) s =
      some (host.checked task.workingDir task.outputs, s) := by
  unfold AgentWorker.checkAfter Host.checked
  split
  · exact agentCheckOutputs_solo ext settings host task.workingDir task.outputs s
  · rfl

theorem executeTask_solo (complaint : String → String) (held : Held ext token task s) (small : task.nodeRunId < 2 ^ 63)
    (decodes : (ext.decodeStrings task.argsJson).isSome = true) (outputs : List ResolvedNodeOutput) :
    ∃ there, (AgentWorker.executeTask ext complaint token (task.info outputs)).solo
        (AgentOp.faultless ext settings host) s = some ((), there) ∧
      Reported task.nodeRunId s there (host.ending (host.checked task.workingDir outputs))
        (numbered (s.db.logged task.jobRunId) (outcomeLogs host.result.outcome))
        (uploadRows settings task (host.checked task.workingDir outputs) ++
          (host.checked task.workingDir outputs).map artifactFlags) := by
  obtain ⟨args, decoded⟩ := Option.isSome_iff_exists.mp decodes
  obtain ⟨logged, sent, logs⟩ := sendLogs_solo ext settings host held (outcomeLogs host.result.outcome)
    (outcomeLogs_known _)
  obtain ⟨stored, uploaded, uploads⟩ := uploadAll_solo ext settings host (held.after logs) small
    (host.checked task.workingDir outputs)
  obtain ⟨there, ended, reported⟩ := reportResult_solo ext settings host ((held.after logs).after uploads)
    (AgentWorker.resultReport task.nodeRunId host.result.outcome (host.checked task.workingDir outputs)) rfl
    (validStatus_text (enforceOutputs_reported host.result.outcome_reported _))
  refine ⟨there, ?_, ?_⟩
  · have decoding : (AgentWorker.decodeArgs ext complaint task.argsJson).solo (AgentOp.faultless ext settings host) s =
        some (args, s) := by
      rw [AgentWorker.decodeArgs, decoded]
      rfl
    have ran : (AgentWorker.runProcess (AgentWorker.node (task.info outputs) args (decodeEnv ext task.envJson))).solo
        (AgentOp.faultless ext settings host) s = some (host.result.outcome, s) := rfl
    unfold AgentWorker.executeTask
    rw [show (task.info outputs).argsJson = task.argsJson from rfl, Proc.solo_bind decoding,
      show (task.info outputs).envJson = task.envJson from rfl, Proc.solo_bind ran,
      show (task.info outputs).nodeRunId = task.nodeRunId from rfl, Proc.solo_bind sent,
      Proc.solo_bind (agentCheckAfter_solo ext settings host (task.info outputs) logged)]
    show Proc.solo _ (AgentWorker.uploadAll token task.nodeRunId (host.checked task.workingDir outputs) >>= _) logged = _
    rw [Proc.solo_bind uploaded]
    exact ended
  · rw [resultReport_rows] at reported
    have all := (reported.after uploads).after logs
    simp only [List.nil_append, List.append_nil] at all
    exact all

end

/-! ## Agreement -/

/-- Among other rows, each of these stands in its place; the others are about outputs that exist. -/
structure Covered (rows others : List ArtifactFlags) : Prop where
  each : rows.Sublist others
  missing : (others.filter fun row => !row.existsFlag) = rows.filter fun row => !row.existsFlag
  existing : ∀ row ∈ others, row.existsFlag = true → ∃ declared ∈ rows, declared.existsFlag = true ∧ declared.path = row.path

theorem covered_uploads (settings : Settings) (task : Task) (results : List ArtifactResult) :
    Covered (results.map artifactFlags) (uploadRows settings task results ++ results.map artifactFlags) where
  each := List.sublist_append_right _ _
  missing := by
    have uploads : ((uploadRows settings task results).filter fun row => !row.existsFlag) = [] := by
      refine List.filter_eq_nil_iff.mpr fun row member => ?_
      obtain ⟨result, -, rfl⟩ := List.mem_map.mp member
      exact Bool.false_ne_true
    rw [List.filter_append, uploads, List.nil_append]
  existing row member exist := by
    rcases List.mem_append.mp member with upload | declared
    · obtain ⟨result, inside, rfl⟩ := List.mem_map.mp upload
      obtain ⟨member, there⟩ := List.mem_filter.mp inside
      exact ⟨artifactFlags result, List.mem_map_of_mem member, (Bool.and_eq_true_iff.mp there).1, rfl⟩
    · exact ⟨row, declared, exist, rfl⟩

theorem Covered.same {rows others : List ArtifactFlags} (covered : Covered rows others)
    (missing : ∀ row ∈ rows, row.existsFlag = false) : others = rows := by
  have absent : ∀ row ∈ others, row.existsFlag = false := by
    intro row member
    cases there : row.existsFlag with
    | false => rfl
    | true =>
      obtain ⟨declared, inside, exist, -⟩ := covered.existing row member there
      rw [missing declared inside] at exist
      cases exist
  have all := covered.missing
  rwa [List.filter_eq_self.mpr fun row member => by rw [absent row member]; rfl,
    List.filter_eq_self.mpr fun row member => by rw [missing row member]; rfl] at all

/-- Executed by the local worker or by an agent, a node ends in the same way
with the same log, and the agent leaves the artifact rows of the local worker. -/
theorem local_remote_agree (ext : External) (settings : Settings) (host : Host) (complaint : String → String)
    {token : String} {task : Task} {s : State} (held : Held ext token task s) (small : task.nodeRunId < 2 ^ 63)
    (decodes : (ext.decodeStrings task.argsJson).isSome = true) :
    ∃ here there,
      (executeLocalTask ext settings task).solo (Op.faultless ext host) s = some ((), here) ∧
      (AgentWorker.executeTask ext complaint token (task.info (declaredOutputs ext s.files task))).solo
        (AgentOp.faultless ext settings host) s = some ((), there) ∧
      (here.db.nodeResult task.nodeRunId).isSome = true ∧
      here.db.nodeResult task.nodeRunId = there.db.nodeResult task.nodeRunId ∧
      here.db.nodeLogs task.nodeRunId = there.db.nodeLogs task.nodeRunId ∧
      ∃ rows others,
        rows = (host.checked task.workingDir (declaredOutputs ext s.files task)).map artifactFlags ∧
        here.db.nodeArtifacts task.nodeRunId = s.db.nodeArtifacts task.nodeRunId ++ rows ∧
        there.db.nodeArtifacts task.nodeRunId = s.db.nodeArtifacts task.nodeRunId ++ others ∧
        Covered rows others ∧ ((∀ row ∈ rows, row.existsFlag = false) → others = rows) := by
  obtain ⟨here, executed, ending⟩ := executeLocalTask_solo ext settings host task held.present rfl
  obtain ⟨there, sent, reported⟩ := executeTask_solo ext settings host complaint held small decodes
    (declaredOutputs ext s.files task)
  have covered := covered_uploads settings task (host.checked task.workingDir (declaredOutputs ext s.files task))
  refine ⟨here, there, executed, sent, ?_, ?_, ?_, _, _, rfl, ending.artifacts, reported.artifacts, covered, covered.same⟩
  · rw [ending.result]
    rfl
  · rw [ending.result, reported.result]
  · rw [ending.logs, reported.logs]

/-- Both executions leave the same result, the same log and the same artifact
rows, one for each declared output. -/
def Agree (ext : External) (settings : Settings) (host : Host) (complaint : String → String) (token : String)
    (task : Task) (s : State) : Prop :=
  ∀ here there, (executeLocalTask ext settings task).solo (Op.faultless ext host) s = some ((), here) →
    (AgentWorker.executeTask ext complaint token (task.info (declaredOutputs ext s.files task))).solo
      (AgentOp.faultless ext settings host) s = some ((), there) →
    here.db.nodeResult task.nodeRunId = there.db.nodeResult task.nodeRunId ∧
    here.db.nodeLogs task.nodeRunId = there.db.nodeLogs task.nodeRunId ∧
    here.db.nodeArtifacts task.nodeRunId = there.db.nodeArtifacts task.nodeRunId ∧
    here.db.nodeArtifacts task.nodeRunId = s.db.nodeArtifacts task.nodeRunId ++
      (host.check task.workingDir (declaredOutputs ext s.files task)).map artifactFlags

section
open Sample

theorem collect_held : Held collecting token collectTask collectState where
  run := rfl
  node := ⟨agentId, by decide +kernel, _, rfl, rfl, rfl⟩

/-- The process exits with a code, and every file exists or none. -/
def exitHost (code : Int) (there : Bool) : Host where
  result := exited code
  size _ := if there then some 3 else none
  contents _ := "abc"

theorem local_remote_agree_missing : ∃ here there,
    (executeLocalTask collecting settings collectTask).solo (Op.faultless collecting (exitHost 0 false)) collectState =
      some ((), here) ∧
    (AgentWorker.executeTask collecting complaint token (collectTask.info [⟨"out.txt", false⟩])).solo
      (AgentOp.faultless collecting settings (exitHost 0 false)) collectState = some ((), there) ∧
    here.db.nodeResult 1 = there.db.nodeResult 1 ∧ here.db.nodeLogs 1 = there.db.nodeLogs 1 ∧
    here.db.nodeArtifacts 1 = [⟨"out.txt", false, false⟩] ∧ there.db.nodeArtifacts 1 = [⟨"out.txt", false, false⟩] := by
  have declared : declaredOutputs collecting collectState.files collectTask = [⟨"out.txt", false⟩] := by decide +kernel
  obtain ⟨here, there, executed, sent, -, results, logs, rows, others, is, ours, theirs, -, same⟩ :=
    local_remote_agree collecting settings (exitHost 0 false) complaint collect_held (by decide) (by decide +kernel)
  rw [declared] at sent is
  have rows : rows = [⟨"out.txt", false, false⟩] := is.trans (by decide +kernel)
  subst rows
  rw [same (by decide)] at theirs
  exact ⟨here, there, executed, sent, results, logs, ours, theirs⟩

/-- A failed process leaves no row for its declared output, and an uploaded output leaves two. -/
theorem local_remote_disagree :
    ¬Agree collecting settings (exitHost 1 true) complaint token collectTask collectState ∧
    ¬Agree collecting settings (exitHost 0 true) complaint token collectTask collectState := by
  have declared : declaredOutputs collecting collectState.files collectTask = [⟨"out.txt", false⟩] := by decide +kernel
  have fails : ∀ host : Host, ∀ here there,
      (executeLocalTask collecting settings collectTask).solo (Op.faultless collecting host) collectState =
        some ((), here) →
      (AgentWorker.executeTask collecting complaint token (collectTask.info [⟨"out.txt", false⟩])).solo
        (AgentOp.faultless collecting settings host) collectState = some ((), there) →
      (here.db.nodeArtifacts 1 ≠ there.db.nodeArtifacts 1 ∨
        here.db.nodeArtifacts 1 ≠ (host.check "/tmp" [⟨"out.txt", false⟩]).map artifactFlags) →
      ¬Agree collecting settings host complaint token collectTask collectState := by
    rintro host here there executed sent differ agree
    unfold Agree at agree
    rw [declared] at agree
    obtain ⟨-, -, same, each⟩ := agree here there executed sent
    exact differ.elim (fun no => no same) fun no => no each
  constructor
  · obtain ⟨here, executed, ending⟩ := executeLocalTask_solo collecting settings (exitHost 1 true) collectTask
      collect_held.present declared
    obtain ⟨there, sent, -⟩ := executeTask_solo collecting settings (exitHost 1 true) complaint collect_held (by decide)
      (by decide +kernel) [⟨"out.txt", false⟩]
    refine fails _ here there executed sent (.inr ?_)
    have rows := ending.artifacts
    intro each
    exact absurd (rows.symm.trans each) (by decide +kernel)
  · obtain ⟨here, executed, ending⟩ := executeLocalTask_solo collecting settings (exitHost 0 true) collectTask
      collect_held.present declared
    obtain ⟨there, sent, reported⟩ := executeTask_solo collecting settings (exitHost 0 true) complaint collect_held (by decide)
      (by decide +kernel) [⟨"out.txt", false⟩]
    refine fails _ here there executed sent (.inl ?_)
    intro same
    exact absurd (ending.artifacts.symm.trans (same.trans reported.artifacts)) (by decide +kernel)

end

end PostJen.Server
