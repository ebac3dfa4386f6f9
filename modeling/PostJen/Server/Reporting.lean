import PostJen.Server.Agreement
import PostJen.Server.Heartbeats
import PostJen.Server.Network

/-! What the code of an agent and of `report_result` has still to do.

An agent that was given a task comes to a report on it whatever it meets, and
the handler of the report comes to the UPDATE of the row unless it refuses. It
does not refuse the report of the agent whose row it is.
-/

set_option autoImplicit false

open PostJen.Foundations PostJen.Core

namespace PostJen.Server

def AgentOp.reportsOn (id : Nat) : (op : AgentOp) → op.Reply → Prop
  | .request (.reportResult _ payload), _ => payload.nodeRunId = id
  | _, _ => False

/-- Whatever it is answered, the agent comes to a report on the row. -/
def Reports (id : Nat) (code : Proc AgentSig Empty Unit) : Prop :=
  code.Until (AgentOp.reportsOn id) (fun _ => False) fun why => why.elim

def Op.finishes (id : Nat) : (op : Op) → op.Reply → Prop
  | .write (.updateNode other (.finish _ _ _)), .ok _ => other = id
  | _, _ => False

/-- The handler comes to the UPDATE at the end of the row, or refuses the request. -/
def Writes (id : Nat) (code : Proc Sig Empty Point) : Prop :=
  code.Until (Op.finishes id) (fun point => ∃ why, point = .responded (.error why)) fun why => why.elim

def Db.RunsFor (db : Db) (id : Nat) (agentId : String) : Prop :=
  ∃ node, db.nodeRuns.find id = some node ∧ node.status = .running ∧ node.assignedAgentId = some agentId

structure Db.RunsOn (db : Db) (id : Nat) (agentId : String) (agent : Agent) : Prop where
  row : db.RunsFor id agentId
  remote : agentId ≠ localAgentId
  found : db.agents.find agentId = some agent
  online : agent.status = .online

def Op.mistakes (agentId hash : String) : (op : Op) → op.Reply → Prop
  | .select (.agentByToken other), .ok (some found) => other = hash ∧ found ≠ agentId
  | _, _ => False

namespace Reporting

variable {ext : External} {settings : Settings} {complaint : String → String} {token : String} {id : Nat}

/-! ## The code of an agent -/

/-- An agent polls and reports with its token, and what it is given it will report on. -/
def Sound (token : String) : (op : AgentOp) → (op.Reply → Proc AgentSig Empty Unit) → Prop
  | .request (.pollTask headers), rest => headers = bearerAuth token ∧
      ∀ status task outputs, Reports task.nodeRunId (rest (.ok (.ok ⟨status, .task task outputs⟩)))
  | .request (.reportResult headers payload), _ =>
      headers = bearerAuth token ∧ (validStatus payload.status).isSome = true
  | _, _ => True

def Fair (token : String) : AgentOp → Prop
  | .request (.pollTask _) => False
  | .request (.reportResult headers payload) => headers = bearerAuth token ∧ (validStatus payload.status).isSome = true
  | _ => True

theorem sound_of_fair {op : AgentOp} (fair : Fair token op) (rest : op.Reply → Proc AgentSig Empty Unit) :
    Sound token op rest := by
  cases op with
  | request request => cases request <;> first | exact fair | exact fair.elim
  | _ => trivial

section
variable {A : Type}

theorem fair_send {request : Request} (fair : Fair token (.request request)) (disconnected refused : String) :
    (send request disconnected refused).Within (Fair token) fun _ => True := by
  refine ⟨fair, fun reply => ?_⟩
  cases reply with
  | error why => trivial
  | ok response => cases response <;> trivial

theorem fair_reportResult {payload : ReportResultRequest} (valid : (validStatus payload.status).isSome = true) :
    (AgentClient.reportResult token payload).Within (Fair token) fun _ => True := by
  have fair : Fair token (.request (.reportResult (bearerAuth token) payload)) := ⟨rfl, valid⟩
  exact (fair_send fair _ _).bind fun _ _ => trivial

theorem fair_upload (nodeRunId : Nat) (artifact : ArtifactResult) :
    (AgentWorker.upload token nodeRunId artifact).Within (Fair token) fun _ => True := by
  unfold AgentWorker.upload
  split
  · refine ⟨trivial, fun reply => ?_⟩
    cases reply with
    | error why => trivial
    | ok fileData =>
      have fair : Fair token (.request (.uploadArtifact (bearerAuth token)
        (AgentClient.artifactForm nodeRunId artifact.path fileData))) := trivial
      have sends : (AgentClient.uploadArtifact token nodeRunId artifact.path fileData).Within (Fair token) fun _ => True :=
        (fair_send fair _ _).bind fun _ _ => trivial
      exact sends.attempt.bind fun _ _ => trivial
  · trivial

theorem fair_uploadAll (nodeRunId : Nat) (artifacts : List ArtifactResult) :
    (AgentWorker.uploadAll token nodeRunId artifacts).Within (Fair token) fun _ => True := by
  induction artifacts with
  | nil => trivial
  | cons artifact rest ih => exact (fair_upload nodeRunId artifact).bind fun _ _ => ih

theorem fair_sendLogs (nodeRunId : Nat) (logs : List (String × String)) :
    (AgentWorker.sendLogs token nodeRunId logs).Within (Fair token) fun _ => True := by
  unfold AgentWorker.sendLogs
  split
  · trivial
  · have fair : Fair token (.request (.reportLogs (bearerAuth token) ⟨nodeRunId, logs⟩)) := trivial
    exact (fair_send fair _ _).bind fun _ _ => trivial

theorem fair_checkOutputs (workingDir : String) (outputs : List ResolvedNodeOutput) :
    (AgentWorker.checkOutputs workingDir outputs).Within (Fair token) fun _ => True := by
  induction outputs with
  | nil => trivial
  | cons output rest ih => exact ⟨trivial, fun size => ih.bind fun _ _ => trivial⟩

theorem fair_checkAfter (outcome : NodeExecutionOutcome) (task : TaskInfo) :
    (AgentWorker.checkAfter outcome task).Within (Fair token) fun _ => True := by
  unfold AgentWorker.checkAfter
  split
  · exact fair_checkOutputs _ _
  · trivial

theorem fair_executeTask (task : TaskInfo) :
    (AgentWorker.executeTask ext complaint token task).Within (Fair token) fun _ => True := by
  unfold AgentWorker.executeTask AgentWorker.decodeArgs
  cases ext.decodeStrings task.argsJson with
  | none => trivial
  | some args =>
    refine ⟨trivial, fun result => (fair_sendLogs _ _).bind fun _ _ => (fair_checkAfter _ _).bind fun results _ =>
      (fair_uploadAll _ _).bind fun _ _ => fair_reportResult ?_⟩
    rw [AgentWorker.resultReport, validStatus_text (enforceOutputs_reported result.outcome_reported _)]
    rfl

end

theorem until_executeTask (task : TaskInfo) :
    (AgentWorker.executeTask ext complaint token task).Until (AgentOp.reportsOn task.nodeRunId) (fun _ => False)
      fun _ => True := by
  have stops : ∀ why : AnyError, True := fun _ => trivial
  unfold AgentWorker.executeTask
  refine (Proc.until_true _ stops).bind fun args _ => (Proc.until_true _ stops).bind fun outcome _ => ?_
  refine (Proc.until_true _ stops).bind fun _ _ => (Proc.until_true _ stops).bind fun results _ => ?_
  exact (Proc.until_true _ stops).bind fun _ _ => fun reply => .inl rfl

def work (ext : External) (complaint : String → String) (token : String) (task : TaskInfo) : Proc AgentSig Empty Unit := do
  match ← (AgentWorker.executeTask ext complaint token task).attempt with
  | .ok _ => return ()
  | .error why =>
      let _ ← (AgentClient.reportResult token (AgentWorker.failureReport task why)).attempt
      return ()

theorem reports_work (task : TaskInfo) : Reports task.nodeRunId (work ext complaint token task) := by
  have outcome : ((AgentWorker.executeTask ext complaint token task).attempt : Proc AgentSig Empty _).Until
      (AgentOp.reportsOn task.nodeRunId) (fun outcome => ∃ why, outcome = .error why) fun why => why.elim :=
    ((until_executeTask task).mono (fun _ never => never.elim) fun why _ => ⟨why, rfl⟩).attempt
  refine outcome.bind ?_
  rintro _ ⟨why, rfl⟩
  exact fun reply => .inl rfl

theorem fair_work (task : TaskInfo) : (work ext complaint token task).Within (Fair token) fun _ => True := by
  refine (fair_executeTask task).attempt.bind fun outcome _ => ?_
  cases outcome with
  | ok _ => trivial
  | error why => exact (fair_reportResult rfl).attempt.bind fun _ _ => trivial

theorem pollOnce_sound (ext : External) (complaint : String → String) (token : String) :
    (AgentWorker.pollOnce ext complaint token).Each (fun _ _ => True) (Sound token) := by
  refine ⟨⟨rfl, fun status task outputs => reports_work (task.info outputs)⟩, fun reply _ => ?_⟩
  cases reply with
  | error why => trivial
  | ok answer =>
    cases answer with
    | error why => trivial
    | ok response =>
      obtain ⟨status, body⟩ := response
      cases body with
      | task task outputs => exact (fair_work (task.info outputs)).each fun op rest fair => sound_of_fair fair rest
      | _ => trivial

/-! ## The handler of a report -/

/-- The handler of a report by the agent whose row it is, on a row that runs: nothing outside the server fails, the
token is not taken for another agent's, and the UPDATE has not taken effect yet. -/
def landing (ext : External) (id : Nat) (agentId hash : String) : Discipline Sig State where
  exec op before reply after := op.unfailing ext before reply after ∧
    (∃ agent, before.db.RunsOn id agentId agent ∧ agent.tokenHash = hash) ∧
    ¬op.mistakes agentId hash reply ∧ ¬op.finishes id reply
  rely _ _ := True
  guarantee _ _ _ := True

theorem holds_landing {headers : Headers} {payload : ReportResultRequest} {agentId : String} (s : State)
    (named : bearer headers = some token) (valid : (validStatus payload.status).isSome = true) :
    (block ext settings (.received (.reportResult headers payload))).Holds
      (landing ext payload.nodeRunId agentId (ext.sha256Hex token)) (fun _ _ => False) (fun why _ => why.elim) s := by
  refine holds_respond ?_
  show (reportResult ext headers payload).Holds _ _ _ s
  unfold reportResult authenticateAgent
  rw [named]
  rintro before - reply after ⟨ran, ⟨agent, runs, same⟩, right, -⟩
  refine ⟨trivial, ?_⟩
  obtain ⟨rfl, found, member, rfl⟩ := Parity.unfailing_select ran (Batches.anyOne_ne_nil _)
  cases found with
  | none => exact Heartbeats.none_agentByToken member agentId agent runs.found same runs.online
  | some other =>
    obtain rfl : other = agentId := by
      by_contra differs
      exact right ⟨rfl, differs⟩
    -- from here on the agent is known; its row still runs when the handler asks for it
    clear runs agent same right ran member
    rintro before - reply after ⟨ran, ⟨agent, runs, -⟩, -, -⟩
    refine ⟨trivial, ?_⟩
    obtain ⟨rfl, assigned, member, rfl⟩ := Parity.unfailing_select ran (List.cons_ne_nil _ _)
    obtain ⟨node, here, -, mine⟩ := runs.row
    have assigned : assigned = some (some other) := by
      rw [List.mem_singleton.mp member, here, Option.map_some, mine]
    subst assigned
    obtain ⟨status, known⟩ := Option.isSome_iff_exists.mp valid
    rw [known]
    dsimp only [orHalt, Proc.bind]
    rw [if_neg fun different => different rfl]
    rintro before - reply after ⟨ran, ⟨agent, runs, -⟩, -, -⟩
    refine ⟨trivial, ?_⟩
    obtain ⟨rfl, run, member, rfl⟩ := Parity.unfailing_select ran (List.cons_ne_nil _ _)
    obtain ⟨node, here, -, -⟩ := runs.row
    have run : run = some node.jobRunId := by
      rw [List.mem_singleton.mp member, here, Option.map_some]
    subst run
    rintro before - reply after ⟨ran, -, -, ahead⟩
    refine ⟨trivial, ?_⟩
    obtain ⟨rfl, -⟩ := Parity.unfailing_write ran rfl
    exact absurd rfl ahead

end Reporting

end PostJen.Server
