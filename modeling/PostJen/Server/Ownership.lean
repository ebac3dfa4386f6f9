import PostJen.Server.Containment
import PostJen.Server.Rules

/-! What a request of an agent may touch.

A request of the agent API runs under the identity of the agent whose token it
carries. Some handlers compare that identity with the node's agent before their
first effect and some discard it.
-/

set_option autoImplicit false

open PostJen.Foundations PostJen.Core

namespace PostJen.Server

/-! ## Requests under an identity -/

def Request.headers : Request → Headers
  | .pollTask headers | .reportResult headers _ | .reportLogs headers _ | .heartbeat headers
  | .uploadArtifact headers _ => headers
  | _ => ⟨none⟩

section
variable (ext : External) (settings : Settings)

def Request.authenticated (request : Request) (agentId : String) : Proc Sig ApiError Answer :=
  match handle ext settings request with
  | .call (.select (.agentByToken _)) rest => rest (.ok (some agentId))
  | program => program

def Answer.complete : Answer → Proc Sig ApiError Answer
  | .picked task outputs => answerTask task outputs
  | .response reply => .done (.response reply)

/-- The whole request, under the identity of an agent. -/
def Request.serve (request : Request) (agentId : String) : Proc Sig ApiError Answer :=
  request.authenticated ext settings agentId >>= Answer.complete

end

def Request.names : Request → Option Nat
  | .reportResult _ payload => some payload.nodeRunId
  | .reportLogs _ payload => some payload.nodeRunId
  | .uploadArtifact _ parts => (readParts parts {}).toOption.bind (·.nodeRunId)
  | _ => none

/-! ## Ownership -/

def Db.Owned (db : Db) (agentId : String) (id : Nat) : Prop :=
  ∃ node, db.nodeRuns.find id = some node ∧ node.assignedAgentId = some agentId

def Request.Foreign (request : Request) (db : Db) (agentId : String) : Prop :=
  ∃ id node, request.names = some id ∧ db.nodeRuns.find id = some node ∧ node.assignedAgentId ≠ some agentId

/-- A stored file lies in the directory of a node run of the agent. -/
def Db.OwnedFile (db : Db) (settings : Settings) (agentId dest : String) : Prop :=
  ∃ id node, db.nodeRuns.find id = some node ∧ node.assignedAgentId = some agentId ∧
    (artifactDir settings node.jobRunId id).Inside (location dest)

/-- All that changed or was added belongs to node runs of the agent. -/
structure Belongs (settings : Settings) (agentId : String) (before after : State) : Prop where
  nodes : ∀ id, after.db.nodeRuns.find id ≠ before.db.nodeRuns.find id → before.db.Owned agentId id
  logs : ∀ key row, after.db.runLogs.find key = some row → before.db.runLogs.find key ≠ some row →
    ∃ id, row.nodeRunId = some id ∧ before.db.Owned agentId id
  artifacts : ∀ key row, after.db.runArtifacts.find key = some row →
    before.db.runArtifacts.find key ≠ some row → before.db.Owned agentId row.nodeRunId
  events : ∀ key row, after.db.runEvents.find key = some row → before.db.runEvents.find key ≠ some row →
    ∃ id, row.nodeRunId = some id ∧ before.db.Owned agentId id
  files : ∀ dest, after.stored dest ≠ before.stored dest → before.db.OwnedFile settings agentId dest

theorem Belongs.refl (settings : Settings) (agentId : String) (s : State) : Belongs settings agentId s s where
  nodes := fun _ changed => absurd rfl changed
  logs := fun _ _ found absent => absurd found absent
  artifacts := fun _ _ found absent => absurd found absent
  events := fun _ _ found absent => absurd found absent
  files := fun _ changed => absurd rfl changed

/-- What the handlers leave to the client. -/
def Request.Spares (settings : Settings) (agentId : String) (s : State) : Request → Prop
  | .reportLogs _ payload => ∀ node, s.db.nodeRuns.find payload.nodeRunId = some node →
      node.assignedAgentId = some agentId ∨
        ∃ stream content rest, payload.logs = (stream, content) :: rest ∧ stream ∉ ["stdout", "stderr", "system"]
  | .uploadArtifact _ parts => ∀ id path file node, readParts parts {} = .ok ⟨some id, some path, some file⟩ →
      s.db.nodeRuns.find id = some node → namesDirectory (artifactDest settings node.jobRunId id path) = true ∨
        node.assignedAgentId = some agentId ∧
          (s.db.OwnedFile settings agentId (artifactDest settings node.jobRunId id path) ∨
            s.stored (artifactDest settings node.jobRunId id path) = some file)
  | _ => True

/-! ## Requests executed alone -/

abbrev alone (ext : External) : Discipline Sig State := serving ext Eq fun _ _ _ => True

def Op.silent : Op → Bool
  | .write _ | .transact _ | .copyFile _ _ | .writeFile _ _ => false
  | _ => true

variable {ext : External} {settings : Settings} {agentId : String}

theorem exec_silent {op : Op} {reply : op.Reply} {before after : State} (silent : op.silent = true)
    (ran : op.exec ext before reply after) : after = before := by
  obtain ⟨choice, ran⟩ := ran
  cases op with
  | write _ | transact _ | copyFile _ _ | writeFile _ _ => cases silent
  | select query => exact (exec_select ⟨choice, ran⟩).1
  | readFile path =>
    cases choice with
    | answer _ =>
      simp only [Op.run] at ran
      split at ran <;> cases ran <;> rfl
    | fail _ =>
      cases ran
      rfl
    | _ => cases ran
  | order keys =>
    cases choice with
    | answer _ =>
      obtain ⟨keys, -, same⟩ := Option.map_eq_some_iff.mp ran
      cases same
      rfl
    | _ => cases ran
  | random count =>
    cases choice with
    | bytes _ =>
      simp only [Op.run] at ran
      split at ran <;> cases ran
      rfl
    | _ => cases ran
  | _ => cases choice <;> cases ran <;> rfl

def Op.about (mine : Nat → Prop) : Op → Prop
  | .write (.updateNode id _) => mine id
  | .write (.event event) => ∃ id, event.nodeRunId = some id ∧ mine id
  | .write (.log log) => mine log.nodeRunId
  | .write (.artifact artifact) => mine artifact.nodeRunId
  | .write (.agents _) => True
  | op => op.silent = true

theorem find_insert_new {V : Type} {table : Serial V} {new row : V} {key : Nat}
    (found : (table.insert new).find key = some row) (absent : table.find key ≠ some row) : row = new := by
  rw [Serial.find_insert] at found
  split at found
  · exact (Option.some.inj found).symm
  · exact absurd found absent

variable {s t t' : State}

theorem Belongs.write {write : Write} {result : Nat} {db : Db} (belongs : Belongs settings agentId s t)
    (about : Op.about (s.db.Owned agentId) (.write write)) (applied : write.apply t.now t.db = .ok (result, db)) :
    Belongs settings agentId s { t with db } := by
  cases write with
  | updateNode id change =>
    cases applied
    refine ⟨fun other changed => ?_, belongs.logs, belongs.artifacts, belongs.events, belongs.files⟩
    by_cases same : other = id
    · exact same ▸ about
    · rw [Serial.find_updateAt_ne _ _ same] at changed
      exact belongs.nodes other changed
  | event event =>
    simp only [Write.apply] at applied
    split at applied <;> cases applied
    refine ⟨belongs.nodes, belongs.logs, belongs.artifacts, fun key row found absent => ?_, belongs.files⟩
    -- a row that is new since the start of the handler is old here, or is the one inserted now
    by_cases old : t.db.runEvents.find key = some row
    · exact belongs.events key row old absent
    · rw [find_insert_new found old]
      exact about
  | log log =>
    simp only [Write.apply] at applied
    split at applied
    · cases applied
    · split at applied <;> cases applied
      refine ⟨belongs.nodes, fun key row found absent => ?_, belongs.artifacts, belongs.events, belongs.files⟩
      by_cases old : t.db.runLogs.find key = some row
      · exact belongs.logs key row old absent
      · rw [find_insert_new found old]
        exact ⟨log.nodeRunId, rfl, about⟩
  | artifact artifact =>
    simp only [Write.apply] at applied
    split at applied <;> cases applied
    refine ⟨belongs.nodes, belongs.logs, fun key row found absent => ?_, belongs.events, belongs.files⟩
    by_cases old : t.db.runArtifacts.find key = some row
    · exact belongs.artifacts key row old absent
    · rw [find_insert_new found old]
      exact about
  | agents change =>
    simp only [Write.apply] at applied
    split at applied <;> cases applied
    exact ⟨belongs.nodes, belongs.logs, belongs.artifacts, belongs.events, belongs.files⟩
  | _ => cases about

theorem Belongs.step {op : Op} {reply : op.Reply} (belongs : Belongs settings agentId s t)
    (about : op.about (s.db.Owned agentId)) (ran : op.exec ext t reply t') : Belongs settings agentId s t' := by
  cases op with
  | write write =>
    rcases exec_write ran with ⟨-, rfl⟩ | ⟨result, db, applied, -, rfl⟩
    · exact belongs
    · exact belongs.write about applied
  | transact _ | copyFile _ _ | writeFile _ _ => cases about
  | _ =>
    rw [exec_silent rfl ran]
    exact belongs

section
variable {E A : Type}

theorem Belongs.within {ends : A → Prop} {program : Proc Sig E A} (belongs : Belongs settings agentId s t)
    (within : program.Within (Op.about (s.db.Owned agentId)) ends) :
    program.Holds (alone ext) (fun _ t => Belongs settings agentId s t) (fun _ t => Belongs settings agentId s t) t :=
  (within.holds (fun _ _ same kept => same ▸ kept)
    (fun _ _ _ _ about kept ran => ⟨trivial, kept.step about ran⟩) belongs).mono (fun _ _ holds => holds.2)
    fun _ _ holds => holds

end

/-! ## The handlers -/

def Kept (settings : Settings) (request : Request) (agentId : String) (s : State) (stopped : Prop) (t : State) : Prop :=
  Belongs settings agentId s t ∧ (request.Foreign s.db agentId → stopped ∧ t = s)

section
variable {stopped : Prop} {request : Request}

end

theorem Belongs.store {dest file : String}
    (owned : s.db.OwnedFile settings agentId dest ∨ s.stored dest = some file) :
    Belongs settings agentId s { s with stored := Function.update s.stored dest (some file) } := by
  refine ⟨fun _ changed => absurd rfl changed, fun _ _ found absent => absurd found absent,
    fun _ _ found absent => absurd found absent, fun _ _ found absent => absurd found absent, fun other changed => ?_⟩
  by_cases same : other = dest
  · subst same
    rcases owned with owned | same
    · exact owned
    · exact absurd ((Function.update_self other (some file) s.stored).trans same.symm) changed
  · exact absurd (Function.update_of_ne same (some file) s.stored) changed

theorem Sample.assigned : ∃ c node, (system Sample.ext Sample.settings).Reaches everything Sample.initial c ∧
    some Sample.agentId ∈ (Select.agentByToken (Sample.ext.sha256Hex Sample.token)).answers c.state.db ∧
    c.state.db.nodeRuns.find 1 = some node ∧ node.assignedAgentId = some Sample.agentId := by
  have passed : (Sample.run (fun _ _ => true) Sample.remoteQueued).any (fun c =>
      decide (some Sample.agentId ∈ (Select.agentByToken (Sample.ext.sha256Hex Sample.token)).answers c.state.db) &&
        (c.state.db.nodeRuns.find 1).any fun node => node.assignedAgentId = some Sample.agentId) = true := by
    decide +kernel
  obtain ⟨history, c, run, holds⟩ := Sample.arrives_freely passed
  rw [Bool.and_eq_true, decide_eq_true_iff] at holds
  obtain ⟨node, found, assigned⟩ := (Option.any_eq_true _ _).mp holds.2
  exact ⟨c, node, run.reaches, holds.1, found, of_decide_eq_true assigned⟩

end PostJen.Server
