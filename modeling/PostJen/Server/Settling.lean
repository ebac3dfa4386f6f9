import PostJen.Server.Rules
import PostJen.Server.Sample

/-! How a local task ends.

The worker records the logs and the artifacts of a node before it writes the
node's status. An error of one of these statements ends the task at once, and
nothing but a line in the server's log is left of it.
-/

set_option autoImplicit false

open PostJen.Foundations PostJen.Core

namespace PostJen.Server

/-! ## Executions of a task -/

def Op.records : Op → Bool
  | .select (.maxSequence _) | .write (.log _) | .write (.artifact _) => true
  | _ => false

def Op.refuses : (op : Op) → op.Reply → Bool
  | .select _, .error _ | .write _, .error _ | .transact _, .error _ => true
  | _, _ => false

def Op.updatesNode : Op → Bool
  | .write (.updateNode _ _) => true
  | _ => false

def Op.amid (ext : External) (nodeRunId : Nat) (op : Op) (before : State) (reply : op.Reply) (after : State) : Prop :=
  ∃ middle, middle.db.nodeRuns.find nodeRunId = before.db.nodeRuns.find nodeRunId ∧ op.exec ext middle reply after

/-- An execution that notes whether a recording statement was refused; updates of a node are accepted. -/
def noting (ext : External) (nodeRunId : Nat) (op : Op) (before : State × Bool) (reply : op.Reply)
    (after : State × Bool) : Prop :=
  op.amid ext nodeRunId before.1 reply after.1 ∧ after.2 = (before.2 || op.records && op.refuses reply) ∧
    (op.updatesNode && op.refuses reply) = false

def Db.nodeIs (db : Db) (nodeRunId : Nat) (kind : NodeStatus → Bool) : Prop :=
  ∃ node, db.nodeRuns.find nodeRunId = some node ∧ kind node.status = true

/-- A picked task is running, and its row is settled when it has ended unless a recording statement was refused. -/
structure LocalSettles (ext : External) (settings : Settings) : Prop where
  picks : ∀ task s s', (pickLocalTask.attempt (F := Empty)).Returns (fun op : Op => op.amid ext task.nodeRunId) s
    (.ok (some task)) s' → s'.db.nodeIs task.nodeRunId (· = .running)
  settles : ∀ task s outcome s' refused, s.db.nodeIs task.nodeRunId (· = .running) →
    ((executeLocalTask ext settings task).attempt (F := Empty)).Returns (noting ext task.nodeRunId) (s, false) outcome
      (s', refused) →
    (s'.db.nodeIs task.nodeRunId NodeStatus.terminal ↔ refused = false)

namespace Settling

variable {ext : External} {settings : Settings} {id : Nat} {s s' : State} {A : Type}
  {post : A → State × Bool → Prop} {failed : AnyError → State × Bool → Prop}

def discipline (ext : External) (id : Nat) : Discipline Sig (State × Bool) where
  exec op := noting ext id op
  rely before after := after = before
  guarantee _ _ _ := True

def Going (id : Nat) (now : State × Bool) : Prop := now.1.db.nodeIs id (· = .running) ∧ now.2 = false

def Stuck (id : Nat) (now : State × Bool) : Prop := now.1.db.nodeIs id (· = .running) ∧ now.2 = true

def Settled (id : Nat) (now : State × Bool) : Prop := now.1.db.nodeIs id NodeStatus.terminal ∧ now.2 = false

theorem amid_nodeIs {op : Op} {reply : op.Reply} {kind : NodeStatus → Bool} (quiet : Quiet op)
    (inserts : ∀ node, op ≠ .write (.insertNode node)) (ran : op.amid ext id s reply s') (here : s.db.nodeIs id kind) :
    s'.db.nodeIs id kind := by
  obtain ⟨middle, same, ran⟩ := ran
  obtain ⟨node, found, is⟩ := here
  refine ⟨node, ?_, is⟩
  rw [← found, ← same]
  rcases exec_nodeRuns ran with unchanged | ⟨other, change, impossible, -⟩ | ⟨new, impossible, -⟩
  · rw [unchanged]
  · exact absurd impossible (quiet other change)
  · exact absurd impossible (inserts new)

theorem holds_plain {op : Op} {rest : op.Reply → Proc Sig AnyError A} {kind : NodeStatus → Bool} {refused : Bool}
    (quiet : Quiet op) (inserts : ∀ node, op ≠ .write (.insertNode node)) (plain : op.records = false)
    (here : s.db.nodeIs id kind)
    (next : ∀ reply s', s'.db.nodeIs id kind → (rest reply).Holds (discipline ext id) post failed (s', refused)) :
    (Proc.call op rest).Holds (discipline ext id) post failed (s, refused) := by
  rintro _ rfl reply ⟨s', noted⟩ ⟨ran, same, -⟩
  refine ⟨trivial, ?_⟩
  rw [plain, Bool.false_and, Bool.or_false] at same
  cases same
  exact next reply s' (amid_nodeIs quiet inserts ran here)

theorem holds_record {write : Write} {next : Unit → Proc Sig AnyError A} (quiet : Quiet (.write write))
    (inserts : ∀ node, write ≠ .insertNode node) (records : (Op.write write).records = true)
    (here : s.db.nodeIs id (· = .running))
    (stops : ∀ why now, Stuck id now → failed why now)
    (continues : ∀ s', s'.db.nodeIs id (· = .running) → (next ()).Holds (discipline ext id) post failed (s', false)) :
    (run write >>= next).Holds (discipline ext id) post failed (s, false) := by
  rintro _ rfl reply ⟨s', noted⟩ ⟨ran, same, -⟩
  refine ⟨trivial, ?_⟩
  have kept : s'.db.nodeIs id (· = .running) :=
    amid_nodeIs quiet (fun node equal => inserts node (Op.write.inj equal)) ran here
  rw [records, Bool.false_or, Bool.true_and] at same
  cases same
  cases reply with
  | error why => exact stops _ _ ⟨kept, rfl⟩
  | ok affected => exact continues s' kept

theorem quiet_log (new : NewLog) : Quiet (.write (.log new)) := fun _ _ same => by cases same

theorem quiet_artifact (new : NewArtifact) : Quiet (.write (.artifact new)) := fun _ _ same => by cases same

theorem holds_recordLogs (runId nodeRunId last : Nat) (logs : List (String × String)) (here : s.db.nodeIs id (· = .running)) :
    (recordLogs runId nodeRunId last logs : Proc Sig AnyError Unit).Holds (discipline ext id) (fun _ => Going id)
      (fun _ => Stuck id) (s, false) := by
  induction logs generalizing s last with
  | nil => exact ⟨here, rfl⟩
  | cons entry rest ih =>
    exact holds_record (quiet_log _) (fun _ same => by cases same) rfl here (fun _ _ stuck => stuck)
      fun s' there => ih (last + 1) there

theorem holds_checkAfter (outcome : NodeExecutionOutcome) (workingDir : String) (outputs : List ResolvedNodeOutput)
    (here : s.db.nodeIs id (· = .running)) :
    (checkAfter outcome workingDir outputs : Proc Sig AnyError (List ArtifactResult)).Holds (discipline ext id)
      (fun _ => Going id) (fun _ => Stuck id) (s, false) := by
  unfold checkAfter
  split
  · induction outputs generalizing s with
    | nil => exact ⟨here, rfl⟩
    | cons output rest ih =>
      refine holds_plain (quiet_read rfl) (fun _ same => by cases same) rfl here fun size s' there => ?_
      exact (Proc.holds_bind _ _ _).mpr ((ih there).mono (fun _ _ going => going) fun _ _ stuck => stuck)
  · exact ⟨here, rfl⟩

theorem holds_recordLocalArtifacts (task : Task) (results : List ArtifactResult) (here : s.db.nodeIs id (· = .running)) :
    (recordLocalArtifacts settings task results).Holds (discipline ext id) (fun _ => Going id) (fun _ => Stuck id)
      (s, false) := by
  induction results generalizing s with
  | nil => exact ⟨here, rfl⟩
  | cons artifact rest ih =>
    have inserting : ∀ s : State, s.db.nodeIs id (· = .running) →
        (run (.artifact (newArtifact task.jobRunId task.nodeRunId artifact)) >>= fun _ =>
          recordLocalArtifacts settings task rest).Holds (discipline ext id) (fun _ => Going id) (fun _ => Stuck id)
          (s, false) := fun s here =>
      holds_record (quiet_artifact _) (fun _ same => by cases same) rfl here (fun _ _ stuck => stuck) fun s' => ih
    unfold recordLocalArtifacts storeLocally
    split
    · exact holds_plain (quiet_read rfl) (fun _ same => by cases same) rfl here fun _ s' there => inserting s' there
    · exact inserting s here

theorem holds_finish (runId : Nat) {status : NodeStatus} (reported : status.reported = true) (exitCode : Option Int)
    (failureReason : Option String) (here : s.db.nodeIs id (· = .running)) :
    (run (.updateNode id (.finish status exitCode failureReason)) >>= fun _ =>
      insertNodeEvent runId id .running status failureReason : Proc Sig AnyError Unit).Holds (discipline ext id)
      (fun _ => Settled id) (fun _ => Settled id) (s, false) := by
  rintro _ rfl reply ⟨s', noted⟩ ⟨⟨middle, same, ran⟩, kept, accepted⟩
  refine ⟨trivial, ?_⟩
  cases kept
  cases reply with
  | error why => cases accepted
  | ok affected =>
    obtain ⟨node, found, -⟩ := here
    have settled : s'.db.nodeIs id NodeStatus.terminal := by
      rcases exec_updateNode ran with ⟨⟨why, impossible⟩, -⟩ | ⟨-, updated⟩
      · cases impossible
      · refine ⟨_, by rw [updated, Serial.find_updateAt_self, same, found]; rfl, ?_⟩
        exact NodeStatus.terminal_of_reported reported
    rintro _ rfl reply ⟨last, noted⟩ ⟨ran, kept, -⟩
    refine ⟨trivial, ?_⟩
    cases kept
    have still : last.db.nodeIs id NodeStatus.terminal :=
      amid_nodeIs (quiet_event _) (fun _ same => by cases same) ran settled
    cases reply with
    | error why => exact ⟨still, rfl⟩
    | ok id => exact ⟨still, rfl⟩

theorem holds_loadOutputs (task : Task) (here : s.db.nodeIs id (· = .running)) :
    (loadOutputs task : Proc Sig AnyError (List ResolvedNodeOutput)).Holds (discipline ext id) (fun _ => Going id)
      (fun _ => Stuck id) (s, false) := by
  refine holds_plain (quiet_read rfl) (fun _ same => by cases same) rfl here fun definition s there => ?_
  cases definition with
  | error why => exact ⟨there, rfl⟩
  | ok definition => exact ⟨there, rfl⟩

theorem holds_runProcess (node : ResolvedNodeDefinition) (here : s.db.nodeIs id (· = .running)) :
    (runProcess node : Proc Sig AnyError NodeExecutionOutcome).Holds (discipline ext id)
      (fun outcome now => Going id now ∧ outcome.status.reported = true) (fun _ => Stuck id) (s, false) :=
  holds_plain (quiet_read rfl) (fun _ same => by cases same) rfl here fun result _ there =>
    ⟨⟨there, rfl⟩, result.outcome_reported⟩

theorem holds_maxSequence (runId : Nat) (here : s.db.nodeIs id (· = .running)) :
    (fetch (.maxSequence runId) : Proc Sig AnyError Nat).Holds (discipline ext id) (fun _ => Going id)
      (fun _ => Stuck id) (s, false) := by
  rintro _ rfl reply ⟨s', noted⟩ ⟨ran, same, -⟩
  refine ⟨trivial, ?_⟩
  have kept : s'.db.nodeIs id (· = .running) :=
    amid_nodeIs (quiet_read rfl) (fun _ same => by cases same) ran here
  cases same
  cases reply with
  | error why => exact ⟨kept, rfl⟩
  | ok last => exact ⟨kept, rfl⟩

theorem Going.andThen {B : Type} {program : Proc Sig AnyError A} {next : A → Proc Sig AnyError B} {fact : A → Prop}
    {last : B → State × Bool → Prop}
    (first : program.Holds (discipline ext id) (fun value now => Going id now ∧ fact value) (fun _ => Stuck id) (s, false))
    (rest : ∀ value s, s.db.nodeIs id (· = .running) → fact value →
      (next value).Holds (discipline ext id) last (fun _ now => Stuck id now ∨ Settled id now) (s, false)) :
    (program >>= next).Holds (discipline ext id) last (fun _ now => Stuck id now ∨ Settled id now) (s, false) := by
  refine (Proc.holds_bind _ _ _).mpr (first.mono ?_ fun _ _ => .inl)
  rintro value ⟨s, noted⟩ ⟨⟨there, kept⟩, known⟩
  cases kept
  exact rest value s there known

theorem Going.then {B : Type} {program : Proc Sig AnyError A} {next : A → Proc Sig AnyError B}
    {last : B → State × Bool → Prop}
    (first : program.Holds (discipline ext id) (fun _ => Going id) (fun _ => Stuck id) (s, false))
    (rest : ∀ value s, s.db.nodeIs id (· = .running) →
      (next value).Holds (discipline ext id) last (fun _ now => Stuck id now ∨ Settled id now) (s, false)) :
    (program >>= next).Holds (discipline ext id) last (fun _ now => Stuck id now ∨ Settled id now) (s, false) :=
  Going.andThen (first.mono (fun _ _ going => ⟨going, trivial⟩) fun _ _ stuck => stuck) fun value s there _ =>
    rest value s there

theorem holds_executeLocalTask (task : Task) (here : s.db.nodeIs task.nodeRunId (· = .running)) :
    (executeLocalTask ext settings task).Holds (discipline ext task.nodeRunId) (fun _ => Settled task.nodeRunId)
      (fun _ now => Stuck task.nodeRunId now ∨ Settled task.nodeRunId now) (s, false) := by
  refine Going.then (holds_loadOutputs task here) fun outputs s here => ?_
  refine Going.andThen (holds_runProcess _ here) fun outcome s here reported => ?_
  refine Going.then (holds_maxSequence _ here) fun last s here => ?_
  refine Going.then (holds_recordLogs _ _ _ _ here) fun _ s here => ?_
  refine Going.then (holds_checkAfter _ _ _ here) fun results s here => ?_
  refine Going.then (holds_recordLocalArtifacts _ _ here) fun _ s here => ?_
  exact (holds_finish _ (enforceOutputs_reported reported results) _ _ here).mono (fun _ _ settled => settled)
    fun _ _ => .inr

theorem picked_running (task : Task) (s s' : State)
    (picked : (pickLocalTask.attempt (F := Empty)).Returns (fun op : Op => op.amid ext task.nodeRunId) s
      (.ok (some task)) s') : s'.db.nodeIs task.nodeRunId (· = .running) := by
  obtain ⟨reply, selected, ⟨middle, -, ran⟩, rest⟩ := picked
  obtain ⟨rfl, ⟨why, rfl⟩ | ⟨found, member, rfl⟩⟩ := exec_select ran
  · cases rest.1
  cases found with
  | none => cases rest.1
  | some found =>
    obtain ⟨reply, updated, ⟨before, same, ran⟩, rest⟩ := rest
    rcases exec_updateNode ran with ⟨⟨why, rfl⟩, -⟩ | ⟨rfl, rows⟩
    · cases rest.1
    obtain ⟨reply, recorded, event, rest⟩ := rest
    cases reply with
    | error why => cases rest.1
    | ok eventId =>
      obtain ⟨returned, rfl⟩ := rest
      cases returned
      obtain ⟨node, inside, queued, -⟩ := mem_queuedTask member
      have running : updated.db.nodeIs task.nodeRunId (· = .running) := by
        refine ⟨_, by rw [rows, Serial.find_updateAt_self, same, inside]; rfl, ?_⟩
        simp [NodeChange.apply, queued]
      exact amid_nodeIs (quiet_event _) (fun _ equal => by cases equal) event running

end Settling

section
variable (ext : External) (settings : Settings)

theorem local_settles : LocalSettles ext settings where
  picks := Settling.picked_running
  settles := by
    intro task s outcome s' refused running returned
    obtain ⟨ended, stopped⟩ := (Settling.holds_executeLocalTask task running).returns (fun _ => rfl) returned
    have reached : Settling.Stuck task.nodeRunId (s', refused) ∨ Settling.Settled task.nodeRunId (s', refused) := by
      cases outcome with
      | ok value => exact .inr (ended value rfl)
      | error why => exact stopped why rfl
    rcases reached with ⟨⟨node, found, runs⟩, noted⟩ | ⟨settled, noted⟩
    · cases noted
      constructor
      · rintro ⟨same, again, terminal⟩
        cases found.symm.trans again
        rw [of_decide_eq_true runs] at terminal
        cases terminal
      · rintro ⟨⟩
    · exact ⟨fun _ => noted, fun _ => settled⟩

end

theorem Settling.interrupted {ext : External} {settings : Settings} (task : Task) (s : State) :
    ((executeLocalTask ext settings task).attempt (F := Empty)).Returns (noting ext task.nodeRunId) (s, false)
      (.error (FromSql.fromSql (.failed "disk I/O error"))) (s, true) := by
  have load : noting ext task.nodeRunId (.load task.definitionPath) (s, false)
      (loadDefinition ext s.files task.definitionPath) (s, false) := ⟨⟨s, rfl, .answer 0, rfl⟩, rfl, rfl⟩
  have process : ∀ node, noting ext task.nodeRunId (.process node) (s, false) ⟨.exited (some 0), "", ""⟩ (s, false) :=
    fun _ => ⟨⟨s, rfl, .child _, rfl⟩, rfl, rfl⟩
  have query : noting ext task.nodeRunId (.select (.maxSequence task.jobRunId)) (s, false)
      (.error (.failed "disk I/O error")) (s, true) := ⟨⟨s, rfl, .fail _, rfl⟩, rfl, rfl⟩
  refine ⟨_, _, load, ?_⟩
  cases loadDefinition ext s.files task.definitionPath with
  | error why => exact ⟨_, _, process _, _, _, query, rfl, rfl⟩
  | ok definition => exact ⟨_, _, process _, _, _, query, rfl, rfl⟩

/-- The row of a picked task stays running. -/
theorem local_strands : ¬∀ ext settings files clock c task picked outcome s' refused,
    (system ext settings).Reaches everything (Config.initial ext settings files clock) c →
    (pickLocalTask.attempt (F := Empty)).Returns (fun op : Op => op.amid ext task.nodeRunId) c.state
      (.ok (some task)) picked →
    ((executeLocalTask ext settings task).attempt (F := Empty)).Returns (noting ext task.nodeRunId) (picked, false)
      outcome (s', refused) → s'.db.nodeIs task.nodeRunId NodeStatus.terminal := by
  intro claim
  have passed : (Sample.run (fun _ _ => true) Sample.forkQueued).any (fun c =>
      (pickLocalTask.play (fun op : Op => op.run Sample.ext) (List.replicate 3 (.answer 0)) c.state).any fun ended =>
        ended.1.toOption.any Option.isSome) = true := by
    decide +kernel
  obtain ⟨c, followed, passed⟩ := (Option.any_eq_true _ _).mp passed
  obtain ⟨⟨ended, picked⟩, played, some⟩ := (Option.any_eq_true _ _).mp passed
  rcases ended with why | ⟨- | task⟩
  · cases some
  · cases some
  · have returned : (pickLocalTask.attempt (F := Empty)).Returns (fun op : Op => op.amid Sample.ext task.nodeRunId)
        c.state (.ok (.some task)) picked :=
      Proc.returns_mono (fun _ before _ _ ran => ⟨before, rfl, ran⟩) (Proc.play_returns played)
    obtain ⟨node, found, terminal⟩ := claim _ _ _ _ c task picked _ picked true (Sample.reached_freely followed)
      returned (Settling.interrupted task picked)
    obtain ⟨other, again, running⟩ := Settling.picked_running task c.state picked returned
    cases found.symm.trans again
    rw [of_decide_eq_true running] at terminal
    cases terminal

end PostJen.Server
