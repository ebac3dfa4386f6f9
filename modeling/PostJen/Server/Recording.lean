import PostJen.Foundations.Ledger
import PostJen.Server.Plans
import PostJen.Server.Driving

/-! The events that a task owes.

Every status UPDATE is followed by the INSERT of the event that names the change,
in a statement of its own; between the two the task owes the event. Only
`poll_task` passes a control point in between.
-/

set_option autoImplicit false

open PostJen.Foundations PostJen.Core

namespace PostJen.Server

inductive Subject where
  | job (runId : Nat)
  | node (nodeRunId : Nat)
  deriving DecidableEq

/-- The `from_status` and the `to_status` of an event. -/
abbrev Transition := Option String × Option String

def NewEvent.subject (event : NewEvent) : Option Subject :=
  match event.scope with
  | .job => some (.job event.jobRunId)
  | .node => event.nodeRunId.map .node

def NewEvent.transition (event : NewEvent) : Transition := (event.fromStatus, event.toStatus)

def NewEvent.owed (event : NewEvent) : Option (Subject × Transition) :=
  event.subject.map fun subject => (subject, event.transition)

def NodeStatus.leads (fromStatus toStatus : NodeStatus) : Transition := (some fromStatus.text, some toStatus.text)

def JobStatus.leads (fromStatus toStatus : JobStatus) : Transition := (some fromStatus.text, some toStatus.text)

/-- What a task owes at a control point. -/
def Point.owes : Point → Option (Subject × Transition)
  | .picked task _ => some (.node task.nodeRunId, NodeStatus.leads .queued .running)
  | _ => none

def owes : Proc Sig Empty Point → Option (Subject × Transition)
  | .call (.write (.event event)) _ => event.owed
  | .done point => point.owes
  | _ => none

/-- The change that a task records after an UPDATE of a node run. -/
def NodeChange.records : NodeChange → Option Transition
  | .assign _ => none
  | .skip _ => some (NodeStatus.leads .pending .skipped)
  | .status toStatus _ _ _ => some (NodeStatus.leads .pending toStatus)
  | .start | .startQueued => some (NodeStatus.leads .queued .running)
  | .finish reported _ _ => some (NodeStatus.leads .running reported)
  | .lost => some (NodeStatus.leads .running .failed)

def JobChange.records (read : Option JobStatus) : JobChange → Option Transition
  | .running fromStatus => some (JobStatus.leads fromStatus .running)
  | .finished toStatus _ => some (read.map (·.text), some toStatus.text)
  | .failBeforeStart _ => some (JobStatus.leads .queued .failed)
  | _ => none

/-- A task remembers the status it has read last and the event that it owes. -/
structure Note where
  read : Option JobStatus
  owed : Option (Subject × Transition)

def recording : Protocol Sig Note where
  permits
    | note, .write (.event event) => note.owed = event.owed
    | note, .write (.updateJob _ change) => note.owed = none ∧ ∃ fromStatus toStatus,
        change.records note.read = some (JobStatus.leads fromStatus toStatus)
    | note, _ => note.owed = none
  advance
    | .select (.jobStatus _), .ok status, _ => ⟨some status, none⟩
    | .write (.updateNode id change), .ok _, _ => ⟨none, change.records.map fun t => (.node id, t)⟩
    | .write (.updateJob id change), .ok _, note =>
        ⟨none, (change.records note.read).map fun t => (.job id, t)⟩
    | _, _, _ => ⟨none, none⟩

def recorder : Plan Note := ⟨recording, fun point note => note.owed = point.owes⟩

/-! ## Statements -/

def Op.plain : Op → Prop
  | .write (.event _) | .write (.updateJob _ _) => False
  | .write (.updateNode _ change) => change.records = none
  | _ => True

theorem plain_reads (op : Op) (reads : op.reads = true) : op.plain := by
  cases op with
  | write write => cases reads
  | _ => trivial

theorem plain_kept {op : Op} {note : Note} (plain : op.plain) (clear : note.owed = none) (reply : op.Reply) :
    recording.permits note op ∧ (recording.advance op reply note).owed = none := by
  cases op with
  | write write =>
    cases write with
    | event _ => cases plain
    | updateJob _ _ => cases plain
    | updateNode id change =>
      refine ⟨clear, ?_⟩
      have nothing : change.records = none := plain
      cases reply with
      | error why => rfl
      | ok _ =>
        show change.records.map _ = none
        rw [nothing]
        rfl
    | _ => exact ⟨clear, rfl⟩
  | select query =>
    refine ⟨clear, ?_⟩
    cases query with
    | jobStatus runId => cases reply <;> rfl
    | _ => rfl
  | _ => exact ⟨clear, rfl⟩

section
variable {E A : Type} {note : Note}

abbrev Settles (program : Proc Sig E A) (ends : A → Prop) (note : Note) : Prop :=
  program.Holds recording.discipline (fun value note => ends value ∧ note.owed = none)
    (fun _ note => note.owed = none) note

theorem settles_plain {program : Proc Sig E A} {ends : A → Prop} (within : program.Within Op.plain ends)
    (clear : note.owed = none) : Settles program ends note :=
  within.holds (recording.stable fun note => note.owed = none)
    (fun _ _ reply _ plain clear advanced => advanced ▸ plain_kept plain clear reply) clear

theorem settles_bind {B : Type} {program : Proc Sig E B} {next : B → Proc Sig E A} {middle : B → Prop} {ends : A → Prop}
    (first : Settles program middle note)
    (rest : ∀ value note, middle value → note.owed = none → Settles (next value) ends note) :
    Settles (program >>= next) ends note :=
  (Proc.holds_bind _ _ _).mpr (first.mono (fun value note there => rest value note there.1 there.2) fun _ _ clear => clear)

variable [FromSql E]

theorem settles_event (event : NewEvent) (owing : note.owed = event.owed) :
    Settles (run (.event event) : Proc Sig E Unit) (fun _ => True) note := by
  refine Protocol.holds_call.mpr fun reply => ⟨owing, ?_⟩
  cases reply with
  | ok _ => exact ⟨trivial, rfl⟩
  | error why => rfl

theorem owes_node {id : Nat} {change : NodeChange} (clear : note.owed = none) :
    (run (.updateNode id change) : Proc Sig E Unit).Holds recording.discipline
      (fun _ note => note.owed = change.records.map fun t => (Subject.node id, t))
      (fun _ note => note.owed = none) note := by
  refine Protocol.holds_call.mpr fun reply => ⟨clear, ?_⟩
  cases reply <;> rfl

theorem settles_node {runId id : Nat} {change : NodeChange} {fromStatus toStatus : NodeStatus} {message : Option String}
    (names : change.records = some (NodeStatus.leads fromStatus toStatus)) (clear : note.owed = none) :
    Settles (run (.updateNode id change) >>= fun _ => insertNodeEvent runId id fromStatus toStatus message :
      Proc Sig E Unit) (fun _ => True) note :=
  (Proc.holds_bind _ _ _).mpr ((owes_node clear).mono
    (fun _ _ owing => settles_event _ (owing.trans (congrArg (Option.map _) names))) fun _ _ clear => clear)

theorem settles_node_then {runId id : Nat} {change : NodeChange} {fromStatus toStatus : NodeStatus}
    {message : Option String} {next : Unit → Proc Sig E A} {ends : A → Prop}
    (names : change.records = some (NodeStatus.leads fromStatus toStatus)) (clear : note.owed = none)
    (rest : ∀ note, note.owed = none → Settles (next ()) ends note) :
    Settles (run (.updateNode id change) >>= fun _ =>
      insertNodeEvent runId id fromStatus toStatus message >>= next) ends note :=
  (Proc.holds_bind _ _ _).mpr ((owes_node clear).mono
    (fun _ _ owing => settles_bind (settles_event _ (owing.trans (congrArg (Option.map _) names)))
      fun _ note _ clear => rest note clear) fun _ _ clear => clear)

theorem settles_job {runId : Nat} {change : JobChange} {fromStatus toStatus : JobStatus} {message : Option String}
    (names : change.records note.read = some (JobStatus.leads fromStatus toStatus)) (clear : note.owed = none) :
    Settles (run (.updateJob runId change) >>= fun _ => insertJobEvent runId fromStatus toStatus message :
      Proc Sig E Unit) (fun _ => True) note := by
  refine Protocol.holds_call.mpr fun reply => ⟨⟨clear, _, _, names⟩, ?_⟩
  cases reply with
  | ok _ => exact settles_event ⟨_, _, _, _, _, _⟩ (congrArg (Option.map _) names)
  | error why => rfl

end

/-! ## The scheduler -/

section
variable {note : Note}

theorem settles_failRunBeforeStart (runId : Nat) (reason : String) (clear : note.owed = none) :
    Settles (failRunBeforeStart runId reason) (fun _ => True) note :=
  settles_job rfl clear

theorem settles_prepareRun (ext : External) (settings : Settings) (queued : QueuedRun) (clear : note.owed = none) :
    Settles (prepareRun ext settings queued) (fun _ => True) note := by
  refine settles_bind (settles_plain (within_loadForRun plain_reads queued) clear) fun definition note _ clear => ?_
  refine settles_bind (settles_plain (within_fetch plain_reads _ rfl) clear) fun paramsJson note _ clear => ?_
  refine settles_bind (settles_plain (within_withSecrets (fun _ => trivial) ext settings _) clear) fun nodes note _ clear => ?_
  refine settles_bind (settles_plain (within_ensureNodes ext queued.id (fun _ _ => trivial) nodes _) clear)
    fun nodeIds note _ clear => ?_
  exact settles_bind (settles_job rfl clear) fun _ note _ clear => ⟨trivial, clear⟩

theorem settles_markNodeSkipped (x : Execution) (node : ResolvedNodeDefinition) (reason : String)
    (clear : note.owed = none) : Settles (x.markNodeSkipped node reason) (fun _ => True) note :=
  settles_bind (settles_plain (x.within_nodeRunId _) clear) fun _ _ _ clear =>
    settles_node_then rfl clear fun _ clear => ⟨trivial, clear⟩

theorem settles_startNode (ext : External) (x : Execution) (newlyQueued : List (String × Nat))
    (node : ResolvedNodeDefinition) (clear : note.owed = none) :
    Settles (x.startNode ext newlyQueued node) (fun _ => True) note := by
  refine settles_bind (settles_plain (x.within_nodeRunId _) clear) fun id note _ clear => ?_
  refine settles_bind (settles_plain (within_assignToAgent plain_reads ext id node fun _ => rfl) clear)
    fun assigned note _ clear => ?_
  cases assigned
  · exact settles_bind (settles_node rfl clear) fun _ _ _ clear => ⟨trivial, clear⟩
  · exact settles_bind (settles_node rfl clear) fun _ _ _ clear => ⟨trivial, clear⟩

theorem settles_scheduleNode (ext : External) (x : Execution) (newlyQueued : List (String × Nat))
    (node : ResolvedNodeDefinition) (clear : note.owed = none) :
    Settles (x.scheduleNode ext newlyQueued node) (fun _ => True) note := by
  have skips : ∀ reason, Settles (x.markNodeSkipped node reason >>= fun x => pure (x, newlyQueued))
      (fun _ => True) note := fun reason =>
    settles_bind (settles_markNodeSkipped x node reason clear) fun _ _ _ clear => ⟨trivial, clear⟩
  unfold Execution.scheduleNode
  split
  · exact ⟨trivial, clear⟩
  · split
    · exact skips _
    · split
      · exact ⟨trivial, clear⟩
      · split
        · exact skips _
        · split
          · exact skips _
          · exact settles_startNode ext x newlyQueued node clear

theorem settles_finalizeJob (runId : Nat) {finalStatus : JobStatus} (terminal : finalStatus.terminal = true)
    (clear : note.owed = none) : Settles (finalizeJob runId finalStatus) (fun _ => True) note := by
  refine Protocol.holds_call.mpr fun reply => ⟨clear, ?_⟩
  cases reply with
  | error why => rfl
  | ok currentStatus =>
    refine settles_job ?_ rfl
    rw [transitionChange_terminal terminal]
    rfl

end

/-! ## The workers and the monitor -/

section
variable {note : Note}

theorem settles_pickLocalTask (clear : note.owed = none) : Settles pickLocalTask (fun _ => True) note := by
  refine settles_bind (settles_plain (within_fetch plain_reads _ rfl) clear) fun task note _ clear => ?_
  cases task with
  | none => exact ⟨trivial, clear⟩
  | some task => exact settles_node_then rfl clear fun _ clear => ⟨trivial, clear⟩

theorem settles_executeLocalTask (ext : External) (settings : Settings) (task : Task) (clear : note.owed = none) :
    Settles (executeLocalTask ext settings task) (fun _ => True) note := by
  refine settles_bind (settles_plain (within_loadOutputs plain_reads task) clear) fun outputs note _ clear => ?_
  have process : ∀ node, (runProcess node : Proc Sig AnyError _).Within Op.plain fun _ => True :=
    fun node => within_call plain_reads rfl fun _ => trivial
  refine settles_bind (settles_plain (process _) clear) fun outcome note _ clear => ?_
  refine settles_bind (settles_plain (within_fetch plain_reads _ rfl) clear) fun sequence note _ clear => ?_
  refine settles_bind (settles_plain (within_logs (fun _ => trivial) _ _ _ _) clear) fun _ note _ clear => ?_
  refine settles_bind (settles_plain (within_checkAfter plain_reads _ _ _) clear) fun results note _ clear => ?_
  refine settles_bind (settles_plain (within_recordLocalArtifacts plain_reads _ _ (fun _ => trivial) _) clear)
    fun _ note _ clear => ?_
  exact settles_node rfl clear

theorem settles_sweepNode (node : OfflineNodeRun) (clear : note.owed = none) :
    Settles (sweepNode node) (fun _ => True) note := settles_node rfl clear

/-! ## Requests -/

def Request.plain : Request → Bool
  | .pollTask _ | .reportResult _ _ => false
  | _ => true

theorem plain_makes {request : Request} (plain : request.plain = true) (write : Write)
    (made : (Point.received request).makes write = true) : Op.plain (.write write) := by
  cases write with
  | event _ => cases request <;> cases made
  | updateJob _ _ =>
    cases Point.makes_revises made with
    | fail _ _ _ driving => cases driving
  | updateNode _ _ => cases Point.makes_updates made <;> cases plain
  | _ => trivial

theorem settles_pollTask (ext : External) (headers : Headers) (clear : note.owed = none) :
    (pollTask ext headers).Holds recording.discipline (fun answer note => note.owed = answer.point.owes)
      (fun _ note => note.owed = none) note := by
  have bind {B : Type} {program : Proc Sig ApiError B} {next : B → Proc Sig ApiError Answer} {note : Note}
      (first : Settles program (fun _ => True) note)
      (rest : ∀ value note, note.owed = none → (next value).Holds recording.discipline
        (fun answer note => note.owed = answer.point.owes) (fun _ note => note.owed = none) note) :
      (program >>= next).Holds recording.discipline (fun answer note => note.owed = answer.point.owes)
        (fun _ note => note.owed = none) note :=
    (Proc.holds_bind _ _ _).mpr (first.mono (fun value note there => rest value note there.2) fun _ _ clear => clear)
  refine bind (settles_plain (within_authenticateAgent plain_reads ext headers) clear) fun agentId note clear => ?_
  refine bind (settles_plain (within_fetch plain_reads _ rfl) clear) fun _ note clear => ?_
  refine bind (settles_plain (within_fetch plain_reads _ rfl) clear) fun task note clear => ?_
  cases task with
  | none => exact clear
  | some task =>
    refine bind (settles_plain (within_loadOutputs plain_reads task) clear) fun outputs note clear => ?_
    exact (Proc.holds_bind _ _ _).mpr ((owes_node clear).mono (fun _ _ owing => owing) fun _ _ clear => clear)

theorem settles_reportResult (ext : External) (headers : Headers) (payload : ReportResultRequest)
    (clear : note.owed = none) :
    Settles (reportResult ext headers payload) (fun answer => answer.point.owes = none) note := by
  refine settles_bind (settles_plain (within_authenticateAgent plain_reads ext headers) clear)
    fun agentId note _ clear => ?_
  refine settles_bind (settles_plain (within_fetch plain_reads _ rfl) clear) fun assigned note _ clear => ?_
  split
  · exact clear
  · split
    · exact clear
    · refine settles_bind (settles_plain (within_nodeJobRun plain_reads _ _) clear) fun runId note _ clear => ?_
      refine settles_node_then rfl clear fun note clear => ?_
      exact settles_bind (settles_plain (within_recordArtifacts _ _ (fun _ => trivial) _) clear)
        fun _ _ _ clear => ⟨rfl, clear⟩

theorem settles_request (ext : External) (settings : Settings) (request : Request) (clear : note.owed = none) :
    (handle ext settings request).Holds recording.discipline (fun answer note => note.owed = answer.point.owes)
      (fun _ note => note.owed = none) note := by
  have plainly : ∀ request : Request, request.plain = true →
      (handle ext settings request).Holds recording.discipline (fun answer note => note.owed = answer.point.owes)
        (fun _ note => note.owed = none) note := by
    intro request plain
    refine (settles_plain (within_handler ext settings request plain_reads (plain_makes plain)
      (fun _ _ => trivial) ?_) clear).mono ?_ fun _ _ clear => clear
    · rintro headers payload rfl
      cases plain
    · rintro answer note ⟨⟨headers, rfl⟩ | plainly, clear⟩
      · cases plain
      · rw [clear]
        cases answer with
        | response _ => rfl
        | picked _ _ => cases plainly
  cases request with
  | pollTask headers => exact settles_pollTask ext headers clear
  | reportResult headers payload =>
    exact (settles_reportResult ext headers payload clear).mono (fun answer _ there => there.2.trans there.1.symm)
      fun _ _ clear => clear
  | _ => exact plainly _ rfl

end

/-! ## Blocks -/

variable {ext : External} {settings : Settings}

theorem recorder_recover {runId : Nat} {body : Proc Sig AnyError Point} {note : Note}
    (settles : Settles body (fun next => next.owes = none) note) :
    (recover runId body).Holds recording.discipline recorder.expects (fun why _ => why.elim) note :=
  holds_recover (fun note => note.owed = none)
    (fun _ reason clear => (settles_failRunBeforeStart runId reason clear).mono
      (fun _ _ there => there.2) fun _ _ clear => clear)
    (settles.mono (fun _ _ there => there.2.trans there.1.symm) fun _ _ clear => clear)

theorem recorder_otherwise {point : Point} {body : Proc Sig AnyError Point} {note : Note}
    (home : point.owes = none) (settles : Settles body (fun next => next.owes = none) note) :
    (otherwise point body).Holds recording.discipline recorder.expects (fun why _ => why.elim) note :=
  holds_otherwise (settles.mono (fun _ _ there => there.2.trans there.1.symm) fun _ _ clear => clear.trans home.symm)

theorem recorder_valid : recorder.Valid ext settings where
  begins slot point label entry := ⟨⟨none, none⟩, by cases entry <;> first | rfl | (cases slot <;> rfl)⟩
  blocks := by
    intro slot point note hosted expected
    have clear : point.owes = none → note.owed = none := fun nothing => expected.trans nothing
    -- every block leaves no debt, except that a poll hands its event on to the block that answers
    cases point with
    | schedulerTick =>
      refine recorder_otherwise rfl (settles_plain ((within_fetch plain_reads _ rfl).bind fun queued _ => ?_) (clear rfl))
      cases queued <;> rfl
    | executeRun queued =>
      exact recorder_recover (settles_bind (settles_prepareRun ext settings queued (clear rfl))
        fun _ _ _ clear => ⟨rfl, clear⟩)
    | scheduling x =>
      exact recorder_recover (settles_plain ((x.within_observeCancel plain_reads).bind fun _ _ => rfl) (clear rfl))
    | pass x newlyQueued todo =>
      cases todo with
      | nil =>
        have quiet : (block ext settings (.pass x newlyQueued [])).Within Op.plain fun next => next.owes = none := by
          unfold block
          dsimp only
          split <;> rfl
        exact (settles_plain quiet (clear rfl)).mono (fun _ _ there => there.2.trans there.1.symm) fun why => why.elim
      | cons node todo =>
        exact recorder_recover (settles_bind (settles_scheduleNode ext x newlyQueued node (clear rfl))
          fun _ _ _ clear => ⟨rfl, clear⟩)
    | waiting x => exact Protocol.holds_call.mpr fun reply => ⟨clear rfl, rfl⟩
    | polling x todo =>
      cases todo with
      | nil =>
        refine recorder_recover (settles_plain ((within_isCancelRequested plain_reads _).bind fun canceled _ => ?_)
          (clear rfl))
        cases canceled <;> rfl
      | cons nodeId todo =>
        refine recorder_recover (settles_plain ?_ (clear rfl))
        unfold pollPoint
        split
        · rfl
        · refine (Execution.within_pollNode plain_reads _).bind fun outcome _ => ?_
          cases outcome <;> rfl
    | finalizing x =>
      exact recorder_recover (settles_bind
        (settles_finalizeJob x.run.id (determineJobStatus_terminal _ _) (clear rfl)) fun _ _ _ clear => ⟨rfl, clear⟩)
    | workerTick =>
      refine recorder_otherwise rfl (settles_bind (settles_pickLocalTask (clear rfl)) fun task _ _ clear => ?_)
      cases task <;> exact ⟨rfl, clear⟩
    | localTask task =>
      exact recorder_otherwise rfl (settles_bind (settles_executeLocalTask ext settings task (clear rfl))
        fun _ _ _ clear => ⟨rfl, clear⟩)
    | monitorTick =>
      exact recorder_otherwise rfl (settles_plain
        ((within_checkAgentHeartbeats plain_reads trivial trivial).bind fun _ _ => rfl) (clear rfl))
    | sweep todo =>
      cases todo with
      | nil => exact expected
      | cons node todo =>
        exact recorder_otherwise rfl (settles_bind (settles_sweepNode node (clear rfl)) fun _ _ _ clear => ⟨rfl, clear⟩)
    | cronTick =>
      exact recorder_otherwise rfl (settles_plain ((within_cronJobs plain_reads).bind fun _ _ => rfl) (clear rfl))
    | cron now todo =>
      cases todo with
      | nil => exact expected
      | cons job todo =>
        exact recorder_otherwise rfl (settles_plain
          ((within_triggerCronJob plain_reads ext now job fun _ => trivial).bind fun _ _ => rfl) (clear rfl))
    | received request => exact holds_respond (settles_request ext settings request (clear rfl))
    | picked task outputs =>
      have settles : Settles (answerTask task outputs) (fun answer => answer.point.owes = none) note :=
        settles_bind (settles_event _ expected) fun _ _ _ clear => ⟨rfl, clear⟩
      exact holds_respond (settles.mono (fun _ _ there => there.2.trans there.1.symm) fun _ _ clear => clear)
    | _ => exact expected

end PostJen.Server
