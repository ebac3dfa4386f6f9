import PostJen.Server.Execution
import PostJen.Server.Outline

/-! Which task can stand where, and which statements it executes there.

Every suspended procedure is within the operations of the block it entered and
ends at a control point that follows it, so a law about one kind of statement
only has to look at the blocks that execute it.
-/

set_option autoImplicit false

open PostJen.Foundations PostJen.Core

namespace PostJen.Server

def Slot.hosts : Slot → Point → Bool
  | _, .idle => true
  | .scheduler, .schedulerTick | .scheduler, .executeRun _ | .scheduler, .scheduling _
  | .scheduler, .pass _ _ _ | .scheduler, .waiting _ | .scheduler, .polling _ _
  | .scheduler, .finalizing _ => true
  | .localWorker, .workerTick | .localWorker, .pickedLocal _ => true
  | .localTask _, .localTask _ => true
  | .monitor, .monitorTick | .monitor, .sweep _ => true
  | .cron, .cronTick | .cron, .cron _ _ => true
  | .request _, .received _ | .request _, .picked _ _ | .request _, .responded _ => true
  | _, _ => false

/-- The run that `execute_run` drives at a control point. -/
def Point.drives : Point → Option Nat
  | .executeRun queued => some queued.id
  | .scheduling x | .pass x _ _ | .waiting x | .polling x _ | .finalizing x => some x.run.id
  | _ => none

/-- What visiting one node does to the loop's variables. -/
inductive Execution.Visit (x : Execution) (newlyQueued : List (String × Nat)) (node : ResolvedNodeDefinition) :
    Execution → List (String × Nat) → Prop where
  | keep : Visit x newlyQueued node x newlyQueued
  | skip : Visit x newlyQueued node (x.record node.id .skipped) newlyQueued
  | queue (id : Nat) (known : x.nodeIds.lookup node.id = some id) :
      Visit x newlyQueued node x (newlyQueued ++ [(node.id, id)])
  | fail : Visit x newlyQueued node { x.record node.id .failed with stopScheduling := true } newlyQueued

/-- The control flow of the scheduler. -/
inductive Point.Leads : Point → Point → Prop where
  | idle : Leads .idle .idle
  | none : Leads .schedulerTick .schedulerTick
  | pick (queued : QueuedRun) : Leads .schedulerTick (.executeRun queued)
  | prepare (queued : QueuedRun) (nodes : List ResolvedNodeDefinition) (nodeIds : StringMap Nat) :
      Leads (.executeRun queued) (.scheduling ⟨queued, nodes, nodeIds, ∅, ∅, false, false⟩)
  | observe (x : Execution) (canceled : Bool) :
      Leads (.scheduling x) (.pass { x with canceling := x.canceling || canceled } [] x.nodes)
  | visit (x x' : Execution) (newlyQueued newlyQueued' : List (String × Nat)) (node : ResolvedNodeDefinition)
      (todo : List ResolvedNodeDefinition) (visits : x.Visit newlyQueued node x' newlyQueued') :
      Leads (.pass x newlyQueued (node :: todo)) (.pass x' newlyQueued' todo)
  | finish (x : Execution) (newlyQueued : List (String × Nat))
      (empty : (x.launch newlyQueued).runningNodes.entries = []) :
      Leads (.pass x newlyQueued []) (.finalizing (x.launch newlyQueued))
  | wait (x : Execution) (newlyQueued : List (String × Nat)) :
      Leads (.pass x newlyQueued []) (.waiting (x.launch newlyQueued))
  | poll (x : Execution) (keys : List String) : Leads (.waiting x) (.polling x keys)
  | next (x : Execution) (key : String) (todo : List String) :
      Leads (.polling x (key :: todo)) (.polling x todo)
  | complete (x : Execution) (key : String) (todo : List String) (outcome : NodeExecutionOutcome)
      (reported : outcome.status.reported = true) :
      Leads (.polling x (key :: todo)) (.scheduling (x.complete key outcome))
  | cancel (x : Execution) : Leads (.polling x []) (.scheduling (x.complete "" .canceled))
  | again (x : Execution) : Leads (.polling x []) (.waiting x)
  | finalize (x : Execution) : Leads (.finalizing x) .schedulerTick
  | abandon (point : Point) (runId : Nat) (driving : point.drives = some runId) : Leads point .schedulerTick

/-- The writes of the block at a control point, besides events. -/
def Point.makes : Point → Write → Bool
  | .executeRun queued, .insertNode node => node.jobRunId = queued.id
  | .executeRun queued, .updateJob id (.running fromStatus) => id = queued.id && fromStatus = .queued
  | .pass _ _ _, .updateNode _ (.assign _) | .pass _ _ _, .updateNode _ (.skip _) => true
  | .pass _ _ _, .updateNode _ (.status toStatus _ _ _) => toStatus = .queued || toStatus = .failed
  | .finalizing x, .updateJob id (.finished toStatus _) =>
      id = x.run.id && toStatus = determineJobStatus x.results x.canceling
  | point, .updateJob id (.failBeforeStart _) => point.drives = some id
  | .workerTick, .updateNode _ .startQueued => true
  | .localTask task, .updateNode id (.finish reported _ _) => id = task.nodeRunId && reported.reported
  | .localTask _, .log _ | .localTask _, .artifact _ => true
  | .monitorTick, .agents (.touch agentId) => agentId = localAgentId
  | .monitorTick, .agents .expire => true
  | .sweep todo, .updateNode id .lost => (todo.head?.map (·.id)) = some id
  | .received (.registerAgent _ _ _), .agents (.register _) => true
  | .received (.deleteAgent agentId), .agents (.delete other) => other = agentId
  | .received (.heartbeat _), .agents (.heartbeat _) => true
  | .received (.pollTask _), .updateNode _ .start => true
  | .received (.reportResult _ payload), .updateNode id (.finish reported _ _) =>
      id = payload.nodeRunId && reported.reported
  | .received (.reportResult _ _), .artifact _ | .received (.uploadArtifact _ _), .artifact _ => true
  | .received (.reportLogs _ _), .log _ => true
  | .received (.createSecret _ _), .secret _ _ | .received (.deleteSecret _), .deleteSecret _ => true
  | _, _ => false

/-- The updates of node runs, each with the block that executes it. -/
inductive Point.Updates : Point → Nat → NodeChange → Prop where
  | assign (x : Execution) (newlyQueued : List (String × Nat)) (todo : List ResolvedNodeDefinition)
      (id : Nat) (agentId : String) : Updates (.pass x newlyQueued todo) id (.assign agentId)
  | skip (x : Execution) (newlyQueued : List (String × Nat)) (todo : List ResolvedNodeDefinition)
      (id : Nat) (reason : String) : Updates (.pass x newlyQueued todo) id (.skip reason)
  | status (x : Execution) (newlyQueued : List (String × Nat)) (todo : List ResolvedNodeDefinition)
      (id : Nat) (toStatus : NodeStatus) (reason : Option String) (exitCode : Option Int) (retryCount : Nat)
      (valid : toStatus = .queued ∨ toStatus = .failed) :
      Updates (.pass x newlyQueued todo) id (.status toStatus reason exitCode retryCount)
  | pick (id : Nat) : Updates .workerTick id .startQueued
  | finish (task : Task) (status : NodeStatus) (exitCode : Option Int) (reason : Option String)
      (reported : status.reported = true) :
      Updates (.localTask task) task.nodeRunId (.finish status exitCode reason)
  | lose (node : OfflineNodeRun) (todo : List OfflineNodeRun) : Updates (.sweep (node :: todo)) node.id .lost
  | poll (headers : Headers) (id : Nat) : Updates (.received (.pollTask headers)) id .start
  | report (headers : Headers) (payload : ReportResultRequest) (status : NodeStatus) (exitCode : Option Int)
      (reason : Option String) (reported : status.reported = true) :
      Updates (.received (.reportResult headers payload)) payload.nodeRunId (.finish status exitCode reason)

theorem Point.makes_updates {point : Point} {id : Nat} {change : NodeChange}
    (made : point.makes (.updateNode id change) = true) : point.Updates id change := by
  cases point with
  | pass x newlyQueued todo =>
    cases change with
    | assign agentId => exact .assign x newlyQueued todo id agentId
    | skip reason => exact .skip x newlyQueued todo id reason
    | status toStatus reason exitCode retryCount =>
      simp only [makes, Bool.or_eq_true, decide_eq_true_eq] at made
      exact .status x newlyQueued todo id toStatus reason exitCode retryCount made
    | _ => cases made
  | workerTick =>
    cases change with
    | startQueued => exact .pick id
    | _ => cases made
  | localTask task =>
    cases change with
    | finish status exitCode reason =>
      simp only [makes, Bool.and_eq_true, decide_eq_true_eq] at made
      obtain ⟨rfl, reported⟩ := made
      exact .finish task status exitCode reason reported
    | _ => cases made
  | sweep todo =>
    cases change with
    | lost =>
      cases todo with
      | nil => cases made
      | cons node todo =>
        simp only [makes, List.head?_cons, Option.map_some, decide_eq_true_eq, Option.some.injEq] at made
        subst made
        exact .lose node todo
    | _ => cases made
  | received request =>
    cases request with
    | pollTask headers =>
      cases change with
      | start => exact .poll headers id
      | _ => cases made
    | reportResult headers payload =>
      cases change with
      | finish status exitCode reason =>
        simp only [makes, Bool.and_eq_true, decide_eq_true_eq] at made
        obtain ⟨rfl, reported⟩ := made
        exact .report headers payload status exitCode reason reported
      | _ => cases made
    | _ => cases change <;> cases made
  | _ => cases change <;> cases made

def Point.commits : Point → Transaction → Bool
  | .cron _ _, .createRun _ | .received (.startRun _ _), .createRun _
  | .received (.webhookTrigger _ _), .createRun _ | .received (.rerunRun _), .createRun _ => true
  | .received (.cancelRun runId), .cancelRun id _ => id = runId
  | .received (.registerJob _ _), .registerJob _ => true
  | _, _ => false

def Point.preparing : Point → Bool
  | .executeRun _ => true
  | _ => false

/-- Secrets are read by a preparation; other operations that write no table, and inserted events, are open to
every block. -/
def Point.may (point : Point) : Op → Bool
  | .select (.secret _) => point.preparing
  | .write (.event _) => true
  | .write write => point.makes write
  | .transact transaction => point.commits transaction
  | _ => true

def Op.reads : Op → Bool
  | .select (.secret _) => false
  | op => !op.writes

def Op.minor : Op → Bool
  | .write (.event _) => true
  | op => op.reads

theorem Op.writes_of_reads {op : Op} (reads : op.reads = true) : op.writes = false := by
  cases op <;> first | rfl | cases reads

theorem Op.minor_of_reads {op : Op} (reads : op.reads = true) : op.minor = true := by
  cases op <;> first | exact reads | cases reads

theorem reads_of {allowed : Op → Prop} (minor : ∀ op : Op, op.minor = true → allowed op) (op : Op)
    (reads : op.reads = true) : allowed op := minor op (Op.minor_of_reads reads)

theorem Point.may_minor {point : Point} {op : Op} (minor : op.minor = true) : point.may op = true := by
  cases op with
  | select query => cases query <;> first | rfl | cases minor
  | write write => cases write <;> first | rfl | cases minor
  | transact _ => cases minor
  | _ => rfl

/-! ## Single statements -/

section
variable {E A : Type} {allowed : Op → Prop} (reads : ∀ op : Op, op.reads = true → allowed op)
include reads

theorem within_call {op : Op} (pure : op.reads = true) {rest : op.Reply → Proc Sig E A}
    {ends : A → Prop} (within : ∀ reply, (rest reply).Within allowed ends) :
    (Proc.call op rest : Proc Sig E A).Within allowed ends :=
  ⟨reads op pure, within⟩

theorem within_reads {op : Op} (pure : op.reads = true) :
    (Proc.call op .done : Proc Sig E op.Reply).Within allowed fun _ => True :=
  within_call reads pure fun _ => trivial

omit reads in
theorem within_lift (value : Except E A) : (lift value).Within allowed fun _ => True := by
  cases value <;> trivial

variable [FromSql E]

omit reads in
theorem within_query {query : Select} (made : allowed (.select query)) :
    (fetch query : Proc Sig E query.Row).Within allowed fun _ => True :=
  ⟨made, fun reply => by cases reply <;> trivial⟩

theorem within_fetch (query : Select) (pure : (Op.select query).reads = true) :
    (fetch query : Proc Sig E query.Row).Within allowed fun _ => True := within_query (reads _ pure)

omit reads in
theorem within_execute {write : Write} (made : allowed (.write write)) :
    (execute write : Proc Sig E Nat).Within allowed fun _ => True :=
  ⟨made, fun reply => by cases reply <;> trivial⟩

omit reads in
theorem within_run {write : Write} (made : allowed (.write write)) :
    (run write : Proc Sig E Unit).Within allowed fun _ => True :=
  (within_execute made).bind fun _ _ => trivial

omit reads in
theorem within_event (minor : ∀ op : Op, op.minor = true → allowed op) (event : NewEvent) :
    (run (.event event) : Proc Sig E Unit).Within allowed fun _ => True := within_run (minor _ rfl)

omit reads in
theorem within_commit {transaction : Transaction} (made : allowed (.transact transaction)) :
    (commit transaction : Proc Sig E transaction.Row).Within allowed fun _ => True :=
  ⟨made, fun reply => by cases reply <;> trivial⟩

omit reads in
theorem within_logs (made : ∀ log, allowed (.write (.log log))) (runId nodeRunId sequence : Nat)
    (logs : List (String × String)) :
    (recordLogs runId nodeRunId sequence logs : Proc Sig E Unit).Within allowed fun _ => True := by
  induction logs generalizing sequence with
  | nil => trivial
  | cons log rest ih => exact (within_run (made _)).bind fun _ _ => ih _

omit [FromSql E] in
theorem within_loadOutputs (task : Task) :
    (loadOutputs task : Proc Sig E _).Within allowed fun _ => True :=
  within_call reads rfl fun reply => by cases reply <;> trivial

end

/-! ## Procedures without events -/

section
variable {allowed : Op → Prop} (reads : ∀ op : Op, op.reads = true → allowed op)
include reads

theorem within_loadForRun (queued : QueuedRun) :
    (loadForRun queued).Within allowed fun _ => True := by
  refine within_call reads rfl fun reply => ?_
  cases reply with
  | error why => trivial
  | ok definition =>
    dsimp only
    split <;> trivial

section
variable (secrets : ∀ name, allowed (.select (.secret name)))
include secrets
omit reads

theorem within_resolveSecrets (ext : External) (key : String) (names : List String)
    (resolved : StringMap String) :
    (resolveSecrets ext key names resolved).Within allowed fun _ => True := by
  induction names generalizing resolved with
  | nil => trivial
  | cons name rest ih =>
    refine (within_query (secrets name)).bind fun row _ => ?_
    cases row with
    | none => trivial
    | some row =>
      dsimp only
      cases ext.decrypt key row with
      | error why => trivial
      | ok value => exact ih _

theorem within_injectSecrets (ext : External) (key : String) (nodes : List ResolvedNodeDefinition) :
    (injectSecrets ext key nodes).Within allowed
      fun injected => dependencies injected = dependencies nodes := by
  induction nodes with
  | nil => rfl
  | cons node rest ih =>
    refine (within_resolveSecrets secrets ext key _ _).attempt.bind fun resolved _ => ?_
    cases resolved with
    | error why => trivial
    | ok secrets =>
      refine ih.bind fun injected same => ?_
      exact congrArg (List.cons (node.id, node.dependsOn)) same

theorem within_withSecrets (ext : External) (settings : Settings) (nodes : List ResolvedNodeDefinition) :
    (withSecrets ext settings nodes).Within allowed
      fun injected => dependencies injected = dependencies nodes := by
  unfold withSecrets
  cases settings.secretKey with
  | none => rfl
  | some key => exact within_injectSecrets secrets ext key nodes

end

theorem within_isCancelRequested (runId : Nat) :
    (isCancelRequested runId).Within allowed fun _ => True :=
  (within_fetch reads _ rfl).bind fun _ _ => trivial

theorem within_assignToAgent (ext : External) (nodeRunId : Nat) (node : ResolvedNodeDefinition)
    (assigns : ∀ agentId, allowed (.write (.updateNode nodeRunId (.assign agentId)))) :
    (assignToAgent ext nodeRunId node).Within allowed fun _ => True := by
  unfold assignToAgent
  split
  · refine (within_fetch reads _ rfl).bind fun agents _ => ?_
    split
    · exact (within_run (assigns _)).bind fun _ _ => trivial
    · trivial
  · exact (within_run (assigns _)).bind fun _ _ => trivial

namespace Execution

theorem within_observeCancel (x : Execution) :
    x.observeCancel.Within allowed fun observed =>
      ∃ canceled, observed = { x with canceling := x.canceling || canceled } :=
  (within_isCancelRequested reads _).bind fun canceled _ => ⟨canceled, rfl⟩

theorem within_pollNode (nodeRunId : Nat) :
    (pollNode nodeRunId).Within allowed
      fun outcome => ∀ ended, outcome = some ended → ended.status.reported = true := by
  refine (within_fetch reads _ rfl).bind fun status _ => ?_
  cases status with
  | failed =>
    refine (within_fetch reads _ rfl).bind fun _ _ => ?_
    rintro _ ⟨⟩
    rfl
  | _ =>
    rintro _ ⟨⟩
    try rfl

end Execution

theorem within_checkOutputs {E : Type} (workingDir : String) (outputs : List ResolvedNodeOutput) :
    (checkOutputs workingDir outputs : Proc Sig E _).Within allowed fun _ => True := by
  induction outputs with
  | nil => trivial
  | cons output rest ih => exact within_call reads rfl fun _ => ih.bind fun _ _ => trivial

theorem within_checkAfter {E : Type} (outcome : NodeExecutionOutcome) (workingDir : String)
    (outputs : List ResolvedNodeOutput) :
    (checkAfter outcome workingDir outputs : Proc Sig E _).Within allowed fun _ => True := by
  unfold checkAfter
  split
  · exact within_checkOutputs reads _ _
  · trivial

theorem within_recordLocalArtifacts (settings : Settings) (task : Task)
    (stores : ∀ artifact, allowed (.write (.artifact artifact))) (artifacts : List ArtifactResult) :
    (recordLocalArtifacts settings task artifacts).Within allowed fun _ => True := by
  induction artifacts with
  | nil => trivial
  | cons artifact rest ih =>
    have stored : (storeLocally settings task artifact).Within allowed fun _ => True := by
      unfold storeLocally
      split
      · exact within_call reads rfl fun _ => trivial
      · trivial
    exact stored.bind fun _ _ => (within_run (stores _)).bind fun _ _ => ih

theorem within_checkAgentHeartbeats (touches : allowed (.write (.agents (.touch localAgentId))))
    (expires : allowed (.write (.agents .expire))) :
    checkAgentHeartbeats.Within allowed fun _ => True := by
  refine (within_run touches).bind fun _ _ => (within_execute expires).bind fun updated _ => ?_
  split
  · exact within_fetch reads _ rfl
  · trivial

theorem within_cronJobs : cronJobs.Within allowed fun _ => True :=
  (within_fetch reads _ rfl).bind fun _ _ => (within_reads reads rfl).bind fun _ _ => trivial

theorem within_triggerCronJob (ext : External) (now : Nat) (job : CronJob)
    (creates : ∀ workingDir, allowed (.transact (.createRun (job.newRun workingDir now)))) :
    (triggerCronJob ext now job).Within allowed fun _ => True := by
  unfold triggerCronJob
  split
  · trivial
  · split
    · refine within_call reads rfl fun reply => ?_
      cases reply with
      | error why => trivial
      | ok definition => exact (within_commit (creates _)).bind fun _ _ => trivial
    · trivial

theorem within_loadOrReject (path : String) : (loadOrReject path).Within allowed fun _ => True :=
  within_call reads rfl fun reply => by cases reply <;> trivial

theorem within_readDefinitionFile (path : String) :
    (readDefinitionFile path).Within allowed fun _ => True :=
  within_call reads rfl fun reply => by cases reply <;> trivial

theorem within_enabledJob (jobId : String) : (enabledJob jobId).Within allowed fun _ => True := by
  refine (within_fetch reads _ rfl).bind fun job _ => ?_
  cases job with
  | none => trivial
  | some job =>
    dsimp only
    split <;> trivial

theorem within_authenticateAgent (ext : External) (headers : Headers) :
    (authenticateAgent ext headers).Within allowed fun _ => True := by
  unfold authenticateAgent
  split
  · trivial
  · refine (within_fetch reads _ rfl).bind fun agentId _ => ?_
    cases agentId <;> trivial

theorem within_nodeJobRun (nodeRunId : Nat) (missing : ApiError) :
    (nodeJobRun nodeRunId missing).Within allowed fun _ => True := by
  refine (within_fetch reads _ rfl).bind fun runId _ => ?_
  cases runId <;> trivial

end

/-! ## The scheduler -/

section
variable {allowed : Op → Prop} (minor : ∀ op : Op, op.minor = true → allowed op)
include minor

theorem within_transition {runId : Nat} {fromStatus toStatus : JobStatus} {message : Option String}
    (made : allowed (.write (.updateJob runId (transitionChange fromStatus toStatus message)))) :
    (transitionJob runId fromStatus toStatus message).Within allowed fun _ => True :=
  (within_run made).bind fun _ _ => within_event minor _

omit minor in
theorem within_ensureNodes (ext : External) (runId : Nat)
    (inserts : ∀ node, node.jobRunId = runId → allowed (.write (.insertNode node)))
    (nodes : List ResolvedNodeDefinition) (nodeIds : StringMap Nat) :
    (ensureNodes ext runId nodes nodeIds).Within allowed fun _ => True := by
  induction nodes generalizing nodeIds with
  | nil => trivial
  | cons node rest ih =>
    unfold ensureNodes
    split
    · trivial
    · exact (within_execute (inserts _ rfl)).bind fun _ _ => ih _

theorem within_prepareRun (ext : External) (settings : Settings) (queued : QueuedRun)
    (secrets : ∀ name, allowed (.select (.secret name)))
    (inserts : ∀ node, node.jobRunId = queued.id → allowed (.write (.insertNode node)))
    (starts : allowed (.write (.updateJob queued.id (.running .queued)))) :
    (prepareRun ext settings queued).Within allowed fun x =>
      ∃ nodes nodeIds, x = ⟨queued, nodes, nodeIds, ∅, ∅, false, false⟩ :=
  (within_loadForRun (reads_of minor) queued).bind fun _ _ => (within_fetch (reads_of minor) _ rfl).bind fun _ _ =>
    (within_withSecrets secrets ext settings _).bind fun _ _ =>
      (within_ensureNodes ext queued.id inserts _ _).bind fun _ _ =>
        (within_transition minor starts).bind fun _ _ => ⟨_, _, rfl⟩

namespace Execution

omit minor in
theorem within_nodeRunId (x : Execution) (nodeId : String) :
    (x.nodeRunId nodeId).Within allowed fun id => x.nodeIds.lookup nodeId = some id := by
  unfold nodeRunId
  split
  · assumption
  · trivial

theorem within_markNodeSkipped (x : Execution) (node : ResolvedNodeDefinition) (reason : String)
    (skips : ∀ id, allowed (.write (.updateNode id (.skip reason)))) :
    (x.markNodeSkipped node reason).Within allowed fun skipped => skipped = x.record node.id .skipped :=
  (x.within_nodeRunId _).bind fun _ _ => (within_run (skips _)).bind fun _ _ =>
    (within_event minor _).bind fun _ _ => rfl

theorem within_startNode (ext : External) (x : Execution) (newlyQueued : List (String × Nat))
    (node : ResolvedNodeDefinition) (assigns : ∀ id agentId, allowed (.write (.updateNode id (.assign agentId))))
    (queues : ∀ id, allowed (.write (.updateNode id (.status .queued none none 0))))
    (fails : ∀ id reason, allowed (.write (.updateNode id (.status .failed reason none 0)))) :
    (x.startNode ext newlyQueued node).Within allowed
      fun result => x.Visit newlyQueued node result.1 result.2 := by
  refine (x.within_nodeRunId _).bind fun id known =>
    (within_assignToAgent (reads_of minor) ext id node (assigns id)).bind fun assigned _ => ?_
  cases assigned
  · exact ((within_run (fails _ _)).bind fun _ _ => within_event minor _).bind fun _ _ => .fail
  · exact ((within_run (queues _)).bind fun _ _ => within_event minor _).bind fun _ _ => .queue id known

theorem within_scheduleNode (ext : External) (x : Execution) (newlyQueued : List (String × Nat))
    (node : ResolvedNodeDefinition) (skips : ∀ id reason, allowed (.write (.updateNode id (.skip reason))))
    (assigns : ∀ id agentId, allowed (.write (.updateNode id (.assign agentId))))
    (queues : ∀ id, allowed (.write (.updateNode id (.status .queued none none 0))))
    (fails : ∀ id reason, allowed (.write (.updateNode id (.status .failed reason none 0)))) :
    (x.scheduleNode ext newlyQueued node).Within allowed
      fun result => x.Visit newlyQueued node result.1 result.2 := by
  have skip : ∀ reason, (x.markNodeSkipped node reason >>= fun x =>
      pure (x, newlyQueued)).Within allowed fun result => x.Visit newlyQueued node result.1 result.2 := by
    refine fun reason => (x.within_markNodeSkipped minor node reason fun id => skips id reason).bind ?_
    rintro _ rfl
    exact .skip
  unfold scheduleNode
  split
  · exact .keep
  · split
    · exact skip _
    · split
      · exact .keep
      · split
        · exact skip _
        · split
          · exact skip _
          · exact x.within_startNode minor ext newlyQueued node assigns queues fails

end Execution

end

theorem determineJobStatus_terminal (results : StringMap NodeStatus) (canceling : Bool) :
    (determineJobStatus results canceling).terminal = true := by
  unfold determineJobStatus
  dsimp only
  split
  · rfl
  · split
    · rfl
    · split <;> rfl

theorem transitionChange_terminal {fromStatus toStatus : JobStatus} {message : Option String}
    (terminal : toStatus.terminal = true) :
    transitionChange fromStatus toStatus message = .finished toStatus message := by
  cases toStatus <;> first | rfl | cases terminal

section
variable {allowed : Op → Prop} (minor : ∀ op : Op, op.minor = true → allowed op)
include minor

theorem within_finalizeJob (runId : Nat) {finalStatus : JobStatus} (terminal : finalStatus.terminal = true)
    (finishes : ∀ message, allowed (.write (.updateJob runId (.finished finalStatus message)))) :
    (finalizeJob runId finalStatus).Within allowed fun _ => True := by
  refine (within_fetch (reads_of minor) _ rfl).bind fun current _ => within_transition minor ?_
  rw [transitionChange_terminal terminal]
  exact finishes _

theorem within_failRunBeforeStart (runId : Nat) (reason : String)
    (fails : allowed (.write (.updateJob runId (.failBeforeStart reason)))) :
    (failRunBeforeStart runId reason).Within allowed fun _ => True :=
  (within_run fails).bind fun _ _ => within_event minor _

/-! ## The workers and the monitor -/

theorem within_pickLocalTask (starts : ∀ id, allowed (.write (.updateNode id .startQueued))) :
    pickLocalTask.Within allowed fun _ => True := by
  refine (within_fetch (reads_of minor) _ rfl).bind fun task _ => ?_
  cases task with
  | none => trivial
  | some task =>
    exact (within_run (starts _)).bind fun _ _ => (within_event minor _).bind fun _ _ => trivial

theorem within_executeLocalTask (ext : External) (settings : Settings) (task : Task)
    (logs : ∀ log, allowed (.write (.log log))) (stores : ∀ artifact, allowed (.write (.artifact artifact)))
    (finishes : ∀ status exitCode reason, status.reported = true →
      allowed (.write (.updateNode task.nodeRunId (.finish status exitCode reason)))) :
    (executeLocalTask ext settings task).Within allowed fun _ => True := by
  have process : ∀ node, (runProcess node : Proc Sig AnyError _).Within allowed
      fun outcome => outcome.status.reported = true :=
    fun node => within_call (reads_of minor) rfl fun result => result.outcome_reported
  refine (within_loadOutputs (reads_of minor) _).bind fun outputs _ => (process _).bind fun outcome reported => ?_
  refine (within_fetch (reads_of minor) _ rfl).bind fun sequence _ => (within_logs logs _ _ _ _).bind fun _ _ =>
    (within_checkAfter (reads_of minor) _ _ _).bind fun results _ =>
      (within_recordLocalArtifacts (reads_of minor) _ _ stores _).bind fun _ _ => ?_
  exact (within_run (finishes _ _ _ (enforceOutputs_reported reported results))).bind
    fun _ _ => within_event minor _

theorem within_sweepNode (node : OfflineNodeRun) (loses : allowed (.write (.updateNode node.id .lost))) :
    (sweepNode node).Within allowed fun _ => True :=
  (within_run loses).bind fun _ _ => within_event minor _

/-! ## Requests -/

omit minor in
theorem within_recordArtifacts (runId nodeRunId : Nat) (stores : ∀ artifact, allowed (.write (.artifact artifact)))
    (artifacts : List ArtifactReport) :
    (recordArtifacts runId nodeRunId artifacts).Within allowed fun _ => True := by
  induction artifacts with
  | nil => trivial
  | cons artifact rest ih => exact (within_run (stores _)).bind fun _ _ => ih

theorem within_answerTask (task : Task) (outputs : List ResolvedNodeOutput) :
    (answerTask task outputs).Within allowed fun _ => True :=
  (within_event minor _).bind fun _ _ => trivial

end

private theorem minor_may (point : Point) (op : Op) (minor : op.minor = true) : point.may op = true :=
  Point.may_minor minor

theorem Point.may_write {point : Point} {write : Write} (made : point.makes write = true) :
    point.may (.write write) = true := by
  cases write <;> first | rfl | exact made

def Answer.plain : Answer → Bool
  | .response ⟨_, .task _ _⟩ | .picked _ _ => false
  | _ => true

theorem within_handler (ext : External) (settings : Settings) (request : Request) {allowed : Op → Prop}
    (reads : ∀ op : Op, op.reads = true → allowed op)
    (makes : ∀ write, (Point.received request).makes write = true → allowed (.write write))
    (commits : ∀ transaction, (Point.received request).commits transaction = true → allowed (.transact transaction))
    (events : ∀ headers payload, request = .reportResult headers payload →
      ∀ event, allowed (.write (.event event))) :
    (handle ext settings request).Within allowed
      fun answer => (∃ headers, request = .pollTask headers) ∨ answer.plain = true := by
  cases request with
  | registerJob path enabled =>
    unfold handle registerJob
    dsimp only
    split
    · trivial
    · exact (within_loadOrReject reads _).bind fun _ _ => (within_readDefinitionFile reads _).bind
        fun _ _ => (within_fetch reads _ rfl).bind fun _ _ => (within_commit (commits _ rfl)).bind fun _ _ => .inr rfl
  | startRun jobId payload =>
    refine (within_enabledJob reads _).bind fun job _ => ?_
    dsimp only
    split
    · trivial
    · exact (within_loadOrReject reads _).bind fun _ _ => (within_lift _).bind fun _ _ =>
        (within_reads reads rfl).bind fun _ _ => (within_lift _).bind fun _ _ =>
          (within_commit (commits _ rfl)).bind fun _ _ => .inr rfl
  | webhookTrigger jobId payload =>
    refine (within_enabledJob reads _).bind fun job _ =>
      (within_loadOrReject reads _).bind fun definition _ => ?_
    dsimp only
    split
    · trivial
    · exact (within_lift _).bind fun _ _ => (within_commit (commits _ rfl)).bind fun _ _ => .inr rfl
  | cancelRun runId =>
    refine (within_fetch reads _ rfl).bind fun run _ => ?_
    have cancels : ∀ fromStatus,
        (Point.received (.cancelRun runId)).commits (.cancelRun runId fromStatus) = true :=
      fun _ => decide_eq_true rfl
    cases run with
    | none => trivial
    | some run =>
      dsimp only
      split
      · exact (within_commit (commits _ (cancels _))).bind fun _ _ => .inr rfl
      · exact (within_commit (commits _ (cancels _))).bind fun _ _ => .inr rfl
      · exact .inr rfl
      · exact .inr rfl
      · trivial
  | rerunRun runId =>
    refine (within_fetch reads _ rfl).bind fun source _ => ?_
    cases source with
    | none => trivial
    | some source => exact (within_commit (commits _ rfl)).bind fun _ _ => .inr rfl
  | registerAgent name hostname labels =>
    unfold handle registerAgent
    dsimp only
    split
    · trivial
    · exact within_call reads rfl fun _ => within_call reads rfl fun _ =>
        (within_run (makes _ rfl)).bind fun _ _ => .inr rfl
  | deleteAgent agentId =>
    have deletes : (Point.received (.deleteAgent agentId)).makes (.agents (.delete agentId)) = true :=
      decide_eq_true rfl
    refine (within_execute (makes _ deletes)).bind fun affected _ => ?_
    split
    · trivial
    · exact .inr rfl
  | pollTask headers =>
    refine (within_authenticateAgent reads ext headers).bind fun agentId _ =>
      (within_fetch reads _ rfl).bind fun _ _ => (within_fetch reads _ rfl).bind fun task _ => ?_
    cases task with
    | none => exact .inr rfl
    | some task =>
      exact (within_loadOutputs reads task).bind fun _ _ => (within_run (makes _ rfl)).bind fun _ _ => .inl ⟨headers, rfl⟩
  | reportResult headers payload =>
    refine (within_authenticateAgent reads ext headers).bind fun agentId _ =>
      (within_fetch reads _ rfl).bind fun _ _ => ?_
    split
    · trivial
    · split
      · trivial
      · rename_i status valid
        have finishes : (Point.received (.reportResult headers payload)).makes (.updateNode payload.nodeRunId
            (.finish status payload.exitCode payload.failureReason)) = true := by
          simp [Point.makes, validStatus_reported valid]
        exact (within_nodeJobRun reads _ _).bind fun _ _ => (within_run (makes _ finishes)).bind fun _ _ =>
          (within_run (events headers payload rfl _)).bind fun _ _ =>
            (within_recordArtifacts _ _ (fun _ => makes _ rfl) _).bind fun _ _ => .inr rfl
  | reportLogs headers payload =>
    exact (within_authenticateAgent reads ext headers).bind fun _ _ =>
      (within_nodeJobRun reads _ _).bind fun _ _ => (within_fetch reads _ rfl).bind fun _ _ =>
        (within_logs (fun _ => makes _ rfl) _ _ _ _).bind fun _ _ => .inr rfl
  | heartbeat headers =>
    exact (within_authenticateAgent reads ext headers).bind fun _ _ =>
      (within_run (makes _ rfl)).bind fun _ _ => .inr rfl
  | uploadArtifact headers parts =>
    refine (within_authenticateAgent reads ext headers).bind fun _ _ => (within_lift _).bind fun _ _ =>
      (within_lift _).bind fun _ _ => (within_lift _).bind fun _ _ => (within_lift _).bind fun _ _ =>
      (within_nodeJobRun reads _ _).bind fun _ _ => (within_reads reads rfl).bind fun written _ => ?_
    cases written with
    | error why => trivial
    | ok _ => exact (within_run (makes _ rfl)).bind fun _ _ => .inr rfl
  | createSecret name value =>
    show (createSecret ext settings name value).Within _ _
    unfold createSecret
    cases settings.secretKey with
    | none => trivial
    | some key =>
      dsimp only
      split
      · trivial
      · refine within_call reads rfl fun nonce => ?_
        dsimp only [Bind.bind, Proc.bind]
        split
        · trivial
        · refine (within_run (makes _ rfl)).bind fun _ _ => (within_fetch reads _ rfl).bind fun summary _ => ?_
          cases summary with
          | none => trivial
          | some summary => exact .inr rfl
  | deleteSecret name =>
    refine (within_execute (makes _ rfl)).bind fun affected _ => ?_
    split
    · trivial
    · exact .inr rfl

theorem within_handle (ext : External) (settings : Settings) (request : Request) :
    (handle ext settings request).Within (fun op => (Point.received request).may op = true)
      fun answer => (∃ headers, request = .pollTask headers) ∨ answer.plain = true :=
  within_handler ext settings request (reads_of (minor_may _)) (fun _ made => Point.may_write made)
    (fun _ made => made) fun _ _ _ _ => rfl

/-! ## Blocks -/

section
variable {allowed : Op → Prop} {ends : Point → Prop}

theorem within_otherwise {point : Point} {body : Proc Sig AnyError Point} (home : ends point)
    (within : body.Within allowed ends) : (otherwise point body).Within allowed ends := by
  refine within.attempt.bind fun outcome arrives => ?_
  cases outcome with
  | error why => exact home
  | ok next => exact arrives next rfl

theorem within_recover (minor : ∀ op : Op, op.minor = true → allowed op) {runId : Nat}
    {body : Proc Sig AnyError Point}
    (fails : ∀ reason, allowed (.write (.updateJob runId (.failBeforeStart reason))))
    (home : ends .schedulerTick) (within : body.Within allowed ends) :
    (recover runId body).Within allowed ends := by
  refine within.attempt.bind fun outcome arrives => ?_
  cases outcome with
  | error why =>
    exact (within_failRunBeforeStart minor runId _ (fails _)).attempt.bind fun _ _ => home
  | ok next => exact arrives next rfl

theorem within_respond {n : Nat} {body : Proc Sig ApiError Answer}
    {answers : Answer → Prop} (within : body.Within allowed answers) :
    (respond body).Within allowed fun next => (Slot.request n).hosts next = true := by
  refine within.attempt.bind fun outcome _ => ?_
  cases outcome with
  | error why => rfl
  | ok answer => cases answer <;> rfl

end

def Slot.Follows (slot : Slot) (point next : Point) : Prop :=
  slot.hosts next = true ∧ (slot = .scheduler → point.Leads next)

theorem follows_scheduler {point next : Point} (hosted : Slot.scheduler.hosts next = true)
    (leads : point.Leads next) : Slot.scheduler.Follows point next :=
  ⟨hosted, fun _ => leads⟩

theorem follows_other {slot : Slot} {point next : Point} (other : slot ≠ .scheduler)
    (hosted : slot.hosts next = true) : slot.Follows point next :=
  ⟨hosted, fun same => absurd same other⟩

theorem failBeforeStart_may {point : Point} {runId : Nat} (driving : point.drives = some runId)
    (reason : String) : point.may (.write (.updateJob runId (.failBeforeStart reason))) = true := by
  cases point <;> simpa [Point.may, Point.makes] using driving

theorem scheduler_within (ext : External) (settings : Settings) {point : Point}
    (hosted : Slot.scheduler.hosts point = true) :
    (block ext settings point).Within (fun op => point.may op = true)
      fun next => Slot.scheduler.Follows point next := by
  have minor := minor_may point
  cases point with
  | idle => exact follows_scheduler rfl .idle
  | schedulerTick =>
    refine within_otherwise (follows_scheduler rfl .none) ((within_fetch (reads_of minor) _ rfl).bind fun queued _ => ?_)
    cases queued with
    | none => exact follows_scheduler rfl .none
    | some queued => exact follows_scheduler rfl (.pick queued)
  | executeRun queued =>
    refine within_recover minor (failBeforeStart_may rfl) (follows_scheduler rfl (.abandon _ _ rfl))
      ((within_prepareRun minor ext settings queued (fun _ => rfl) ?_ ?_).bind ?_)
    · exact fun node owned => decide_eq_true owned
    · simp [Point.may, Point.makes]
    · rintro _ ⟨nodes, nodeIds, rfl⟩
      exact follows_scheduler rfl (.prepare queued nodes nodeIds)
  | scheduling x =>
    refine within_recover minor (failBeforeStart_may rfl) (follows_scheduler rfl (.abandon _ _ rfl))
      ((x.within_observeCancel (reads_of minor)).bind ?_)
    rintro _ ⟨canceled, rfl⟩
    exact follows_scheduler rfl (.observe x canceled)
  | pass x newlyQueued todo =>
    cases todo with
    | nil =>
      unfold block
      dsimp only
      split
      · rename_i empty
        exact follows_scheduler rfl (.finish x newlyQueued empty)
      · exact follows_scheduler rfl (.wait x newlyQueued)
    | cons node todo =>
      refine within_recover minor (failBeforeStart_may rfl) (follows_scheduler rfl (.abandon _ _ rfl))
        ((x.within_scheduleNode minor ext newlyQueued node (fun _ _ => rfl) (fun _ _ => rfl) (fun _ => rfl)
          fun _ _ => rfl).bind fun result visits => ?_)
      exact follows_scheduler rfl (.visit x result.1 newlyQueued result.2 node todo visits)
  | waiting x => exact within_call (reads_of minor) rfl fun keys => follows_scheduler rfl (.poll x keys)
  | polling x todo =>
    cases todo with
    | nil =>
      refine within_recover minor (failBeforeStart_may rfl) (follows_scheduler rfl (.abandon _ _ rfl))
        ((within_isCancelRequested (reads_of minor) _).bind fun canceled _ => ?_)
      cases canceled
      · exact follows_scheduler rfl (.again x)
      · exact follows_scheduler rfl (.cancel x)
    | cons key todo =>
      refine within_recover minor (failBeforeStart_may rfl) (follows_scheduler rfl (.abandon _ _ rfl)) ?_
      unfold pollPoint
      split
      · exact follows_scheduler rfl (.next x key todo)
      · refine (Execution.within_pollNode (reads_of minor) _).bind fun outcome reported => ?_
        cases outcome with
        | none => exact follows_scheduler rfl (.next x key todo)
        | some outcome => exact follows_scheduler rfl (.complete x key todo outcome (reported _ rfl))
  | finalizing x =>
    refine within_recover minor (failBeforeStart_may rfl) (follows_scheduler rfl (.abandon _ _ rfl))
      ((within_finalizeJob minor _ (determineJobStatus_terminal _ _) fun message => ?_).bind
        fun _ _ => follows_scheduler rfl (.finalize x))
    simp [Point.may, Point.makes]
  | _ => cases hosted

theorem worker_within (ext : External) (settings : Settings) {slot : Slot} {point : Point}
    (other : slot ≠ .scheduler) (hosted : slot.hosts point = true) :
    (block ext settings point).Within (fun op => point.may op = true)
      fun next => slot.hosts next = true := by
  have minor := minor_may point
  cases point with
  | idle => exact hosted
  | workerTick =>
    cases slot <;> cases hosted
    refine within_otherwise rfl ((within_pickLocalTask minor fun _ => rfl).bind fun task _ => ?_)
    cases task <;> rfl
  | pickedLocal task => exact hosted
  | localTask task =>
    cases slot <;> cases hosted
    refine within_otherwise rfl ((within_executeLocalTask minor ext settings task (fun _ => rfl)
      (fun _ => rfl) fun status exitCode reason reported => ?_).bind fun _ _ => rfl)
    simp [Point.may, Point.makes, reported]
  | monitorTick =>
    cases slot <;> cases hosted
    exact within_otherwise rfl ((within_checkAgentHeartbeats (reads_of minor) rfl rfl).bind fun _ _ => rfl)
  | sweep todo =>
    cases slot <;> cases hosted
    cases todo with
    | nil => rfl
    | cons node todo =>
      exact within_otherwise rfl ((within_sweepNode minor node (decide_eq_true rfl)).bind fun _ _ => rfl)
  | cronTick =>
    cases slot <;> cases hosted
    exact within_otherwise rfl ((within_cronJobs (reads_of minor)).bind fun _ _ => rfl)
  | cron now todo =>
    cases slot <;> cases hosted
    cases todo with
    | nil => rfl
    | cons job todo =>
      exact within_otherwise rfl ((within_triggerCronJob (reads_of minor) ext now job fun _ => rfl).bind
        fun _ _ => rfl)
  | received request =>
    cases slot <;> cases hosted
    exact within_respond (within_handle ext settings request)
  | picked task outputs =>
    cases slot <;> cases hosted
    exact within_respond (within_answerTask minor task outputs)
  | responded response => exact hosted
  | _ => cases slot <;> first | exact absurd rfl other | cases hosted

theorem block_within (ext : External) (settings : Settings) {slot : Slot} {point : Point}
    (hosted : slot.hosts point = true) :
    (block ext settings point).Within (fun op => point.may op = true) fun next => slot.Follows point next := by
  by_cases isScheduler : slot = .scheduler
  · subst isScheduler
    exact scheduler_within ext settings hosted
  · exact (worker_within ext settings isScheduler hosted).mono (fun _ may => may)
      fun _ hosted => follows_other isScheduler hosted

/-! ## Runs -/

/-- A task stands at a point of its slot, within the operations of its block. -/
def Slot.Places (slot : Slot) (thread : Thread Sig Point) : Prop :=
  slot.hosts thread.point = true ∧ thread.code.Within (fun op => thread.point.may op = true)
    fun next => slot.Follows thread.point next

def Config.Placed (c : Config) : Prop := ∀ slot : Slot, slot.Places (c.threads slot)

variable {ext : External} {settings : Settings}

theorem enter_placed {slot : Slot} {point : Point} (hosted : slot.hosts point = true) :
    slot.Places (enter ext settings point) :=
  ⟨hosted, block_within ext settings hosted⟩

theorem Config.Placed.put {c : Config} (placed : c.Placed) {slot : Slot} {thread : Thread Sig Point}
    (here : slot.Places thread) : (c.put slot thread).Placed := by
  intro other
  by_cases same : other = slot
  · subst same
    rw [Config.put_self]
    exact here
  · rw [Config.put_ne c thread same]
    exact placed other

theorem Slot.hosts_idle (slot : Slot) : slot.hosts .idle = true := by cases slot <;> rfl

theorem Config.Placed.follows {c : Config} (placed : c.Placed) {slot : Slot} {point : Point}
    (ended : (c.threads slot).code = .done point) : slot.Follows (c.threads slot).point point := by
  have within := (placed slot).2
  rw [ended] at within
  exact within

theorem placed_step {c after : Config} {label : Label} (placed : c.Placed)
    (moved : Moved ext settings c label after) : after.Placed := by
  cases moved with
  | @exec slot choice op rest reply state next ran =>
    obtain ⟨home, within⟩ := placed slot
    rw [next] at within
    have same : Config.Placed ⟨state, c.threads⟩ := placed
    exact same.put ⟨home, within.2 reply⟩
  | @resume slot point ended => exact placed.put (enter_placed (placed.follows ended).1)
  | spawn picked free => exact (placed.put (enter_placed rfl)).put (enter_placed rfl)
  | receive free => exact placed.put (enter_placed rfl)
  | drop n => exact placed.put (enter_placed rfl)
  | clock now => exact placed
  | edit path contents => exact placed
  | boot registered => exact fun slot => enter_placed (by cases slot <;> rfl)

theorem reached_placed {start c : Config} {admits : Config → Label → Prop}
    (idle : ∀ slot, start.threads slot = enter ext settings .idle)
    (run : (system ext settings).Reaches admits start c) : c.Placed := by
  have first : start.Placed := by
    intro slot
    rw [idle]
    exact enter_placed slot.hosts_idle
  exact run.invariant Config.Placed first fun before label after placed _ moved =>
    placed_step placed (step_moved moved)

theorem Config.Placed.may {c : Config} (placed : c.Placed) {slot : Slot} {op : Op}
    {rest : op.Reply → Proc Sig Empty Point} (next : (c.threads slot).code = .call op rest) :
    (c.threads slot).point.may op = true := by
  have within := (placed slot).2
  rw [next] at within
  exact within.1

end PostJen.Server
