import PostJen.Foundations.Knowledge
import PostJen.Server.History

/-! What the tasks know about rows that are never deleted.

A statement that inserts a row with two ids takes for granted that they belong
together. Each block learns this from its own replies or has been handed it by
the block before, so it may act on it however long it is suspended in between.
-/

set_option autoImplicit false

open PostJen.Foundations PostJen.Core

namespace PostJen.Server

/-- What a task may have learned about rows that are never deleted. -/
inductive Fact where
  | node (runId nodeRunId : Nat)
  | definition (id : Nat) (jobId : String)
  | run (id definitionId : Nat) (jobId : String)

def Fact.holds (db : Db) : Fact → Prop
  | .node runId nodeRunId => ∃ node, db.nodeRuns.find nodeRunId = some node ∧ node.jobRunId = runId
  | .definition id jobId => ∃ job, db.jobDefinitions.find id = some job ∧ job.jobId = jobId
  | .run id definitionId jobId =>
      ∃ run, db.jobRuns.find id = some run ∧ run.jobDefinitionId = definitionId ∧ run.jobId = jobId

theorem Fact.holds_extends {db db' : Db} (extended : db.Extends db') {fact : Fact} (holds : fact.holds db) :
    fact.holds db' := by
  cases fact with
  | node runId nodeRunId =>
    obtain ⟨node, found, rfl⟩ := holds
    obtain ⟨node', found', same⟩ := extended.nodes.find found
    refine ⟨node', found', ?_⟩
    show node'.snapshot.jobRunId = node.snapshot.jobRunId
    rw [same]
  | definition id jobId =>
    obtain ⟨job, found, rfl⟩ := holds
    obtain ⟨job', found', same⟩ := extended.definitions.find found
    exact ⟨job', found', congrArg Prod.fst same⟩
  | run id definitionId jobId =>
    obtain ⟨run, found, rfl, rfl⟩ := holds
    obtain ⟨run', found', same⟩ := extended.runs.find found
    refine ⟨run', found', ?_, ?_⟩
    · show run'.snapshot.jobDefinitionId = run.snapshot.jobDefinitionId
      rw [same]
    · show run'.snapshot.jobId = run.snapshot.jobId
      rw [same]

/-- What a statement takes for granted about the ids that it inserts. -/
def Op.needs : Op → Fact → Prop
  | .write (.event new), fact => ∃ id, new.nodeRunId = some id ∧ fact = .node new.jobRunId id
  | .write (.log new), fact => fact = .node new.jobRunId new.nodeRunId
  | .write (.artifact new), fact => fact = .node new.jobRunId new.nodeRunId
  | .transact (.createRun new), fact =>
      match new.rerunOfJobRunId with
      | none => fact = .definition new.jobDefinitionId new.jobId
      | some source => fact = .run source new.jobDefinitionId new.jobId
  | _, _ => False

def Op.teaches : (op : Op) → op.Reply → Fact → Prop
  | .select (.queuedTask _), .ok (some task), fact => fact = .node task.jobRunId task.nodeRunId
  | .select .offlineNodes, .ok nodes, fact => ∃ node ∈ nodes, fact = .node node.jobRunId node.id
  | .select (.nodeJobRun id), .ok (some runId), fact => fact = .node runId id
  | .select (.jobForRun _), .ok (some job), fact => fact = .definition job.id job.jobId
  | .select .cronJobs, .ok jobs, fact => ∃ job ∈ jobs, fact = .definition job.id job.jobId
  | .select (.runForRerun _), .ok (some source), fact => fact = .run source.id source.jobDefinitionId source.jobId
  | .write (.insertNode node), .ok id, fact => fact = .node node.jobRunId id
  | _, _, _ => False

def knowledge : Knowledge Sig Fact := ⟨Op.needs, Op.teaches⟩

def Execution.knows (x : Execution) (fact : Fact) : Prop :=
  ∃ key id, x.nodeIds.lookup key = some id ∧ fact = .node x.run.id id

/-- What a task still knows when it enters a block. -/
def Point.knows : Point → Fact → Prop
  | .scheduling x | .pass x _ _ | .waiting x | .polling x _ | .finalizing x => x.knows
  | .pickedLocal task | .localTask task | .picked task _ => fun fact => fact = .node task.jobRunId task.nodeRunId
  | .sweep todo => fun fact => ∃ node ∈ todo, fact = .node node.jobRunId node.id
  | .cron _ todo => fun fact => ∃ job ∈ todo, fact = .definition job.id job.jobId
  | _ => fun _ => False

/-! ## Blocks -/

namespace Facts

variable {ext : External} {settings : Settings} {known : Fact → Prop} {E A : Type}

def Humble (op : Op) : Prop := ∀ fact, ¬op.needs fact

theorem humble_reads (op : Op) (reads : op.reads = true) : Humble op := by
  rintro fact needed
  cases op with
  | write write => cases reads
  | transact transaction => cases reads
  | _ => exact needed

theorem informed_humble {program : Proc Sig E A} {ends : A → Prop} (within : program.Within Humble ends) :
    program.Informed knowledge (fun value later => ends value ∧ ∀ fact, known fact → later fact) known :=
  within.informed fun _ fact humble needed => absurd needed (humble fact)

theorem informed_fetch [FromSql E] (query : Select) :
    (fetch query : Proc Sig E query.Row).Informed knowledge
      (fun row later => ∀ fact, (Op.select query).teaches (.ok row) fact → later fact) known := by
  refine ⟨fun fact needed => needed.elim, fun reply => ?_⟩
  cases reply with
  | error why => trivial
  | ok row => exact fun fact taught => .inr taught

theorem informed_run [FromSql E] {write : Write} (covered : ∀ fact, (Op.write write).needs fact → known fact) :
    (run write : Proc Sig E Unit).Informed knowledge (fun _ _ => True) known :=
  ⟨covered, fun reply => by cases reply <;> trivial⟩

theorem informed_nodeEvent [FromSql E] {runId id : Nat} {fromStatus toStatus : NodeStatus} {message : Option String}
    (here : known (.node runId id)) :
    (insertNodeEvent runId id fromStatus toStatus message : Proc Sig E Unit).Informed knowledge (fun _ _ => True) known := by
  refine informed_run ?_
  rintro fact ⟨_, same, rfl⟩
  cases same
  exact here

theorem informed_logs [FromSql E] {runId id : Nat} (sequence : Nat) (logs : List (String × String))
    (here : known (.node runId id)) :
    (recordLogs runId id sequence logs : Proc Sig E Unit).Informed knowledge (fun _ _ => True) known := by
  induction logs generalizing sequence known with
  | nil => trivial
  | cons log rest ih =>
    exact (informed_run fun fact same => same ▸ here).bind fun _ later keeps _ => ih (sequence + 1) (keeps _ here)

theorem informed_artifacts {runId id : Nat} (artifacts : List ArtifactReport) (here : known (.node runId id)) :
    (recordArtifacts runId id artifacts).Informed knowledge (fun _ _ => True) known := by
  induction artifacts generalizing known with
  | nil => trivial
  | cons artifact rest ih =>
    exact (informed_run fun fact same => same ▸ here).bind fun _ later keeps _ => ih (keeps _ here)

theorem informed_localArtifacts (task : Task) (artifacts : List ArtifactResult)
    (here : known (.node task.jobRunId task.nodeRunId)) :
    (recordLocalArtifacts settings task artifacts).Informed knowledge (fun _ _ => True) known := by
  induction artifacts generalizing known with
  | nil => trivial
  | cons artifact rest ih =>
    have stored : (storeLocally settings task artifact).Within Humble fun _ => True := by
      unfold storeLocally
      split
      · exact within_call humble_reads rfl fun _ => trivial
      · trivial
    refine (informed_humble stored).bind fun _ later keeps _ => ?_
    exact (informed_run fun fact same => same ▸ keeps _ here).bind fun _ after grows _ => ih (grows _ (keeps _ here))

/-! ### The scheduler -/

theorem informed_ensureNodes (runId : Nat) (nodes : List ResolvedNodeDefinition) (nodeIds : StringMap Nat)
    (covers : ∀ key id, nodeIds.lookup key = some id → known (.node runId id)) :
    (ensureNodes ext runId nodes nodeIds).Informed knowledge
      (fun made later => ∀ key id, made.lookup key = some id → later (.node runId id)) known := by
  induction nodes generalizing nodeIds known with
  | nil => exact covers
  | cons node rest ih =>
    unfold ensureNodes
    split
    · trivial
    · refine ⟨fun fact needed => needed.elim, fun reply => ?_⟩
      cases reply with
      | error why => trivial
      | ok nodeRunId =>
        refine ih (nodeIds.insert node.id nodeRunId) fun key id found => ?_
        rw [lookup_insert_ite] at found
        split at found
        · cases found
          exact .inr rfl
        · exact .inl (covers key id found)

theorem informed_transitionJob (runId : Nat) (fromStatus toStatus : JobStatus) (message : Option String) :
    (transitionJob runId fromStatus toStatus message).Informed knowledge (fun _ _ => True) known := by
  refine (informed_run (by exact fun _ needed => needed.elim)).bind fun _ later _ _ => informed_run ?_
  rintro fact ⟨_, same, -⟩
  cases same

theorem informed_finalizeJob (runId : Nat) (finalStatus : JobStatus) :
    (finalizeJob runId finalStatus).Informed knowledge (fun _ _ => True) known :=
  (informed_fetch (.jobStatus runId)).bind fun _ _ _ _ => informed_transitionJob _ _ _ _

theorem informed_prepareRun (queued : QueuedRun) :
    (prepareRun ext settings queued).Informed knowledge (fun x later => ∀ fact, x.knows fact → later fact) known := by
  have secrets : ∀ name, Humble (.select (.secret name)) := fun name fact needed => needed
  refine (informed_humble (within_loadForRun humble_reads queued)).bind fun definition _ _ _ => ?_
  refine (informed_humble (within_fetch humble_reads (.paramsJson queued.id) rfl)).bind fun paramsJson _ _ _ => ?_
  refine (informed_humble (within_withSecrets secrets ext settings _)).bind fun nodes _ _ _ => ?_
  refine (informed_ensureNodes queued.id nodes ∅ fun key id found => by simp at found).bind fun nodeIds later _ made => ?_
  refine (informed_transitionJob queued.id .queued .running none).bind fun _ after grows _ => ?_
  rintro fact ⟨key, id, found, rfl⟩
  exact grows _ (made key id found)

section
variable {x : Execution} {newlyQueued : List (String × Nat)} {node : ResolvedNodeDefinition}

theorem informed_markNodeSkipped (reason : String) (covers : ∀ fact, x.knows fact → known fact) :
    (x.markNodeSkipped node reason).Informed knowledge (fun skipped _ => skipped = x.record node.id .skipped) known := by
  have found : (x.nodeRunId node.id).Within Humble _ := x.within_nodeRunId node.id
  refine (informed_humble found).bind fun id later keeps here => ?_
  refine (informed_run (by exact fun _ needed => needed.elim)).bind fun _ after grows _ => ?_
  exact (informed_nodeEvent (grows _ (keeps _ (covers _ ⟨_, _, here.1, rfl⟩)))).bind fun _ _ _ _ => rfl

theorem informed_updateNodeStatus {runId id : Nat} {fromStatus toStatus : NodeStatus} {reason : Option String}
    {exitCode : Option Int} {message : Option String} {retryCount : Nat} (here : known (.node runId id)) :
    (updateNodeStatus runId id fromStatus toStatus reason exitCode message retryCount).Informed knowledge
      (fun _ _ => True) known :=
  (informed_run (by exact fun _ needed => needed.elim)).bind fun _ _ keeps _ => informed_nodeEvent (keeps _ here)

theorem informed_startNode (covers : ∀ fact, x.knows fact → known fact) :
    (x.startNode ext newlyQueued node).Informed knowledge
      (fun result _ => x.Visit newlyQueued node result.1 result.2) known := by
  have found : (x.nodeRunId node.id).Within Humble _ := x.within_nodeRunId node.id
  refine (informed_humble found).bind fun id later keeps here => ?_
  have assigns := within_assignToAgent humble_reads ext id node fun agentId fact needed => needed.elim
  refine (informed_humble assigns).bind fun assigned after grows _ => ?_
  have mine := grows _ (keeps _ (covers _ ⟨_, _, here.1, rfl⟩))
  cases assigned with
  | true => exact (informed_updateNodeStatus mine).bind fun _ _ _ _ => .queue id here.1
  | false => exact (informed_updateNodeStatus mine).bind fun _ _ _ _ => .fail

theorem informed_scheduleNode (covers : ∀ fact, x.knows fact → known fact) :
    (x.scheduleNode ext newlyQueued node).Informed knowledge
      (fun result _ => x.Visit newlyQueued node result.1 result.2) known := by
  have skip : ∀ reason, (x.markNodeSkipped node reason >>= fun x => pure (x, newlyQueued)).Informed knowledge
      (fun result _ => x.Visit newlyQueued node result.1 result.2) known := by
    refine fun reason => (informed_markNodeSkipped reason covers).bind ?_
    rintro _ _ - rfl
    exact .skip
  unfold Execution.scheduleNode
  split
  · exact .keep
  · split
    · exact skip _
    · split
      · exact .keep
      · split
        · exact skip _
        · split
          · exact skip _
          · exact informed_startNode covers

end

/-! ### The workers and the monitor -/

theorem informed_pickLocalTask :
    pickLocalTask.Informed knowledge
      (fun picked later => ∀ task, picked = some task → later (.node task.jobRunId task.nodeRunId)) known := by
  refine (informed_fetch (.queuedTask localAgentId)).bind fun task first _ taught => ?_
  cases task with
  | none => rintro _ ⟨⟩
  | some task =>
    have here : first (.node task.jobRunId task.nodeRunId) := taught _ rfl
    refine (informed_run (by exact fun _ needed => needed.elim)).bind fun _ later keeps _ => ?_
    refine (informed_nodeEvent (keeps _ here)).bind fun _ after grows _ => ?_
    rintro _ ⟨⟩
    exact grows _ (keeps _ here)

theorem informed_executeLocalTask (task : Task) (here : known (.node task.jobRunId task.nodeRunId)) :
    (executeLocalTask ext settings task).Informed knowledge (fun _ _ => True) known := by
  refine (informed_humble (within_loadOutputs humble_reads task)).bind fun outputs first one _ => ?_
  have process : ∀ node, (runProcess node : Proc Sig AnyError _).Within Humble fun _ => True :=
    fun node => within_call humble_reads rfl fun _ => trivial
  refine (informed_humble (process _)).bind fun outcome second two _ => ?_
  refine (informed_humble (within_fetch humble_reads (.maxSequence task.jobRunId) rfl)).bind fun sequence third three _ => ?_
  have still := three _ (two _ (one _ here))
  refine (informed_logs sequence (outcomeLogs outcome) still).bind fun _ fourth four _ => ?_
  refine (informed_humble (within_checkAfter humble_reads _ _ _)).bind fun results fifth five _ => ?_
  refine (informed_localArtifacts task results (five _ (four _ still))).bind fun _ sixth six _ => ?_
  refine (informed_run (by exact fun _ needed => needed.elim)).bind fun _ last seven _ => ?_
  exact informed_nodeEvent (seven _ (six _ (five _ (four _ still))))

theorem informed_checkAgentHeartbeats :
    checkAgentHeartbeats.Informed knowledge
      (fun nodes later => ∀ node ∈ nodes, later (.node node.jobRunId node.id)) known := by
  refine (informed_run (by exact fun _ needed => needed.elim)).bind fun _ later _ _ => ?_
  have expires : (execute (.agents .expire) : Proc Sig AnyError Nat).Within Humble fun _ => True :=
    within_execute fun fact needed => needed.elim
  refine (informed_humble expires).bind fun updated after _ _ => ?_
  split
  · refine (informed_fetch .offlineNodes).mono (fun _ holds => holds) ?_
    exact fun nodes before after grows _ taught node listed => grows _ (taught _ ⟨node, listed, rfl⟩)
  · exact fun node listed => by cases listed

theorem informed_sweepNode (node : OfflineNodeRun) (here : known (.node node.jobRunId node.id)) :
    (sweepNode node).Informed knowledge (fun _ _ => True) known :=
  (informed_run (by exact fun _ needed => needed.elim)).bind fun _ _ keeps _ => informed_nodeEvent (keeps _ here)

/-! ### Runs -/

theorem informed_createRun [FromSql E] {run : NewRun} (covered : ∀ fact, (Op.transact (.createRun run)).needs fact → known fact) :
    (commit (.createRun run) : Proc Sig E StartRunResponse).Informed knowledge (fun _ _ => True) known :=
  ⟨covered, fun reply => by cases reply <;> trivial⟩

theorem informed_cronJobs :
    cronJobs.Informed knowledge (fun listed later => ∀ job ∈ listed.1, later (.definition job.id job.jobId)) known := by
  refine (informed_fetch .cronJobs).bind fun jobs later _ taught => ?_
  refine ⟨fun fact needed => needed.elim, fun now job member => ?_⟩
  exact .inl (taught _ ⟨job, member, rfl⟩)

theorem informed_triggerCronJob (now : Nat) (job : CronJob) (here : known (.definition job.id job.jobId)) :
    (triggerCronJob ext now job).Informed knowledge (fun _ _ => True) known := by
  unfold triggerCronJob
  split
  · trivial
  · split
    · refine ⟨fun fact needed => needed.elim, fun reply => ?_⟩
      cases reply with
      | error why => trivial
      | ok definition => exact (informed_createRun fun fact needed => by cases needed; exact .inl here).bind fun _ _ _ _ => trivial
    · trivial

theorem informed_enabledJob (jobId : String) :
    (enabledJob jobId).Informed knowledge (fun job later => later (.definition job.id job.jobId)) known := by
  refine (informed_fetch (.jobForRun jobId)).bind fun job later _ taught => ?_
  cases job with
  | none => trivial
  | some job =>
    dsimp only
    split
    · exact taught _ rfl
    · trivial

theorem informed_startRun (jobId : String) (payload : StartRunRequest) :
    (startRun ext jobId payload).Informed knowledge (fun answer _ => answer.plain = true) known := by
  refine (informed_enabledJob jobId).bind fun job first _ here => ?_
  dsimp only
  split
  · trivial
  · refine (informed_humble (within_loadOrReject humble_reads _)).bind fun definition second two _ => ?_
    refine (informed_humble (within_lift _)).bind fun resolved third three _ => ?_
    refine (informed_humble (within_reads humble_reads rfl)).bind fun keys fourth four _ => ?_
    refine (informed_humble (within_lift _)).bind fun _ fifth five _ => ?_
    refine (informed_createRun fun fact needed => ?_).bind fun _ _ _ _ => rfl
    cases needed
    exact five _ (four _ (three _ (two _ here)))

theorem informed_webhookTrigger (jobId : String) (payload : Option WebhookPayload) :
    (webhookTrigger ext jobId payload).Informed knowledge (fun answer _ => answer.plain = true) known := by
  refine (informed_enabledJob jobId).bind fun job first _ here => ?_
  refine (informed_humble (within_loadOrReject humble_reads _)).bind fun definition second two _ => ?_
  dsimp only
  split
  · trivial
  · refine (informed_humble (within_lift _)).bind fun resolved third three _ => ?_
    refine (informed_createRun fun fact needed => ?_).bind fun _ _ _ _ => rfl
    cases needed
    exact three _ (two _ here)

theorem informed_rerunRun (runId : Nat) :
    (rerunRun runId).Informed knowledge (fun answer _ => answer.plain = true) known := by
  refine (informed_fetch (.runForRerun runId)).bind fun source first _ taught => ?_
  cases source with
  | none => trivial
  | some source =>
    refine (informed_createRun fun fact needed => ?_).bind fun _ _ _ _ => rfl
    cases needed
    exact taught _ rfl

/-! ### The agent API -/

theorem informed_nodeJobRun (id : Nat) (missing : ApiError) :
    (nodeJobRun id missing).Informed knowledge (fun runId later => later (.node runId id)) known := by
  refine (informed_fetch (.nodeJobRun id)).bind fun runId first _ taught => ?_
  cases runId with
  | none => trivial
  | some runId => exact taught _ rfl

theorem informed_pollTask (headers : Headers) :
    (pollTask ext headers).Informed knowledge (fun answer later => ∀ task outputs, answer = .picked task outputs →
      later (.node task.jobRunId task.nodeRunId)) known := by
  refine (informed_humble (within_authenticateAgent humble_reads ext headers)).bind fun agentId _ _ _ => ?_
  refine (informed_fetch (.agentLabels agentId)).bind fun _ _ _ _ => ?_
  refine (informed_fetch (.queuedTask agentId)).bind fun task first _ taught => ?_
  cases task with
  | none => rintro _ _ ⟨⟩
  | some task =>
    refine (informed_humble (within_loadOutputs humble_reads task)).bind fun outputs second two _ => ?_
    refine (informed_run (by exact fun _ needed => needed.elim)).bind fun _ third three _ => ?_
    rintro _ _ ⟨⟩
    exact three _ (two _ (taught _ rfl))

theorem informed_reportResult (headers : Headers) (payload : ReportResultRequest) :
    (reportResult ext headers payload).Informed knowledge (fun answer _ => answer.plain = true) known := by
  refine (informed_humble (within_authenticateAgent humble_reads ext headers)).bind fun agentId _ _ _ => ?_
  refine (informed_fetch (.assignedAgent payload.nodeRunId)).bind fun assigned _ _ _ => ?_
  split
  · trivial
  · split
    · trivial
    · refine (informed_nodeJobRun payload.nodeRunId _).bind fun runId first _ here => ?_
      refine (informed_run (by exact fun _ needed => needed.elim)).bind fun _ second two _ => ?_
      refine (informed_nodeEvent (two _ here)).bind fun _ third three _ => ?_
      exact (informed_artifacts _ (three _ (two _ here))).bind fun _ _ _ _ => rfl

theorem informed_reportLogs (headers : Headers) (payload : ReportLogsRequest) :
    (reportLogs ext headers payload).Informed knowledge (fun answer _ => answer.plain = true) known := by
  refine (informed_humble (within_authenticateAgent humble_reads ext headers)).bind fun agentId _ _ _ => ?_
  refine (informed_nodeJobRun payload.nodeRunId _).bind fun runId first _ here => ?_
  refine (informed_fetch (.maxSequence runId)).bind fun sequence second two _ => ?_
  exact (informed_logs sequence payload.logs (two _ here)).bind fun _ _ _ _ => rfl

theorem informed_uploadArtifact (headers : Headers) (parts : List Part) :
    (uploadArtifact ext settings headers parts).Informed knowledge (fun answer _ => answer.plain = true) known := by
  refine (informed_humble (within_authenticateAgent humble_reads ext headers)).bind fun agentId _ _ _ => ?_
  refine (informed_humble (within_lift _)).bind fun upload _ _ _ => ?_
  refine (informed_humble (within_lift _)).bind fun nodeRunId _ _ _ => ?_
  refine (informed_humble (within_lift _)).bind fun path _ _ _ => ?_
  refine (informed_humble (within_lift _)).bind fun file _ _ _ => ?_
  refine (informed_nodeJobRun nodeRunId _).bind fun runId first _ here => ?_
  refine (informed_humble (within_reads humble_reads rfl)).bind fun written second two _ => ?_
  cases written with
  | error why => trivial
  | ok _ => exact (informed_run fun fact same => same ▸ two _ here).bind fun _ _ _ _ => rfl

theorem informed_handle (request : Request) :
    (handle ext settings request).Informed knowledge (fun answer later => ∀ task outputs, answer = .picked task outputs →
      later (.node task.jobRunId task.nodeRunId)) known := by
  have plain : ∀ program : Proc Sig ApiError Answer, program.Informed knowledge (fun answer _ => answer.plain = true) known →
      program.Informed knowledge (fun answer later => ∀ task outputs, answer = .picked task outputs →
        later (.node task.jobRunId task.nodeRunId)) known := by
    intro program informed
    refine informed.mono (fun _ holds => holds) ?_
    rintro _ before after - - isPlain task outputs rfl
    cases isPlain
  cases request with
  | startRun jobId payload => exact plain _ (informed_startRun jobId payload)
  | webhookTrigger jobId payload => exact plain _ (informed_webhookTrigger jobId payload)
  | rerunRun runId => exact plain _ (informed_rerunRun runId)
  | pollTask headers => exact informed_pollTask headers
  | reportResult headers payload => exact plain _ (informed_reportResult headers payload)
  | reportLogs headers payload => exact plain _ (informed_reportLogs headers payload)
  | uploadArtifact headers parts => exact plain _ (informed_uploadArtifact headers parts)
  | _ =>
    refine plain _ ((informed_humble (within_handler ext settings _ humble_reads ?_ ?_ ?_)).mono (fun _ holds => holds) ?_)
    · intro write made
      cases write <;> first | exact fun _ needed => needed | cases made
    · intro transaction made
      cases transaction <;> first | exact fun _ needed => needed | cases made
    · rintro _ _ ⟨⟩
    · rintro answer before after - - ⟨⟨_, ⟨⟩⟩ | isPlain, -⟩
      exact isPlain

/-! ### All blocks -/

theorem informed_otherwise {point : Point} {body : Proc Sig AnyError Point} (unaware : ∀ fact, ¬point.knows fact)
    (informed : body.Informed knowledge (fun next later => ∀ fact, next.knows fact → later fact) known) :
    (otherwise point body).Informed knowledge (fun next later => ∀ fact, next.knows fact → later fact) known := by
  refine informed.attempt.bind fun outcome later _ arrives => ?_
  cases outcome with
  | error why => exact fun fact knows => absurd knows (unaware fact)
  | ok next => exact arrives next rfl

theorem informed_recover {runId : Nat} {body : Proc Sig AnyError Point}
    (informed : body.Informed knowledge (fun next later => ∀ fact, next.knows fact → later fact) known) :
    (recover runId body).Informed knowledge (fun next later => ∀ fact, next.knows fact → later fact) known := by
  refine informed.attempt.bind fun outcome later _ arrives => ?_
  cases outcome with
  | ok next => exact arrives next rfl
  | error why =>
    have failed : (failRunBeforeStart runId why.chain).Informed knowledge (fun _ _ => True) later := by
      refine (informed_run (by exact fun _ needed => needed.elim)).bind fun _ _ _ _ => informed_run ?_
      rintro fact ⟨_, same, -⟩
      cases same
    exact failed.attempt.bind fun _ _ _ _ fact knows => knows.elim

theorem informed_respond {body : Proc Sig ApiError Answer}
    (informed : body.Informed knowledge (fun answer later => ∀ task outputs, answer = .picked task outputs →
      later (.node task.jobRunId task.nodeRunId)) known) :
    (respond body).Informed knowledge (fun next later => ∀ fact, next.knows fact → later fact) known := by
  refine informed.attempt.bind fun outcome later _ arrives => ?_
  cases outcome with
  | error why => exact fun fact knows => knows.elim
  | ok answer =>
    cases answer with
    | response response => exact fun fact knows => knows.elim
    | picked task outputs =>
      rintro fact rfl
      exact arrives _ rfl task outputs rfl

theorem visit_knows {x x' : Execution} {newlyQueued newlyQueued' : List (String × Nat)} {node : ResolvedNodeDefinition}
    (visits : x.Visit newlyQueued node x' newlyQueued') : x'.knows = x.knows := by
  cases visits <;> rfl

/-- Every block makes do with what its control point knows, and hands on what the next one needs. -/
theorem informed_block (point : Point) (covers : ∀ fact, point.knows fact → known fact) :
    (block ext settings point).Informed knowledge (fun next later => ∀ fact, next.knows fact → later fact) known := by
  cases point with
  | idle => exact covers
  | schedulerTick =>
    refine informed_otherwise (fun _ knows => knows) ?_
    refine (informed_fetch .nextQueuedRun).bind fun queued _ _ _ => ?_
    cases queued <;> exact fun fact knows => knows.elim
  | executeRun queued =>
    exact informed_recover ((informed_prepareRun queued).bind fun x later _ made => made)
  | scheduling x =>
    refine informed_recover ((informed_humble (x.within_observeCancel humble_reads)).bind ?_)
    rintro _ later keeps ⟨⟨canceled, rfl⟩, -⟩ fact knows
    exact keeps fact (covers fact knows)
  | pass x newlyQueued todo =>
    cases todo with
    | nil =>
      unfold block
      dsimp only
      split <;> exact covers
    | cons node todo =>
      refine informed_recover ((informed_scheduleNode covers).bind fun result later keeps visits => ?_)
      intro fact knows
      exact keeps fact (covers fact ((congrFun (visit_knows visits) fact).mp knows))
  | waiting x => exact ⟨fun fact needed => needed.elim, fun keys fact knows => .inl (covers fact knows)⟩
  | polling x todo =>
    cases todo with
    | nil =>
      refine informed_recover ((informed_humble (within_isCancelRequested humble_reads x.run.id)).bind ?_)
      intro canceled later keeps _
      split <;> exact fun fact knows => keeps fact (covers fact knows)
    | cons key todo =>
      refine informed_recover ?_
      unfold pollPoint
      split
      · exact covers
      · refine (informed_humble (Execution.within_pollNode humble_reads _)).bind fun outcome later keeps _ => ?_
        cases outcome <;> exact fun fact knows => keeps fact (covers fact knows)
  | finalizing x =>
    exact informed_recover ((informed_finalizeJob x.run.id _).bind fun _ _ _ _ fact knows => knows.elim)
  | workerTick =>
    refine informed_otherwise (fun _ knows => knows) (informed_pickLocalTask.bind fun picked later _ taught => ?_)
    cases picked with
    | none => exact fun fact knows => knows.elim
    | some task =>
      rintro fact rfl
      exact taught task rfl
  | pickedLocal task => exact covers
  | localTask task =>
    exact informed_otherwise (fun _ knows => knows)
      ((informed_executeLocalTask task (covers _ rfl)).bind fun _ _ _ _ fact knows => knows.elim)
  | monitorTick =>
    refine informed_otherwise (fun _ knows => knows) (informed_checkAgentHeartbeats.bind fun nodes later _ taught => ?_)
    rintro fact ⟨node, listed, rfl⟩
    exact taught node listed
  | sweep todo =>
    cases todo with
    | nil => exact fun fact knows => knows.elim
    | cons node todo =>
      have here := covers _ ⟨node, List.mem_cons_self, rfl⟩
      refine informed_otherwise (fun _ knows => knows) ((informed_sweepNode node here).bind fun _ later keeps _ => ?_)
      rintro fact ⟨other, listed, rfl⟩
      exact keeps _ (covers _ ⟨other, List.mem_cons_of_mem _ listed, rfl⟩)
  | cronTick =>
    refine informed_otherwise (fun _ knows => knows) (informed_cronJobs.bind fun listed later _ taught => ?_)
    rintro fact ⟨job, member, rfl⟩
    exact taught job member
  | cron now todo =>
    cases todo with
    | nil => exact fun fact knows => knows.elim
    | cons job todo =>
      refine informed_otherwise (fun _ knows => knows) ?_
      refine (informed_triggerCronJob now job (covers _ ⟨job, List.mem_cons_self, rfl⟩)).bind fun _ later keeps _ => ?_
      rintro fact ⟨other, listed, rfl⟩
      exact keeps _ (covers _ ⟨other, List.mem_cons_of_mem _ listed, rfl⟩)
  | received request => exact informed_respond (informed_handle request)
  | picked task outputs =>
    refine informed_respond ((informed_nodeEvent (covers _ rfl)).bind fun _ _ _ _ => ?_)
    rintro _ _ ⟨⟩
  | responded response => exact fun fact knows => knows.elim

end Facts

end PostJen.Server
