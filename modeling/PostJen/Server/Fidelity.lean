import PostJen.Foundations.Json
import PostJen.Server.AtRest
import PostJen.Server.Reruns
import PostJen.Server.Admission
import PostJen.Server.Agent
import PostJen.Server.Batches

/-! What a worker makes of a node of the definition.

The node passes through the inheritance of the definition, the parameters and
the secrets of its run, the columns of its row and a decoder of each worker.
Only its outputs are read from the definition file again.
-/

set_option autoImplicit false

open PostJen.Foundations PostJen.Core

namespace PostJen.Server

/-! ## Tasks and nodes -/

/-- `serde_json` reads back what it has written. -/
structure Decodes (ext : External) : Prop where
  strings : ∀ texts, ext.decodeStrings (ext.encodeStrings texts) = some texts
  map : ∀ map, ∃ read, ext.decodeMap (ext.encodeMap map) = some read ∧ ∀ key, read.lookup key = map.lookup key

/-- The node as it was declared, with what it inherits. -/
structure Rebuilt (definition : JobDefinition) (source : NodeDefinition) (params : StringMap String)
    (reveals : String → String → Prop) (built : ResolvedNodeDefinition) : Prop where
  program : built.program = trim source.program
  args : built.args = source.args.getD []
  workingDir : source.workingDir.or (definition.defaults.bind (·.workingDir)) = some built.workingDir
  timeoutSec : built.timeoutSec = source.timeoutSec.getD ((definition.defaults.bind (·.timeoutSec)).getD 1800)
  outputs : built.outputs = (source.outputs.getD []).map fun output => ⟨output.path, output.required.getD true⟩
  secret : ∀ key ∈ source.secrets.getD [], ∃ value, reveals key value ∧ built.env.lookup key = some value
  env : ∀ key, key ∉ source.secrets.getD [] → built.env.lookup key =
    (((source.env.getD ∅).lookup key).or (((definition.defaults.bind (·.env)).getD ∅).lookup key)).or (params.lookup key)

def Unedited (definition : ResolvedJobDefinition) : (op : Op) → op.Reply → Prop
  | .load _, reply => reply = .ok definition
  | _, _ => True

def Op.starts : Op → Option ResolvedNodeDefinition
  | .process node => some node
  | _ => none

def AgentOp.starts : AgentOp → Option ResolvedNodeDefinition
  | .process node => some node
  | _ => none

structure Launches (ext : External) (settings : Settings) (definition : ResolvedJobDefinition) (task : Task)
    (built : ResolvedNodeDefinition → Prop) : Prop where
  locally : (executeLocalTask ext settings task).Meets (Unedited definition) Op.starts built
  remotely : ∀ headers outputs complaint token,
    (pollTask ext headers).Ends (Unedited definition) (.picked task outputs) →
    (AgentWorker.executeTask ext complaint token (task.info outputs)).Meets (fun _ _ => True) AgentOp.starts built

def Db.isRow (db : Db) (runId : Nat) (nodeId : String) (id : Nat) : Prop :=
  ∃ row, db.nodeRuns.find id = some row ∧ row.jobRunId = runId ∧ row.nodeId = nodeId

/-- A queued run that nothing prevents from being prepared. -/
structure Executable (ext : External) (settings : Settings) (s : State) (queued : QueuedRun) (definition : JobDefinition) :
    Prop where
  named : s.db.Names queued
  contents : ∃ contents, s.files queued.definitionPath = some contents ∧ ext.parseYaml contents = .ok definition
  accepted : ∃ resolved, definition.resolve = .ok resolved
  owned : definition.id = queued.jobId
  inRange : ∀ source ∈ definition.nodes, InRange (definition.effectiveTimeout source)
  fresh : ∀ id row, s.db.nodeRuns.find id = some row → row.jobRunId ≠ queued.id
  keyed : settings.secretKey.isSome = true
  secrets : ∀ source ∈ definition.nodes, ∀ name ∈ source.secrets.getD [], ∃ value, s.db.Provides ext settings name value

/-- An execution of the preparation alone, without a failure outside the server. -/
def SoloPreparation (ext : External) (settings : Settings) (queued : QueuedRun) (s : State)
    (outcome : Except AnyError Execution) (s' : State) : Prop :=
  ((prepareRun ext settings queued).attempt (F := Empty)).Returns (fun op : Op => op.unfailing ext) s outcome s'

section
variable (ext : External) (settings : Settings) (start : Config)

def Prepared (history : List Label) (c : Config) (x : Execution) : Prop :=
  ∃ contents definition resolved,
    (system ext settings).Happened everything start (Loads ext x.run contents resolved) history ∧
    ext.parseYaml contents = .ok definition ∧ definition.resolve = .ok resolved ∧
    (x.nodes.map (·.id)).Perm (definition.nodes.map (·.id)) ∧
    ∀ source ∈ definition.nodes, ∃! id, c.state.db.isRow x.run.id source.id id

/-- The row of the task was inserted for a node that the definition declares, and either worker rebuilds that node. -/
def Conveyed (history : List Label) (task : Task) : Prop :=
  ∃ (provision : Provision) (earlier : List Label) (before : Config) (definition : JobDefinition) (source : NodeDefinition),
    Inserted ext settings everything start task.nodeRunId (newNodeRun ext provision.queued.id provision.node) earlier before
      history ∧
    provision.Valid ext settings everything start earlier before ∧
    task.jobRunId = provision.queued.id ∧ task.definitionPath = provision.queued.definitionPath ∧
    ext.parseYaml provision.contents = .ok definition ∧ definition.resolve = .ok provision.definition ∧
    source ∈ definition.nodes ∧ source.id = task.nodeId ∧
    Launches ext settings provision.definition task (Rebuilt definition source (storedParams ext provision.paramsJson)
      (Provides ext settings everything start earlier before))

/-- What `execute_run` makes of a definition, and what the workers make of its rows. -/
structure TaskFidelity (history : List Label) (c : Config) : Prop where
  ends : ∀ queued, ∃ outcome s', SoloPreparation ext settings queued c.state outcome s'
  creates : ∀ queued definition outcome s', Executable ext settings c.state queued definition →
    SoloPreparation ext settings queued c.state outcome s' →
    (∃ x, outcome = .ok x) ∧ ∀ source ∈ definition.nodes, ∃! id, s'.db.isRow queued.id source.id id
  rows : ∀ x, c.ended .scheduler = some (.scheduling x) → Prepared ext settings start history c x
  tasks : settings.secretKey.isSome = true → ∀ agentId task, some task ∈ (Select.queuedTask agentId).answers c.state.db →
    Conveyed ext settings start history task

end

namespace Fidelity

variable {ext : External} {settings : Settings} {start c after : Config} {label : Label} {history : List Label}

/-! ## One row for each node of a run -/

def Distinct (db : Db) : Prop :=
  ∀ runId nodeId id id', db.isRow runId nodeId id → db.isRow runId nodeId id' → id = id'

theorem isRow_keeps {before after : Db} (kept : before.Keeps after) {runId id : Nat} {nodeId : String}
    (isRow : before.isRow runId nodeId id) : after.isRow runId nodeId id := by
  obtain ⟨row, found, ofRun, ofNode⟩ := isRow
  obtain ⟨row', found', same⟩ := kept.nodes id row found
  refine ⟨row', found', ?_, ?_⟩
  · show row'.snapshot.jobRunId = runId
    rw [same]
    exact ofRun
  · show row'.snapshot.nodeId = nodeId
    rw [same]
    exact ofNode

theorem insertNode_unique {new : NewNodeRun} {reply : Except SqlError Nat} {before after : State}
    (ran : (Op.write (.insertNode new)).exec ext before reply after)
    (inserted : after.db.nodeRuns = before.db.nodeRuns.insert (new.row before.now)) (other : Nat) :
    ¬before.db.isRow new.jobRunId new.nodeId other := by
  rintro ⟨row, found, ofRun, ofNode⟩
  have taken : (before.db.nodeRuns.rows.any fun row =>
      row.2.jobRunId = new.jobRunId && row.2.nodeId = new.nodeId) = true :=
    List.any_eq_true.mpr ⟨(other, row), Serial.find_eq_some.mp found, by simp [ofRun, ofNode]⟩
  have same : after = before := by
    rcases exec_write ran with ⟨-, same⟩ | ⟨result, db, applied, -⟩
    · exact same
    · simp only [Write.apply, taken, if_true] at applied
      split at applied <;> cases applied
  rw [same] at inserted
  have next : before.db.nodeRuns.find before.db.nodeRuns.next = some (new.row before.now) := by
    conv_lhs => rw [inserted]
    rw [Serial.find_insert, ← inserted, if_pos rfl]
  exact absurd (Serial.lt_next next) (lt_irrefl _)

theorem exec_isRow {op : Op} {before after : State} {reply : op.Reply} (ran : op.exec ext before reply after)
    {runId id : Nat} {nodeId : String} (isRow : after.db.isRow runId nodeId id) :
    before.db.isRow runId nodeId id ∨
      id = before.db.nodeRuns.next ∧ ∀ other, ¬before.db.isRow runId nodeId other := by
  obtain ⟨row, found, ofRun, ofNode⟩ := isRow
  rcases exec_nodeRuns ran with same | ⟨other, change, -, updated⟩ | ⟨new, rfl, inserted⟩
  · rw [same] at found
    exact .inl ⟨row, found, ofRun, ofNode⟩
  · rw [updated, Serial.find_updateAt] at found
    split at found
    · obtain ⟨old, there, rfl⟩ := Option.map_eq_some_iff.mp found
      have same := change.apply_snapshot before.now old
      have sameRun : (change.apply before.now old).jobRunId = old.jobRunId := congrArg (·.jobRunId) same
      have sameNode : (change.apply before.now old).nodeId = old.nodeId := congrArg (·.nodeId) same
      exact .inl ⟨old, there, sameRun ▸ ofRun, sameNode ▸ ofNode⟩
    · exact .inl ⟨row, found, ofRun, ofNode⟩
  · have unique := insertNode_unique ran inserted
    rw [inserted, Serial.find_insert] at found
    split at found
    · rename_i isNext
      cases found
      subst ofRun ofNode
      exact .inr ⟨isNext, unique⟩
    · exact .inl ⟨row, found, ofRun, ofNode⟩

theorem distinct_exec {op : Op} {before after : State} {reply : op.Reply} (ran : op.exec ext before reply after)
    (distinct : Distinct before.db) : Distinct after.db := by
  intro runId nodeId id id' isRow isRow'
  rcases exec_isRow ran isRow with old | ⟨rfl, none⟩
  · rcases exec_isRow ran isRow' with old' | ⟨-, none⟩
    · exact distinct runId nodeId id id' old old'
    · exact absurd old (none id)
  · rcases exec_isRow ran isRow' with old' | ⟨rfl, -⟩
    · exact absurd old' (none id')
    · rfl

theorem reaches_distinct {admits : Config → Label → Prop} (none : ∀ id, start.state.db.nodeRuns.find id = none)
    (reached : (system ext settings).Reaches admits start c) : Distinct c.state.db := by
  refine reached.invariant (fun c => Distinct c.state.db) ?_ ?_
  · rintro runId nodeId id id' ⟨row, found, -⟩
    rw [none] at found
    cases found
  · intro before label after distinct _ moved
    rcases step_db moved with ⟨same, -⟩ | ⟨slot, choice, op, reply, -, -, ran⟩ | ⟨hostname, affected, -, registered⟩
    · rw [same]
      exact distinct
    · exact distinct_exec ran distinct
    · obtain ⟨agents, same⟩ := registered_agents registered
      rw [same]
      exact distinct

theorem exists_unique_row {db : Db} (distinct : Distinct db) {runId : Nat} {nodeId : String}
    (some : ∃ id, db.isRow runId nodeId id) : ∃! id, db.isRow runId nodeId id := by
  obtain ⟨id, isRow⟩ := some
  exact ⟨id, isRow, fun other isRow' => distinct runId nodeId other id isRow' isRow⟩

/-! ## Nodes of a definition -/

theorem resolved_ids {definition : JobDefinition} {resolved : ResolvedJobDefinition}
    (accepted : definition.resolve = .ok resolved) :
    (resolved.nodes.map (·.id)).Perm (definition.nodes.map (·.id)) := by
  obtain ⟨valid, order, sorted, each⟩ := JobDefinition.resolve_ok accepted
  obtain ⟨perm, -⟩ := topologicalOrder_sound (JobDefinition.validate_ok valid).1 sorted
  have inside : resolved.nodes.map (·.id) ⊆ definition.nodes.map (·.id) := by
    intro id member
    obtain ⟨node, listed, rfl⟩ := List.mem_map.mp member
    obtain ⟨source, declared, made⟩ := JobDefinition.resolve_source accepted listed
    rw [(JobDefinition.resolveNode_ok made).1]
    exact List.mem_map_of_mem declared
  refine (List.Nodup.subperm (JobDefinition.resolve_ordered accepted).1.distinct inside).perm_of_length_le ?_
  rw [← perm.length_eq, (JobDefinition.resolveNodes_ok each).length_eq, List.length_map]

theorem resolve_id {definition : JobDefinition} {resolved : ResolvedJobDefinition}
    (accepted : definition.resolve = .ok resolved) : resolved.id = definition.id := by
  simp only [JobDefinition.resolve, bind, Except.bind] at accepted
  split at accepted
  · cases accepted
  · split at accepted
    · cases accepted
    · split at accepted <;> cases accepted
      rfl

theorem ids_of_bare {nodes nodes' : List ResolvedNodeDefinition} (same : nodes.map bare = nodes'.map bare) :
    nodes.map (·.id) = nodes'.map (·.id) := by
  have ids := congrArg (List.map ResolvedNodeDefinition.id) same
  rw [List.map_map, List.map_map] at ids
  exact ids

theorem rows (run : (system ext settings).Path everything start history c)
    (idle : ∀ slot, start.threads slot = enter ext settings .idle) (none : ∀ id, start.state.db.nodeRuns.find id = none)
    {x : Execution} (ended : c.ended .scheduler = some (.scheduling x)) : Prepared ext settings start history c x := by
  obtain ⟨⟨origin, valid, sameRun, sameNodes⟩, recorded⟩ := Origins.ended_stems (idle .scheduler) run ended
  obtain ⟨definition, parsed, accepted⟩ := valid.resolves
  have ids : (x.nodes.map (·.id)).Perm (definition.nodes.map (·.id)) := by
    rw [sameNodes, ids_of_bare (Derived.bare_eq valid.derived)]
    exact resolved_ids accepted
  refine ⟨origin.contents, definition, origin.definition, ?_, parsed, accepted, ids, fun source member => ?_⟩
  · rw [sameRun]
    exact valid.loads
  · obtain ⟨node, listed, same⟩ := List.mem_map.mp (ids.mem_iff.mpr (List.mem_map_of_mem member))
    obtain ⟨id, -, row, found, snapshot⟩ := recorded node listed
    refine exists_unique_row (reaches_distinct none run.reaches) ⟨id, row, found, congrArg (·.jobRunId) snapshot, ?_⟩
    rw [← same]
    exact congrArg (·.nodeId) snapshot

/-! ## The layers of a node -/

theorem resolveNode_layers {definition : JobDefinition} {source : NodeDefinition} {base : ResolvedNodeDefinition}
    (made : JobDefinition.resolveNode (definition.defaults.getD {}) source = .ok base) :
    base.program = trim source.program ∧ base.args = source.args.getD [] ∧
    source.workingDir.or (definition.defaults.bind (·.workingDir)) = some base.workingDir ∧
    base.timeoutSec = source.timeoutSec.getD ((definition.defaults.bind (·.timeoutSec)).getD 1800) ∧
    base.outputs = (source.outputs.getD []).map (fun output => ⟨output.path, output.required.getD true⟩) ∧
    base.secrets = source.secrets.getD [] ∧
    ∀ key, base.env.lookup key =
      ((source.env.getD ∅).lookup key).or (((definition.defaults.bind (·.env)).getD ∅).lookup key) := by
  have inherits : ∀ {A : Type} (field : JobDefaults → Option A), field {} = none →
      field (definition.defaults.getD {}) = definition.defaults.bind field := by
    intro A field none
    cases definition.defaults with
    | none => exact none
    | some given => rfl
  rw [← inherits (·.workingDir) rfl, ← inherits (·.timeoutSec) rfl, ← inherits (·.env) rfl]
  unfold JobDefinition.resolveNode at made
  split at made
  · rename_i dir found
    cases made
    refine ⟨rfl, rfl, found, rfl, rfl, rfl, fun key => ?_⟩
    cases source.env with
    | none => rw [Option.getD_none, AList.lookup_empty, Option.none_or]
    | some own => exact lookup_extendEnv _ own key
  · cases made

/-- A node as it is resolved, provided with parameters and secrets, written to a row and read back. -/
theorem rebuilt {definition : JobDefinition} {source : NodeDefinition} {base node built : ResolvedNodeDefinition}
    {paramsJson : Option String} {reveals : String → String → Prop} (keyed : settings.secretKey.isSome = true)
    (made : JobDefinition.resolveNode (definition.defaults.getD {}) source = .ok base)
    (injected : Injected settings reveals (withParam ext paramsJson base) node)
    (program : built.program = node.program) (args : built.args = node.args) (workingDir : built.workingDir = node.workingDir)
    (timeoutSec : built.timeoutSec = node.timeoutSec) (outputs : built.outputs = base.outputs)
    (env : ∀ key, built.env.lookup key = node.env.lookup key) :
    Rebuilt definition source (storedParams ext paramsJson) reveals built := by
  obtain ⟨ownProgram, ownArgs, ownDir, ownTimeout, ownOutputs, ownSecrets, ownEnv⟩ := resolveNode_layers made
  have bared : bare node = bare base := injected.1.trans (bare_withParam ext paramsJson base)
  have sameProgram : node.program = base.program := congrArg (·.program) bared
  have sameArgs : node.args = base.args := congrArg (·.args) bared
  have sameDir : node.workingDir = base.workingDir := congrArg (·.workingDir) bared
  have sameTimeout : node.timeoutSec = base.timeoutSec := congrArg (·.timeoutSec) bared
  have named : (withParam ext paramsJson base).secrets = source.secrets.getD [] :=
    (congrArg (·.secrets) (bare_withParam ext paramsJson base)).trans ownSecrets
  have layers := fun key => injected.lookup key
  rw [named] at layers
  refine ⟨program.trans (sameProgram.trans ownProgram), args.trans (sameArgs.trans ownArgs), ?_,
    timeoutSec.trans (sameTimeout.trans ownTimeout), outputs.trans ownOutputs, fun key listed => ?_, fun key unlisted => ?_⟩
  · rw [workingDir, sameDir]
    exact ownDir
  · rw [env key]
    rcases layers key with ⟨-, -, value, revealed, found⟩ | ⟨absent | unlisted, -⟩
    · exact ⟨value, revealed, found⟩
    · rw [absent] at keyed
      cases keyed
    · exact absurd listed unlisted
  · rw [env key, ← ownEnv key, ← lookup_withParam]
    rcases layers key with ⟨-, listed, -⟩ | ⟨-, same⟩
    · exact absurd listed unlisted
    · exact same

def declared (definition : ResolvedJobDefinition) (nodeId : String) : List ResolvedNodeOutput :=
  ((definition.nodes.find? fun node => node.id = nodeId).map (·.outputs)).getD []

theorem declared_eq {contents : String} {definition : ResolvedJobDefinition} (resolves : ext.Resolves contents definition)
    {base : ResolvedNodeDefinition} (member : base ∈ definition.nodes) : declared definition base.id = base.outputs := by
  have present : (definition.nodes.find? fun node => node.id = base.id).isSome = true :=
    List.find?_isSome.mpr ⟨base, member, by simp⟩
  obtain ⟨node, found⟩ := Option.isSome_iff_exists.mp present
  have same : node.id = base.id := by simpa using List.find?_some found
  rw [declared, found, Reruns.base_unique resolves (List.mem_of_find?_eq_some found) member same]
  rfl

theorem decodeEnv_stored (decodes : Decodes ext) (env : StringMap String) (key : String) :
    (decodeEnv ext (if env.entries = [] then none else some (ext.encodeMap env))).lookup key = env.lookup key := by
  split
  · rename_i empty
    have none : env = ∅ := AList.ext empty
    rw [none]
    rfl
  · obtain ⟨read, decoded, same⟩ := decodes.map env
    rw [decodeEnv, Option.bind_some, decoded]
    exact same key

/-! ## The workers -/

theorem meets_executeLocalTask {definition : ResolvedJobDefinition} {task : Task} {built : ResolvedNodeDefinition → Prop}
    (holds : built (task.node ((ext.decodeStrings task.argsJson).getD []) (decodeEnv ext task.envJson)
      (declared definition task.nodeId))) :
    (executeLocalTask ext settings task).Meets (Unedited definition) Op.starts built := by
  refine .inr ⟨rfl, ?_⟩
  rintro _ rfl
  exact .inl ⟨_, rfl, holds⟩

theorem meets_executeTask {complaint : String → String} {token : String} {info : TaskInfo} {args : List String}
    (decoded : ext.decodeStrings info.argsJson = some args) {built : ResolvedNodeDefinition → Prop}
    (holds : built (AgentWorker.node info args (decodeEnv ext info.envJson))) :
    (AgentWorker.executeTask ext complaint token info).Meets (fun _ _ => True) AgentOp.starts built := by
  unfold AgentWorker.executeTask AgentWorker.decodeArgs
  rw [decoded]
  exact .inl ⟨_, rfl, holds⟩

theorem poll_outputs {definition : ResolvedJobDefinition} {headers : Headers} {task : Task}
    {outputs : List ResolvedNodeOutput}
    (ended : (pollTask ext headers).Ends (Unedited definition) (.picked task outputs)) :
    outputs = declared definition task.nodeId := by
  unfold pollTask at ended
  obtain ⟨agentId, -, ended⟩ := (Proc.ends_bind _ _ _).mp ended
  obtain ⟨labels, -, ended⟩ := (Proc.ends_bind _ _ _).mp ended
  obtain ⟨picked, -, ended⟩ := (Proc.ends_bind _ _ _).mp ended
  cases picked with
  | none => cases ended
  | some picked =>
    obtain ⟨loaded, found, ended⟩ := (Proc.ends_bind (loadOutputs picked) _ _).mp ended
    obtain ⟨_, rfl, rfl⟩ := found
    obtain ⟨_, -, same⟩ := (Proc.ends_bind (run _) _ _).mp ended
    cases same
    rfl

/-! ## Tasks -/

theorem queuedTask_columns {db : Db} {agentId : String} {task : Task}
    (member : some task ∈ (Select.queuedTask agentId).answers db) :
    ∃ id row run, db.nodeRuns.find id = some row ∧ db.jobRuns.find row.jobRunId = some run ∧
      task = ⟨id, row.jobRunId, row.nodeId, row.nodeName, row.program, row.argsJson, row.workingDir, row.envJson,
        row.timeoutSec, run.definitionPath, run.jobId⟩ := by
  obtain ⟨picked, listed, same⟩ := List.mem_map.mp member
  obtain ⟨⟨stamp, other⟩, rfl, rfl⟩ := Option.map_eq_some_iff.mp same
  obtain ⟨⟨id, node⟩, inside, found⟩ := List.mem_filterMap.mp (mem_limitOne listed)
  dsimp only at found
  split at found
  · obtain ⟨task, made, same⟩ := Option.map_eq_some_iff.mp found
    obtain ⟨run, there, rfl⟩ := Option.map_eq_some_iff.mp made
    obtain ⟨-, rfl⟩ := Prod.mk.inj same
    exact ⟨id, node, run, Serial.find_eq_some.mpr inside, there, rfl⟩
  · cases found

theorem tasks (decodes : Decodes ext) (run : (system ext settings).Path everything start history c)
    (idle : ∀ slot, start.threads slot = enter ext settings .idle) (none : ∀ id, start.state.db.nodeRuns.find id = none)
    (keyed : settings.secretKey.isSome = true) {agentId : String} {task : Task}
    (member : some task ∈ (Select.queuedTask agentId).answers c.state.db) : Conveyed ext settings start history task := by
  obtain ⟨id, row, jobRun, found, there, rfl⟩ := queuedTask_columns member
  obtain ⟨provision, earlier, before, inserted, valid, snapshot⟩ := path_provided idle none run found
  obtain ⟨definition, parsed, accepted⟩ := valid.resolves
  obtain ⟨source, declares, resolved⟩ := JobDefinition.resolve_source accepted valid.base
  have bared : bare provision.node = bare provision.base := valid.injected.1.trans (bare_withParam _ _ _)
  have sameId : provision.node.id = provision.base.id := congrArg (·.id) bared
  have rowRun : row.jobRunId = provision.queued.id := congrArg (·.jobRunId) snapshot
  have rowNode : row.nodeId = provision.base.id := Eq.trans (congrArg (·.nodeId) snapshot) sameId
  have rowProgram : row.program = provision.node.program := congrArg (·.program) snapshot
  have rowArgs : row.argsJson = ext.encodeStrings provision.node.args := congrArg (·.argsJson) snapshot
  have rowDir : row.workingDir = provision.node.workingDir := congrArg (·.workingDir) snapshot
  have rowEnv : row.envJson = if provision.node.env.entries = [] then Option.none
      else some (ext.encodeMap provision.node.env) := congrArg (·.envJson) snapshot
  have rowTimeout : row.timeoutSec = provision.node.timeoutSec := congrArg (·.timeoutSec) snapshot
  have path : jobRun.definitionPath = provision.queued.definitionPath := by
    obtain ⟨recent, choice, -, admitted, after, moved, -⟩ := inserted.split
    obtain ⟨named, again, -, path⟩ :=
      (inserted.keeps run).names (path_names (idle .scheduler) inserted.run admitted moved valid.point)
    rw [rowRun] at there
    cases there.symm.trans again
    exact path
  -- what the preparation has encoded is decoded again
  have decoded : ext.decodeStrings row.argsJson = some provision.node.args := by
    rw [rowArgs]
    exact decodes.strings _
  have env : ∀ key, (decodeEnv ext row.envJson).lookup key = provision.node.env.lookup key := by
    intro key
    rw [rowEnv]
    exact decodeEnv_stored decodes _ key
  have outputs : declared provision.definition row.nodeId = provision.base.outputs := by
    rw [rowNode]
    exact declared_eq valid.resolves valid.base
  refine ⟨provision, earlier, before, definition, source, inserted, valid, rowRun, path, parsed, accepted, declares, ?_,
    meets_executeLocalTask ?_, fun headers handed complaint token ended => meets_executeTask decoded ?_⟩
  · exact (JobDefinition.resolveNode_ok resolved).1.symm.trans rowNode.symm
  · refine rebuilt keyed resolved valid.injected rowProgram ?_ rowDir rowTimeout outputs env
    show (ext.decodeStrings row.argsJson).getD [] = provision.node.args
    rw [decoded]
    rfl
  · exact rebuilt keyed resolved valid.injected rowProgram rfl rowDir rowTimeout ((poll_outputs ended).trans outputs) env

/-! ## The preparation of a run that nothing prevents -/

def smooth (ext : External) : Discipline Sig State := Batches.alone fun op : Op => op.unfailing ext

theorem holds_smoothly {E A : Type} [FromSql E] {s : State} {query : Select} {post : A → State → Prop} {failed : E → State → Prop}
    {next : query.Row → Proc Sig E A} (answered : query.answers s.db ≠ [])
    (holds : ∀ row ∈ query.answers s.db, (next row).Holds (smooth ext) post failed s) :
    (fetch query >>= next).Holds (smooth ext) post failed s := by
  rintro _ rfl reply s' ran
  obtain ⟨rfl, row, member, rfl⟩ := Parity.unfailing_select ran answered
  exact ⟨trivial, holds row member⟩

theorem holds_written {E A : Type} [FromSql E] {s : State} {write : Write} {affected : Nat} {db : Db} {post : A → State → Prop}
    {failed : E → State → Prop} {next : Nat → Proc Sig E A} (applied : write.apply s.now s.db = .ok (affected, db))
    (holds : (next affected).Holds (smooth ext) post failed { s with db }) :
    (execute write >>= next).Holds (smooth ext) post failed s := by
  rintro _ rfl reply s' ran
  obtain ⟨rfl, rfl⟩ := Parity.unfailing_write ran applied
  exact ⟨trivial, holds⟩

variable {s : State}

theorem holds_resolveSecrets {key : String} (keyed : settings.secretKey = some key) {names : List String}
    (provided : ∀ name ∈ names, ∃ value, s.db.Provides ext settings name value) (resolved : StringMap String) :
    (resolveSecrets ext key names resolved).Holds (smooth ext) (fun _ now => now = s) (fun _ _ => False) s := by
  induction names generalizing resolved with
  | nil => rfl
  | cons name rest ih =>
    refine holds_smoothly (List.cons_ne_nil _ _) fun row member => ?_
    obtain ⟨value, key', found, keyed', present, decrypts⟩ := provided name List.mem_cons_self
    cases keyed.symm.trans keyed'
    rw [Select.answers, List.mem_singleton] at member present
    cases member.trans present.symm
    dsimp only
    rw [decrypts]
    exact ih (fun other listed => provided other (List.mem_cons_of_mem _ listed)) _

theorem holds_injectSecrets {key : String} (keyed : settings.secretKey = some key) {nodes : List ResolvedNodeDefinition}
    (provided : ∀ node ∈ nodes, ∀ name ∈ node.secrets, ∃ value, s.db.Provides ext settings name value) :
    (injectSecrets ext key nodes).Holds (smooth ext) (fun nodes' now => now = s ∧ nodes'.map bare = nodes.map bare)
      (fun _ _ => False) s := by
  induction nodes with
  | nil => exact ⟨rfl, rfl⟩
  | cons node rest ih =>
    refine (Proc.holds_bind _ _ _).mpr ((Proc.holds_attempt _ _).mpr
      ((holds_resolveSecrets keyed (provided node List.mem_cons_self) ∅).mono ?_ fun _ _ => False.elim))
    rintro secrets _ rfl
    refine (Proc.holds_bind _ _ _).mpr ((ih fun other listed => provided other (List.mem_cons_of_mem _ listed)).mono ?_
      fun _ _ => id)
    rintro others _ ⟨rfl, same⟩
    exact ⟨rfl, by rw [List.map_cons, List.map_cons, same]; rfl⟩

theorem sees : Sees ext (fun s => s) (smooth ext) where
  ran := fun _ _ _ _ ran => Batches.unfailing_exec ran
  keeps := by
    rintro before _ rfl
    exact .refl _

theorem holds_ensureNodes {runId : Nat} {nodes : List ResolvedNodeDefinition} (inRange : ∀ node ∈ nodes, InRange node.timeoutSec)
    (distinct : (nodes.map (·.id)).Nodup) (present : s.db.hasRun runId = true) (free : Admission.Free s.db runId nodes)
    (nodeIds : StringMap Nat) :
    (ensureNodes ext runId nodes nodeIds).Holds (smooth ext)
      (fun _ now => now.db.hasRun runId = true ∧ ∀ node ∈ nodes, ∃ id, now.db.isRow runId node.id id) (fun _ _ => False) s := by
  induction nodes generalizing s nodeIds with
  | nil => exact ⟨present, fun _ member => (nomatch member)⟩
  | cons node rest ih =>
    have here := inRange node List.mem_cons_self
    unfold ensureNodes
    rw [if_neg (Admission.fits_column here)]
    refine holds_written (Admission.insert_applies here present free) ?_
    have row : (Admission.inserted ext runId node s).db.isRow runId node.id s.db.nodeRuns.next :=
      ⟨_, by rw [Admission.inserted, Serial.find_insert, if_pos rfl], rfl, rfl⟩
    have others := ih (s := Admission.inserted ext runId node s)
      (fun other member => inRange other (List.mem_cons_of_mem _ member)) (List.nodup_cons.mp distinct).2 present
      (Admission.free_inserted free distinct) (nodeIds.insert node.id s.db.nodeRuns.next)
    refine (others.frame (sees.kept (fun db => db.isRow runId node.id s.db.nodeRuns.next)
      fun _ _ kept => isRow_keeps kept) row).mono ?_ ?_
    · rintro all now ⟨⟨run, rows⟩, first⟩
      refine ⟨run, fun other member => ?_⟩
      rcases List.mem_cons.mp member with rfl | later
      · exact ⟨_, first⟩
      · exact rows other later
    · exact fun _ _ failed => failed.1

theorem hasRun_keeps {before after : Db} (kept : before.Keeps after) {runId : Nat} (present : before.hasRun runId = true) :
    after.hasRun runId = true := by
  obtain ⟨run, found⟩ := Option.isSome_iff_exists.mp present
  obtain ⟨run', found', -⟩ := kept.runs runId run found
  exact Option.isSome_iff_exists.mpr ⟨run', found'⟩

theorem event_applies (event : NewEvent) (present : s.db.hasRun event.jobRunId = true) (ofJob : event.nodeRunId = none) :
    ∃ id db, (Write.event event).apply s.now s.db = .ok (id, db) := by
  simp [Write.apply, present, ofJob]

theorem holds_transition {runId : Nat} (present : s.db.hasRun runId = true) (fact : Db → Prop) (now : fact s.db)
    (stays : ∀ before after : Db, before.Keeps after → fact before → fact after) :
    (transitionJob runId .queued .running none).Holds (smooth ext) (fun _ s => fact s.db) (fun _ _ => False) s := by
  rintro s rfl reply s' ran
  have kept := exec_keeps (Batches.unfailing_exec ran)
  obtain ⟨rfl, -⟩ := Parity.unfailing_write ran rfl
  refine ⟨trivial, ?_⟩
  rintro s' rfl reply last ran
  have kept' := exec_keeps (Batches.unfailing_exec ran)
  obtain ⟨id, db, applied⟩ := event_applies
    ⟨runId, none, .job, some JobStatus.queued.text, some JobStatus.running.text, none⟩ (hasRun_keeps kept present) rfl
  obtain ⟨rfl, -⟩ := Parity.unfailing_write ran applied
  exact ⟨trivial, stays _ _ kept' (stays _ _ kept now)⟩

theorem holds_prepareRun {queued : QueuedRun} {definition : JobDefinition}
    (executable : Executable ext settings s queued definition) :
    (prepareRun ext settings queued).Holds (smooth ext)
      (fun _ now => ∀ source ∈ definition.nodes, ∃ id, now.db.isRow queued.id source.id id) (fun _ _ => False) s := by
  obtain ⟨resolved, accepted⟩ := executable.accepted
  obtain ⟨contents, found, parsed⟩ := executable.contents
  obtain ⟨key, keyed⟩ := Option.isSome_iff_exists.mp executable.keyed
  obtain ⟨jobRun, there, -⟩ := executable.named
  have present : s.db.hasRun queued.id = true := Option.isSome_iff_exists.mpr ⟨jobRun, there⟩
  have loaded : loadDefinition ext s.files queued.definitionPath = .ok resolved := by
    simp only [loadDefinition, found, parsed, accepted]
  have owned : resolved.id = queued.jobId := (resolve_id accepted).trans executable.owned
  refine (Proc.holds_bind _ _ _).mpr ?_
  rintro s rfl reply s' ran
  obtain ⟨rfl, rfl⟩ := Parity.unfailing_load ran
  refine ⟨trivial, ?_⟩
  rw [loaded]
  dsimp only
  rw [if_neg (not_not.mpr owned)]
  refine holds_smoothly (by simp [Select.answers, there]) fun paramsJson _ => ?_
  refine (Proc.holds_bind _ _ _).mpr ?_
  unfold withSecrets
  rw [keyed]
  -- parameters and secrets only touch the environment
  have bares : (withParams ext paramsJson resolved.nodes).map bare = resolved.nodes.map bare := by
    rw [withParams_eq, List.map_map]
    exact List.map_congr_left fun node _ => bare_withParam ext paramsJson node
  refine (holds_injectSecrets keyed ?_).mono ?_ fun _ _ => id
  · intro node member name named
    have listed := List.mem_map_of_mem (f := bare) member
    rw [bares] at listed
    obtain ⟨base, inside, same⟩ := List.mem_map.mp listed
    obtain ⟨source, declares, made⟩ := JobDefinition.resolve_source accepted inside
    refine executable.secrets source declares name ?_
    have secrets : node.secrets = base.secrets := congrArg (·.secrets) same.symm
    rw [← (resolveNode_layers made).2.2.2.2.2.1, ← secrets]
    exact named
  · rintro nodes _ ⟨rfl, same⟩
    have ids := ids_of_bare (same.trans bares)
    refine (Proc.holds_bind _ _ _).mpr ((holds_ensureNodes ?_ ?_ present ?_ ∅).mono ?_ fun _ _ => id)
    · intro node member
      obtain ⟨base, inside, equal⟩ := List.mem_map.mp ((same.trans bares) ▸ List.mem_map_of_mem member : bare node ∈ _)
      obtain ⟨source, declares, made⟩ := JobDefinition.resolve_source accepted inside
      have timeout : node.timeoutSec = base.timeoutSec := congrArg (·.timeoutSec) equal.symm
      rw [timeout, JobDefinition.resolveNode_timeout made]
      exact executable.inRange source declares
    · rw [ids]
      exact (JobDefinition.resolve_ordered accepted).1.distinct
    · exact fun id row found sameRun => absurd sameRun (executable.fresh id row found)
    · rintro nodeIds now ⟨run, rows⟩
      have each : ∀ source ∈ definition.nodes, ∃ id, now.db.isRow queued.id source.id id := by
        intro source declares
        have listed : source.id ∈ nodes.map (·.id) := by
          rw [ids]
          exact (resolved_ids accepted).mem_iff.mpr (List.mem_map_of_mem declares)
        obtain ⟨node, member, sameId⟩ := List.mem_map.mp listed
        rw [← sameId]
        exact rows node member
      refine (Proc.holds_bind _ _ _).mpr ((holds_transition run
        (fun db => ∀ source ∈ definition.nodes, ∃ id, db.isRow queued.id source.id id) each ?_).mono ?_ fun _ _ => id)
      · intro before after kept each source declares
        obtain ⟨id, isRow⟩ := each source declares
        exact ⟨id, isRow_keeps kept isRow⟩
      · exact fun _ _ each => each

theorem distinct_kept : (smooth ext).Kept (fun _ => True) fun s => Distinct s.db where
  stable := by
    rintro before _ rfl distinct
    exact distinct
  frame := fun _ _ _ _ _ ran => distinct_exec (Batches.unfailing_exec ran)

theorem creates {queued : QueuedRun} {definition : JobDefinition} (executable : Executable ext settings s queued definition)
    (distinct : Distinct s.db) {outcome : Except AnyError Execution} {s' : State}
    (returned : SoloPreparation ext settings queued s outcome s') :
    (∃ x, outcome = .ok x) ∧ ∀ source ∈ definition.nodes, ∃! id, s'.db.isRow queued.id source.id id := by
  obtain ⟨ends, fails⟩ := ((holds_prepareRun executable).frame distinct_kept distinct).returns (fun _ => rfl) returned
  cases outcome with
  | error why => exact absurd (fails why rfl).1 id
  | ok x =>
    obtain ⟨rows, distinct⟩ := ends x rfl
    exact ⟨⟨x, rfl⟩, fun source declares => exists_unique_row distinct (rows source declares)⟩

end Fidelity

theorem task_fidelity {ext : External} {settings : Settings} {files : String → Option String} {clock : Nat}
    {history : List Label} {c : Config} (decodes : Decodes ext)
    (run : (system ext settings).Path everything (Config.initial ext settings files clock) history c) :
    TaskFidelity ext settings (Config.initial ext settings files clock) history c where
  ends := fun _ => Proc.returns_exists Parity.unfailing_total _ _
  creates := fun _ _ _ _ executable =>
    Fidelity.creates executable (Fidelity.reaches_distinct (fun _ => rfl) run.reaches)
  rows := fun _ => Fidelity.rows run (Config.initial_idle ext settings files clock) fun _ => rfl
  tasks := fun keyed _ _ => Fidelity.tasks decodes run (Config.initial_idle ext settings files clock) (fun _ => rfl) keyed

/-! ## A task of a remote agent -/

theorem Sample.json_decodes : Decodes Sample.json where
  strings := Sample.json_strings
  map := by
    intro map
    refine ⟨JobDefinition.extendEnv ∅ map, ?_, fun key => ?_⟩
    · show (Json.decodeObject (Json.encodeObject _)).map _ = _
      rw [Json.decodeObject_encodeObject, Option.map_some, List.foldl_map]
      rfl
    · rw [lookup_extendEnv, AList.lookup_empty, Option.or_none]

namespace Sample

def shipYaml : String :=
"version: 1
id: ship
name: Ship
params:
  - name: BRANCH
    required: true
defaults:
  working_dir: /tmp
  env:
    REGION: tokyo
nodes:
  - id: push
    program: rsync
    args: [-a, dist]
    env:
      MODE: fast
    outputs:
      - path: out.txt
    target:
      labels: [test]
    secrets: [DEPLOY_KEY]
"

def ship : JobDefinition where
  version := 1
  id := "ship"
  name := "Ship"
  defaults := some { workingDir := some "/tmp", env := some (AList.insert "REGION" "tokyo" ∅) }
  params := some [⟨"BRANCH", none, true⟩]
  nodes := [{
    id := "push"
    program := "rsync"
    args := some ["-a", "dist"]
    env := some (AList.insert "MODE" "fast" ∅)
    outputs := some [⟨"out.txt", none⟩]
    target := some ⟨none, ["test"]⟩
    secrets := some ["DEPLOY_KEY"] }]

def shipping : External where
  __ := json
  parseYaml text := if text = shipYaml then .ok ship else json.parseYaml text
  sha256Hex text :=
    if text = shipYaml then "11ab74a57341f53e9b39cbee992709f8e5d7e2f06008751808cf2aecc1c1f9f6" else sha256Hex text
  encrypt := sealing.encrypt
  decrypt := sealing.decrypt

def shipFiles (path : String) : Option String := if path = "ship.yaml" then some shipYaml else none

def shipInitial : Config := Config.initial shipping keyed shipFiles 1000000

/-- A secret and an agent are there, and a run is created with a parameter and picked. -/
def shipPicked : List Label :=
  [.boot "localhost", .receive 0 (.createSecret "DEPLOY_KEY" "alpha"), .exec (.request 0) (.bytes (zeros 12))] ++
    turns (.request 0) 2 ++ registered 2 ++ serve 3 (.registerJob "ship.yaml" none) 4 ++
    serve 4 (.startRun "ship" { params := some (AList.insert "BRANCH" "main" ∅) }) 4 ++ block 1

def shipQueued : List Label := shipPicked ++ block 6 ++ block 1 ++ block 4

def shipRun : QueuedRun := ⟨1, "ship", "ship.yaml"⟩

def unprepared (s : State) : Bool :=
  (s.db.jobRuns.find 1).any (fun run => run.jobId = "ship" && run.definitionPath = "ship.yaml") &&
    (s.files "ship.yaml" = some shipYaml && (s.db.nodeRuns.rows.isEmpty &&
      ((Select.secret "DEPLOY_KEY").answers s.db).any Option.isSome))

theorem ship_executable {s : State} (here : unprepared s = true) : Executable shipping keyed s shipRun ship := by
  simp only [unprepared, Bool.and_eq_true, decide_eq_true_eq, List.isEmpty_iff] at here
  obtain ⟨named, contents, empty, stored⟩ := here
  obtain ⟨run, found, same⟩ := (Option.any_eq_true _ _).mp named
  simp only [Bool.and_eq_true, decide_eq_true_eq] at same
  obtain ⟨picked, member, present⟩ := List.any_eq_true.mp stored
  obtain ⟨row, rfl⟩ := Option.isSome_iff_exists.mp present
  have resolves : ship.resolve.toOption.isSome = true := by decide +kernel
  have parses : shipping.parseYaml shipYaml = .ok ship := by simp only [shipping, if_pos]
  refine ⟨⟨run, found, same⟩, ⟨shipYaml, contents, parses⟩, ?_, rfl, ?_, ?_, rfl, ?_⟩
  · cases resolved : ship.resolve with
    | ok definition => exact ⟨definition, rfl⟩
    | error why =>
      rw [resolved] at resolves
      cases resolves
  · intro source member
    have effective : ship.effectiveTimeout source = 1800 := by
      rw [List.mem_singleton.mp member]
      rfl
    rw [effective, InRange]
    omega
  · intro id row found
    have inside := Serial.find_eq_some.mp found
    rw [empty] at inside
    cases inside
  · intro source inside name needed
    rw [List.mem_singleton.mp inside] at needed
    rw [List.mem_singleton.mp needed]
    exact ⟨_, _, row, rfl, member, rfl⟩

end Sample

theorem task_fidelity_ship : ∃ c outcome last history c' task,
    (system Sample.shipping Sample.keyed).Reaches everything Sample.shipInitial c ∧
    SoloPreparation Sample.shipping Sample.keyed Sample.shipRun c.state outcome last ∧ (∃ x, outcome = .ok x) ∧
    (∀ source ∈ Sample.ship.nodes, ∃! id, last.db.isRow 1 source.id id) ∧
    (system Sample.shipping Sample.keyed).Path everything Sample.shipInitial history c' ∧
    some task ∈ (Select.queuedTask Sample.agentId).answers c'.state.db ∧ task.argsJson = "[\"-a\",\"dist\"]" ∧
    task.envJson =
      some "\x7b\"DEPLOY_KEY\":\"alpha\",\"BRANCH\":\"main\",\"MODE\":\"fast\",\"REGION\":\"tokyo\"\x7d" ∧
    Conveyed Sample.shipping Sample.keyed Sample.shipInitial history task := by
  have picked : (((system Sample.shipping Sample.keyed).follow (fun _ _ => true) Sample.shipInitial
      Sample.shipPicked).any fun c => Sample.unprepared c.state) = true := by decide +kernel
  have queued : (((system Sample.shipping Sample.keyed).follow (fun _ _ => true) Sample.shipInitial
      Sample.shipQueued).any fun c => ((Select.queuedTask Sample.agentId).answers c.state.db).any fun task =>
        task.any fun task => task.argsJson = "[\"-a\",\"dist\"]" && task.envJson =
          some "\x7b\"DEPLOY_KEY\":\"alpha\",\"BRANCH\":\"main\",\"MODE\":\"fast\",\"REGION\":\"tokyo\"\x7d") =
      true := by decide +kernel
  obtain ⟨c, followed, unprepared⟩ := (Option.any_eq_true _ _).mp picked
  obtain ⟨c', followed', holds⟩ := (Option.any_eq_true _ _).mp queued
  obtain ⟨found, member, holds⟩ := List.any_eq_true.mp holds
  obtain ⟨task, rfl, holds⟩ := (Option.any_eq_true _ _).mp holds
  have ⟨args, env⟩ := Bool.and_eq_true_iff.mp holds
  have reached : (system Sample.shipping Sample.keyed).Reaches everything Sample.shipInitial c :=
    (system _ _).follow_reaches (fun _ _ _ => trivial) followed
  obtain ⟨earlier, run⟩ := reached.path
  obtain ⟨history, run'⟩ := ((system _ _).follow_reaches (fun _ _ _ => trivial) followed' :
    (system Sample.shipping Sample.keyed).Reaches everything Sample.shipInitial c').path
  have decodes : Decodes Sample.shipping := ⟨Sample.json_decodes.strings, Sample.json_decodes.map⟩
  obtain ⟨outcome, last, prepared⟩ := (task_fidelity decodes run).ends Sample.shipRun
  obtain ⟨began, rows⟩ := (task_fidelity decodes run).creates Sample.shipRun Sample.ship outcome last
    (Sample.ship_executable unprepared) prepared
  exact ⟨c, outcome, last, history, c', task, reached, prepared, began, rows, run', member, of_decide_eq_true args,
    of_decide_eq_true env, (task_fidelity decodes run').tasks rfl Sample.agentId task member⟩

end PostJen.Server

