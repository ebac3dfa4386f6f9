import PostJen.Server.Rules

/-! The rows that the tasks other than the scheduler update.

Each of them reads a row of an agent before it updates it, so it only ever
touches rows that have been assigned.
-/

set_option autoImplicit false

open PostJen.Foundations PostJen.Core

namespace PostJen.Server

def Db.Assigned (db : Db) (id : Nat) : Prop :=
  ∃ node, db.nodeRuns.find id = some node ∧ node.assignedAgentId.isSome = true

def Point.targets : Point → List Nat
  | .pickedLocal task | .localTask task => [task.nodeRunId]
  | .sweep todo => todo.map (·.id)
  | _ => []

namespace Targets

def rely (before after : State) : Prop := ∀ id, before.db.Assigned id → after.db.Assigned id

def guarantee (slot : Slot) (op : Op) (before after : State) : Prop :=
  rely before after ∧
    (slot ≠ .scheduler → ∀ id change, op = .write (.updateNode id change) → before.db.Assigned id)

def assertion (slot : Slot) (point : Point) (s : State) : Prop :=
  slot.hosts point = true ∧ ∀ id ∈ point.targets, s.db.Assigned id

theorem NodeChange.apply_assigned {change : NodeChange} {now : Timestamp} {node : NodeRun}
    (assigned : node.assignedAgentId.isSome = true) :
    (change.apply now node).assignedAgentId.isSome = true := by
  cases change <;> simp only [NodeChange.apply, assigned, Option.isSome_some]
  split <;> exact assigned

variable {ext : External} {settings : Settings}

theorem exec_assigned {op : Op} {before after : State} {reply : op.Reply}
    (ran : op.exec ext before reply after) : rely before after := by
  rintro id ⟨node, found, assigned⟩
  rcases exec_nodeRuns ran with same | ⟨other, change, -, updated⟩ | ⟨new, -, inserted⟩
  · exact ⟨node, by rw [same, found], assigned⟩
  · unfold Db.Assigned
    rw [updated, Serial.find_updateAt, found]
    split
    · exact ⟨_, rfl, NodeChange.apply_assigned assigned⟩
    · exact ⟨node, rfl, assigned⟩
  · refine ⟨node, ?_, assigned⟩
    rw [inserted, Serial.find_insert, if_neg (Nat.ne_of_lt (Serial.lt_next found)), found]

theorem promises {slot : Slot} {op : Op} {before after : State} {reply : op.Reply}
    (ran : op.exec ext before reply after) (quiet : Quiet op) : guarantee slot op before after :=
  ⟨exec_assigned ran, fun _ id change same => absurd same (quiet id change)⟩

theorem promises_read {slot : Slot} {op : Op} (reads : op.writes = false) (before after : State)
    (same : before.db = after.db) : guarantee slot op before after := by
  refine ⟨fun id assigned => by rw [← same]; exact assigned, ?_⟩
  rintro - id change rfl
  cases reads

theorem stable {ids : List Nat} (before after : State) (moved : rely before after)
    (assigned : ∀ id ∈ ids, before.db.Assigned id) : ∀ id ∈ ids, after.db.Assigned id :=
  fun id member => moved id (assigned id member)

theorem within_holds {slot : Slot} {E A : Type} {allowed : Op → Prop} {ends : A → Prop}
    {program : Proc Sig E A} (ids : List Nat) (within : program.Within allowed ends)
    (targets : ∀ id change, allowed (.write (.updateNode id change)) → slot = .scheduler ∨ id ∈ ids)
    {s : State} (assigned : ∀ id ∈ ids, s.db.Assigned id) :
    program.Holds (serving ext rely (guarantee slot)) (fun value s => ends value ∧ ∀ id ∈ ids, s.db.Assigned id)
      (fun _ s => ∀ id ∈ ids, s.db.Assigned id) s := by
  refine within.holds (fun before after => stable before after) ?_ assigned
  intro op before reply after may assigned ran
  refine ⟨⟨exec_assigned ran, ?_⟩, stable _ _ (exec_assigned ran) assigned⟩
  rintro notScheduler id change rfl
  exact assigned id ((targets id change may).resolve_left notScheduler)

theorem quiet_holds {slot : Slot} {E A : Type} {ends : A → Prop} {program : Proc Sig E A} {s : State}
    (within : program.Within Quiet ends) :
    program.Holds (serving ext rely (guarantee slot)) (fun value _ => ends value) (fun _ _ => True) s :=
  (within_holds [] within (fun id change quiet => absurd rfl (quiet id change)) (by simp)).mono
    (fun _ _ holds => holds.1) fun _ _ _ => trivial

theorem quiet_keeps {slot : Slot} {E A : Type} {ends : A → Prop} {program : Proc Sig E A} {s : State}
    {id : Nat} (within : program.Within Quiet ends) (assigned : s.db.Assigned id) :
    program.Holds (serving ext rely (guarantee slot)) (fun value s => ends value ∧ s.db.Assigned id)
      (fun _ _ => True) s :=
  (within_holds [id] within (fun id change quiet => absurd rfl (quiet id change)) (by simpa using assigned)).mono
    (fun _ _ holds => ⟨holds.1, holds.2 id (by simp)⟩) fun _ _ _ => trivial

theorem minor_quiet (op : Op) (minor : op.minor = true) : Quiet op := quiet_minor minor

theorem promises_answer {slot : Slot} (query : Select) (s : State) : guarantee slot (.select query) s s :=
  promises_read rfl s s rfl

theorem holds_update {slot : Slot} {E A : Type} [FromSql E] {s : State} {id : Nat} {change : NodeChange}
    {next : Unit → Proc Sig E A} {post : A → State → Prop} {failed : E → State → Prop}
    (assigned : s.db.Assigned id)
    (later : ∀ s, s.db.Assigned id → (next ()).Holds (serving ext rely (guarantee slot)) post failed s)
    (fails : ∀ why s, failed why s) :
    (run (.updateNode id change) >>= next).Holds (serving ext rely (guarantee slot)) post failed s := by
  refine (Proc.holds_bind _ _ _).mpr ((Proc.holds_bind _ _ _).mpr ?_)
  intro before moved reply after ran
  have now := moved id assigned
  refine ⟨⟨exec_assigned ran, fun _ other change' same => by cases same; exact now⟩, ?_⟩
  cases reply with
  | error why => exact fails _ after
  | ok result => exact later after (exec_assigned ran id now)

/-! ## Blocks -/

section
variable {slot : Slot} {point : Point} {s : State}

theorem holds_untargeted (hosted : slot.hosts point = true)
    (bare : ∀ next, slot.hosts next = true → next.targets = [])
    (quiet : ∀ id change, point.makes (.updateNode id change) = true → slot = .scheduler) :
    (block ext settings point).Holds (serving ext rely (guarantee slot)) (assertion slot)
      (fun why _ => why.elim) s := by
  refine (within_holds [] (block_within ext settings hosted)
    (fun id change may => .inl (quiet id change may)) (by simp)).mono ?_ fun why _ _ => why.elim
  rintro next s ⟨follows, -⟩
  exact ⟨follows.1, by simp [bare next follows.1]⟩

theorem bare_scheduler : ∀ next, Slot.scheduler.hosts next = true → next.targets = [] := by
  intro next hosted
  cases next <;> first | rfl | cases hosted

theorem bare_cron : ∀ next, Slot.cron.hosts next = true → next.targets = [] := by
  intro next hosted
  cases next <;> first | rfl | cases hosted

theorem bare_request (n : Nat) : ∀ next, (Slot.request n).hosts next = true → next.targets = [] := by
  intro next hosted
  cases next <;> first | rfl | cases hosted

theorem holds_pickLocalTask :
    pickLocalTask.Holds (serving ext rely (guarantee slot))
      (fun task s => ∀ picked, task = some picked → s.db.Assigned picked.nodeRunId) (fun _ _ => True) s := by
  refine (Proc.holds_bind _ _ _).mpr (holds_answer (promises_answer _) (fun task s member => ?_)
    fun _ _ => trivial)
  cases task with
  | none => rintro _ ⟨⟩
  | some task =>
    obtain ⟨node, found, -, agent⟩ := mem_queuedTask member
    refine holds_update ⟨node, found, by rw [agent]; rfl⟩ (fun s assigned => ?_) fun _ _ => trivial
    refine (Proc.holds_bind _ _ _).mpr ((quiet_keeps (within_event minor_quiet _) assigned).mono ?_
      fun _ _ _ => trivial)
    rintro - s ⟨-, assigned⟩ picked ⟨⟩
    exact assigned

theorem holds_pollTask (headers : Headers) :
    (pollTask ext headers).Holds (serving ext rely (guarantee slot)) (fun _ _ => True)
      (fun _ _ => True) s := by
  refine (Proc.holds_bind _ _ _).mpr ((quiet_holds (within_authenticateAgent (reads_of minor_quiet) ext headers)).mono
    (fun agentId s _ => ?_) fun _ _ _ => trivial)
  refine (Proc.holds_bind _ _ _).mpr (holds_answer (promises_answer _) (fun labels s _ => ?_)
    fun _ _ => trivial)
  refine (Proc.holds_bind _ _ _).mpr (holds_answer (promises_answer _) (fun task s member => ?_)
    fun _ _ => trivial)
  cases task with
  | none => trivial
  | some task =>
    obtain ⟨node, found, -, agent⟩ := mem_queuedTask member
    refine (Proc.holds_bind _ _ _).mpr ((quiet_keeps (within_loadOutputs (reads_of minor_quiet) task)
      ⟨node, found, by rw [agent]; rfl⟩).mono ?_ fun _ _ _ => trivial)
    rintro outputs s ⟨-, assigned⟩
    exact holds_update assigned (fun _ _ => trivial) fun _ _ => trivial

theorem holds_reportResult (headers : Headers) (payload : ReportResultRequest) :
    (reportResult ext headers payload).Holds (serving ext rely (guarantee slot)) (fun _ _ => True)
      (fun _ _ => True) s := by
  refine (Proc.holds_bind _ _ _).mpr ((quiet_holds (within_authenticateAgent (reads_of minor_quiet) ext headers)).mono
    (fun agentId s _ => ?_) fun _ _ _ => trivial)
  refine (Proc.holds_bind _ _ _).mpr (holds_answer (promises_answer _) (fun assigned s member => ?_)
    fun _ _ => trivial)
  split
  · trivial
  · rename_i isAssigned
    rw [not_not] at isAssigned
    split
    · trivial
    · cases List.mem_singleton.mp member
      have assigned : s.db.Assigned payload.nodeRunId := by
        cases found : s.db.nodeRuns.find payload.nodeRunId with
        | none => simp [found] at isAssigned
        | some node =>
          have agent : node.assignedAgentId = some agentId := by simpa [found] using isAssigned
          exact ⟨node, found, by rw [agent]; rfl⟩
      refine (Proc.holds_bind _ _ _).mpr ((quiet_keeps (within_nodeJobRun (reads_of minor_quiet) _ _) assigned).mono ?_
        fun _ _ _ => trivial)
      rintro runId s ⟨-, assigned⟩
      refine holds_update assigned (fun s _ => quiet_holds ?_) fun _ _ => trivial
      exact (within_event minor_quiet _).bind fun _ _ =>
        (within_recordArtifacts _ _ (fun _ _ _ same => by cases same) _).bind fun _ _ => trivial

theorem holds_confined (here next : Point) {body : Proc Sig AnyError Point}
    (home : slot.hosts point = true) (bare : point.targets = [])
    (within : body.Within (fun op => here.may op = true) fun reached => reached = next)
    (hosted : slot.hosts next = true) (still : ∀ id ∈ next.targets, id ∈ here.targets)
    (targets : ∀ id change, here.Updates id change → id ∈ here.targets)
    (assigned : ∀ id ∈ here.targets, s.db.Assigned id) :
    (otherwise point body).Holds (serving ext rely (guarantee slot)) (assertion slot)
      (fun why _ => why.elim) s := by
  refine holds_otherwise ((within_holds here.targets within (fun id change may =>
    .inr (targets id change (Point.makes_updates may))) assigned).mono ?_ ?_)
  · rintro _ s ⟨rfl, assigned⟩
    exact ⟨hosted, fun id member => assigned id (still id member)⟩
  · exact fun why s _ => ⟨home, by simp [bare]⟩

theorem holds_checkAgentHeartbeats :
    checkAgentHeartbeats.Holds (serving ext rely (guarantee slot))
      (fun nodes s => ∀ node ∈ nodes, s.db.Assigned node.id) (fun _ _ => True) s := by
  have quiet : ∀ change, Quiet (.write (.agents change)) := fun _ _ _ same => by cases same
  refine (Proc.holds_bind _ _ _).mpr ((quiet_holds (within_run (quiet _))).mono (fun _ s _ => ?_)
    fun _ _ _ => trivial)
  refine (Proc.holds_bind _ _ _).mpr ((quiet_holds (within_execute (quiet _))).mono (fun updated s _ => ?_)
    fun _ _ _ => trivial)
  split
  · refine holds_answer (promises_answer _) (fun nodes s member node listed => ?_) fun _ _ => trivial
    obtain ⟨row, found, lost⟩ := mem_offlineNodes member listed
    refine ⟨row, found, ?_⟩
    cases agent : row.assignedAgentId with
    | none => simp [NodeRun.lost, agent] at lost
    | some agentId => rfl
  · simp

theorem holds_block (point : Point) (s : State) (holds : assertion slot point s) :
    (block ext settings point).Holds (serving ext rely (guarantee slot)) (assertion slot)
      (fun why _ => why.elim) s := by
  obtain ⟨hosted, targets⟩ := holds
  cases slot with
  | scheduler => exact holds_untargeted hosted bare_scheduler fun _ _ _ => rfl
  | cron =>
    refine holds_untargeted hosted bare_cron fun id change made => ?_
    have updates := Point.makes_updates made
    cases updates <;> cases hosted
  | localWorker =>
    cases point with
    | idle => exact ⟨rfl, targets⟩
    | workerTick =>
      refine holds_otherwise ((Proc.holds_bind _ _ _).mpr (holds_pickLocalTask.mono ?_ ?_))
      · intro task s assigned
        cases task with
        | none => exact ⟨rfl, by simp [Point.targets]⟩
        | some task => exact ⟨rfl, by simpa [Point.targets] using assigned task rfl⟩
      · exact fun why s _ => ⟨rfl, by simp [Point.targets]⟩
    | pickedLocal task => exact ⟨rfl, targets⟩
    | _ => cases hosted
  | localTask n =>
    cases point with
    | idle => exact ⟨rfl, targets⟩
    | localTask task =>
      have finishes : ∀ (status : NodeStatus) exitCode reason, status.reported = true →
          (Point.localTask task).may (.write (.updateNode task.nodeRunId
            (.finish status exitCode reason))) = true :=
        fun status exitCode reason reported => by simp [Point.may, Point.makes, reported]
      refine holds_confined (.localTask task) .idle rfl rfl ((within_executeLocalTask
        (fun op => Point.may_minor) ext settings task (fun _ => rfl) (fun _ => rfl) finishes).bind
          fun _ _ => rfl) rfl (by simp [Point.targets]) (fun id change updates => ?_) targets
      cases updates
      simp [Point.targets]
    | _ => cases hosted
  | monitor =>
    cases point with
    | idle => exact ⟨rfl, targets⟩
    | monitorTick =>
      refine holds_otherwise ((Proc.holds_bind _ _ _).mpr (holds_checkAgentHeartbeats.mono ?_ ?_))
      · intro nodes s assigned
        exact ⟨rfl, by simpa [Point.targets] using assigned⟩
      · exact fun why s _ => ⟨rfl, by simp [Point.targets]⟩
    | sweep todo =>
      cases todo with
      | nil => exact ⟨rfl, targets⟩
      | cons node todo =>
        have loses : (Point.sweep (node :: todo)).may (.write (.updateNode node.id .lost)) = true :=
          decide_eq_true rfl
        refine holds_confined (.sweep (node :: todo)) (.sweep todo) rfl rfl
          ((within_sweepNode (fun op => Point.may_minor) node loses).bind fun _ _ => rfl) rfl
          (fun id member => List.mem_cons_of_mem _ member) (fun id change updates => ?_) targets
        cases updates
        simp [Point.targets]
    | _ => cases hosted
  | request n =>
    cases point with
    | received request =>
      have answered : ∀ answer s, assertion (.request n) (Answer.point answer) s := by
        rintro (response | ⟨task, outputs⟩) s
        · exact ⟨rfl, by simp [Answer.point, Point.targets]⟩
        · exact ⟨rfl, by simp [Answer.point, Point.targets]⟩
      have refused : ∀ why s, assertion (.request n) (.responded (.error why)) s :=
        fun why s => ⟨rfl, by simp [Point.targets]⟩
      by_cases polls : ∃ headers, request = .pollTask headers
      · obtain ⟨headers, rfl⟩ := polls
        exact holds_respond ((holds_pollTask headers).mono (fun answer s _ => answered answer s)
          fun why s _ => refused why s)
      · by_cases reports : ∃ headers payload, request = .reportResult headers payload
        · obtain ⟨headers, payload, rfl⟩ := reports
          exact holds_respond ((holds_reportResult headers payload).mono (fun answer s _ => answered answer s)
            fun why s _ => refused why s)
        · refine holds_untargeted hosted (bare_request n) fun id change made => ?_
          cases Point.makes_updates made with
          | poll headers => exact absurd ⟨headers, rfl⟩ polls
          | report headers payload => exact absurd ⟨headers, payload, rfl⟩ reports
    | _ =>
      refine holds_untargeted hosted (bare_request n) fun id change made => ?_
      have updates := Point.makes_updates made
      cases updates <;> cases hosted

end

/-! ## Runs -/

variable {start : Config} {admits : Config → Label → Prop}

def outline : Outline ext settings start admits State where
  view _ c := c.state
  exec _ _ op := op.exec ext
  rely _ := rely
  guarantee slot _ := guarantee slot
  assertion := assertion

theorem step_assigned {c after : Config} {label : Label} (moved : step ext settings c label = some after) :
    rely c.state after.state := by
  rintro id ⟨node, found, assigned⟩
  obtain ⟨node', found', changed⟩ := nodeStep moved found
  refine ⟨node', found', ?_⟩
  cases changed with
  | same => exact assigned
  | update => exact NodeChange.apply_assigned assigned

theorem outline_valid : (outline : Outline ext settings start admits State).Valid where
  refl := fun slot s id assigned => assigned
  trans := fun slot a b c first second id assigned => second id (first id assigned)
  stable := fun slot point before after moved holds => ⟨holds.1, stable before after moved holds.2⟩
  blocks := fun slot point s holds => holds_block point s holds
  runs := fun history c slot choice after op rest reply _ _ _ _ ran => ⟨choice, ran⟩
  suffers := fun slot other point op before after _ guarantee => guarantee.1
  quiet := fun history c label after _ _ moved _ slot => step_assigned moved
  boot := by
    intro history c hostname after _ _ _ _ slot
    cases slot <;> exact ⟨rfl, by simp [Slot.home, Point.targets]⟩
  idle := fun slot s => ⟨slot.hosts_idle, by simp [Point.targets]⟩
  received := fun n request s => ⟨rfl, by simp [Point.targets]⟩
  spawned := fun n task s holds => ⟨⟨rfl, by simp [Point.targets]⟩, rfl, holds.2⟩

theorem updates_assigned (idle : ∀ slot, start.threads slot = enter ext settings .idle)
    {history : List Label} {c after : Config} (run : (system ext settings).Path admits start history c)
    {slot : Slot} {choice : Choice} (admitted : admits c (.exec slot choice))
    (moved : step ext settings c (.exec slot choice) = some after) (other : slot ≠ .scheduler) {id : Nat}
    {change : NodeChange} (next : c.pending slot = some (.write (.updateNode id change))) :
    c.state.db.Assigned id := by
  obtain ⟨op, rest, reply, code, next', ran, -⟩ := step_exec moved
  cases next.symm.trans next'
  exact (outline_valid.guaranteed (outline_valid.sound idle run) run admitted moved code ran).1.2 other
    id change rfl

end Targets

end PostJen.Server
