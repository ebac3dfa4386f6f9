import PostJen.Server.Agreement
import PostJen.Server.Assignment
import PostJen.Server.Handing

/-! What holds of a row when a worker takes it.

Both workers update a row that they have selected for an agent, and the row
keeps this agent. So a row that runs has an agent, and one that the server's
own worker took has the built-in agent.
-/

set_option autoImplicit false

open PostJen.Foundations PostJen.Core

namespace PostJen.Server

namespace Taking

variable {ext : External} {settings : Settings} {start c after : Config} {admits : Config → Label → Prop} {label : Label}
  {history : List Label} {slot : Slot} {id : Nat} {agentId : String}

def Idle (op : Op) : Prop := ∀ id change, op = .write (.updateNode id change) → change.takes = false

theorem idle_minor (op : Op) (minor : op.minor = true) : Idle op := by
  rintro id change rfl
  cases minor

theorem idle_request {point : Point} {n : Nat} (hosted : (Slot.request n).hosts point = true)
    (other : ∀ headers, point ≠ .received (.pollTask headers)) (op : Op) (may : point.may op = true) : Idle op := by
  rintro id change rfl
  cases Point.makes_updates may with
  | poll headers => exact absurd rfl (other headers)
  | pick => cases hosted
  | _ => rfl

/-! ## The code of `poll_task` -/

def Starting : (op : Op) → (op.Reply → Proc Sig Empty Point) → Prop
  | .write (.updateNode id .start), rest =>
      ∃ task outputs, task.nodeRunId = id ∧ ∀ affected, rest (.ok affected) = .done (.picked task outputs)
  | _, _ => True

theorem starting_of_idle {op : Op} (idle : Idle op) (rest : op.Reply → Proc Sig Empty Point) : Starting op rest := by
  unfold Starting
  split
  · cases idle _ _ rfl
  · trivial

theorem pollTask_starting (headers : Headers) :
    (block ext settings (.received (.pollTask headers))).Each (fun _ _ => True) Starting := by
  show (respond (pollTask ext headers)).Each _ _
  unfold pollTask authenticateAgent
  cases bearer headers with
  | none => trivial
  | some token =>
    refine ⟨trivial, fun reply _ => ?_⟩
    cases reply with
    | error why => trivial
    | ok found =>
      cases found with
      | none => trivial
      | some agentId =>
        refine ⟨trivial, fun reply _ => ?_⟩
        cases reply with
        | error why => trivial
        | ok labels =>
          refine ⟨trivial, fun reply _ => ?_⟩
          cases reply with
          | error why => trivial
          | ok task =>
            cases task with
            | none => trivial
            | some task =>
              refine ⟨trivial, fun reply _ => ?_⟩
              cases reply with
              | error why =>
                refine ⟨⟨task, _, rfl, fun affected => rfl⟩, fun reply _ => ?_⟩
                cases reply <;> trivial
              | ok definition =>
                refine ⟨⟨task, _, rfl, fun affected => rfl⟩, fun reply _ => ?_⟩
                cases reply <;> trivial

theorem block_starting {n : Nat} {point : Point} (hosted : (Slot.request n).hosts point = true) :
    (block ext settings point).Each (fun _ _ => True) Starting := by
  by_cases polls : ∃ headers, point = .received (.pollTask headers)
  · obtain ⟨headers, rfl⟩ := polls
    exact pollTask_starting headers
  · exact (block_within ext settings hosted).each fun op rest may =>
      starting_of_idle (idle_request hosted (fun headers same => polls ⟨headers, same⟩) op may) rest

theorem reached_starting (idle : ∀ slot, start.threads slot = enter ext settings .idle)
    (run : (system ext settings).Reaches admits start c) (n : Nat) :
    (c.threads (.request n)).code.Each (fun _ _ => True) Starting :=
  reached_part idle run (.request n) (Proc.Each (I := Sig) (fun _ _ => True) Starting)
    (fun _ _ each reply => each.2 reply trivial) (block_starting (reached_placed idle run (.request n)).1)

/-! ## What a worker knows of its row -/

structure Onward (before after : State) : Prop where
  assigned : ∀ id agentId, before.db.AssignedTo id agentId → after.db.AssignedTo id agentId
  present : ∀ runId id, Present runId id before → Present runId id after

theorem Onward.trans {first second third : State} (one : Onward first second) (two : Onward second third) :
    Onward first third where
  assigned := fun id agentId assigned => two.assigned id agentId (one.assigned id agentId assigned)
  present := fun runId id present => two.present runId id (one.present runId id present)

structure Taken (op : Op) (s : State) : Prop where
  locally : ∀ id, op = .write (.updateNode id .startQueued) → s.db.AssignedTo id localAgentId
  remotely : ∀ id, op = .write (.updateNode id .start) → ∃ agentId, s.db.AssignedTo id agentId

def discipline (ext : External) : Discipline Sig State where
  exec op before reply after := op.exec ext before reply after ∧ Onward before after
  rely := Onward
  guarantee op before _ := Taken op before

def assertion (slot : Slot) (point : Point) (s : State) : Prop :=
  slot.hosts point = true ∧ ∀ task outputs, point.parcel = some (task, outputs) → Present task.jobRunId task.nodeRunId s

theorem taken_of_idle {op : Op} (idle : Idle op) (s : State) : Taken op s where
  locally := fun id same => by cases idle id .startQueued same
  remotely := fun id same => by cases idle id .start same

theorem bare {point : Point} (hosted : slot.hosts point = true) (plain : point.parcel = none) (s : State) :
    assertion slot point s := by
  refine ⟨hosted, fun task outputs carried => ?_⟩
  rw [plain] at carried
  cases carried

theorem present_queuedTask {s : State} {task : Task} (member : some task ∈ (Select.queuedTask agentId).answers s.db) :
    Present task.jobRunId task.nodeRunId s := by
  obtain ⟨picked, listed, same⟩ := List.mem_map.mp member
  obtain ⟨⟨stamp, other⟩, rfl, rfl⟩ := Option.map_eq_some_iff.mp same
  obtain ⟨⟨id, node⟩, inside, found⟩ := List.mem_filterMap.mp (mem_limitOne listed)
  dsimp only at found
  split at found
  · obtain ⟨task', made, same⟩ := Option.map_eq_some_iff.mp found
    cases same
    obtain ⟨run, there, rfl⟩ := Option.map_eq_some_iff.mp made
    refine ⟨?_, ?_⟩
    · rw [Db.hasRun, there]
      rfl
    · rw [Db.hasNode, Serial.find_eq_some.mpr inside]
      rfl
  · cases found

section
variable {E A : Type} {s : State}

theorem within_idle {ends : A → Prop} {program : Proc Sig E A} {fact : State → Prop} (within : program.Within Idle ends)
    (stays : ∀ before after, Onward before after → fact before → fact after) (now : fact s) :
    program.Holds (discipline ext) (fun value s => ends value ∧ fact s) (fun _ _ => True) s :=
  (within.holds (D := discipline ext) stays (fun _ before _ after idle holds ran =>
    ⟨taken_of_idle idle before, stays before after ran.2 holds⟩) now).mono (fun _ _ ended => ended) fun _ _ _ => trivial

theorem holds_queuedTask [FromSql E] (agentId : String) (s : State) :
    (fetch (.queuedTask agentId) : Proc Sig E (Option Task)).Holds (discipline ext)
      (fun found s => ∀ task, found = some task → s.db.AssignedTo task.nodeRunId agentId ∧
        Present task.jobRunId task.nodeRunId s) (fun _ _ => True) s := by
  rintro before - reply after ⟨ran, -⟩
  refine ⟨taken_of_idle (idle_minor _ rfl) before, ?_⟩
  obtain ⟨rfl, ⟨why, rfl⟩ | ⟨found, member, rfl⟩⟩ := exec_select ran
  · trivial
  · rintro task rfl
    obtain ⟨node, there, -, agent⟩ := mem_queuedTask member
    exact ⟨⟨node, there, agent⟩, present_queuedTask member⟩

theorem holds_pollTask (headers : Headers) (s : State) :
    (pollTask ext headers).Holds (discipline ext)
      (fun answer s => ∀ task outputs, (Answer.point answer).parcel = some (task, outputs) →
        Present task.jobRunId task.nodeRunId s) (fun _ _ => True) s := by
  have stays : ∀ before after, Onward before after → True → True := fun _ _ _ => id
  refine (Proc.holds_bind _ _ _).mpr ((within_idle (within_authenticateAgent (reads_of idle_minor) ext headers) stays
    trivial).mono (fun agentId s _ => ?_) fun _ _ _ => trivial)
  refine (Proc.holds_bind _ _ _).mpr ((within_idle (within_fetch (reads_of idle_minor) _ rfl) stays trivial).mono
    (fun labels s _ => ?_) fun _ _ _ => trivial)
  refine (Proc.holds_bind _ _ _).mpr ((holds_queuedTask agentId s).mono (fun task s chosen => ?_) fun _ _ _ => trivial)
  cases task with
  | none => rintro task outputs ⟨⟩
  | some task =>
    have known := chosen task rfl
    have both : ∀ before after, Onward before after →
        before.db.AssignedTo task.nodeRunId agentId ∧ Present task.jobRunId task.nodeRunId before →
        after.db.AssignedTo task.nodeRunId agentId ∧ Present task.jobRunId task.nodeRunId after :=
      fun before after moved holds => ⟨moved.assigned _ _ holds.1, moved.present _ _ holds.2⟩
    refine (Proc.holds_bind _ _ _).mpr ((within_idle (within_loadOutputs (reads_of idle_minor) task) both known).mono
      ?_ fun _ _ _ => trivial)
    rintro outputs s ⟨-, known⟩ before onward reply after ⟨-, moved⟩
    have known := both s before onward known
    refine ⟨⟨by rintro _ ⟨⟩, ?_⟩, ?_⟩
    · rintro _ ⟨⟩
      exact ⟨agentId, known.1⟩
    · cases reply with
      | error why => trivial
      | ok affected =>
        rintro _ _ ⟨⟩
        exact moved.present _ _ known.2

theorem holds_pickLocalTask (s : State) :
    pickLocalTask.Holds (discipline ext) (fun _ _ => True) (fun _ _ => True) s := by
  refine (Proc.holds_bind _ _ _).mpr ((holds_queuedTask localAgentId s).mono (fun task s chosen => ?_) fun _ _ _ => trivial)
  cases task with
  | none => trivial
  | some task =>
    have known := (chosen task rfl).1
    rintro before onward reply after -
    refine ⟨⟨?_, by rintro _ ⟨⟩⟩, ?_⟩
    · rintro _ ⟨⟩
      exact onward.assigned _ _ known
    · cases reply with
      | error why => trivial
      | ok affected =>
        have rest : (do
            insertNodeEvent task.jobRunId task.nodeRunId .queued .running (some "picked by local agent")
            return some task : Proc Sig AnyError (Option Task)).Within Idle fun _ => True :=
          (within_event idle_minor _).bind fun _ _ => trivial
        have stays : ∀ before after, Onward before after → True → True := fun _ _ _ => id
        exact (within_idle rest stays trivial).mono (fun _ _ _ => trivial) fun _ _ _ => trivial

end

theorem holds_block (calls : slot = .localWorker ∨ ∃ n, slot = .request n) (point : Point) (s : State)
    (holds : assertion slot point s) :
    (block ext settings point).Holds (discipline ext) (assertion slot) (fun why _ => why.elim) s := by
  obtain ⟨hosted, carried⟩ := holds
  have stays : ∀ before after, Onward before after → True → True := fun _ _ _ => id
  rcases calls with rfl | ⟨n, rfl⟩
  · cases point with
    | idle => exact ⟨rfl, carried⟩
    | pickedLocal task => exact ⟨rfl, carried⟩
    | workerTick =>
      refine holds_otherwise ((Proc.holds_bind _ _ _).mpr ((holds_pickLocalTask s).mono ?_ fun _ s _ => bare rfl rfl s))
      intro task s _
      cases task with
      | none => exact bare rfl rfl s
      | some task => exact bare rfl rfl s
    | _ => cases hosted
  · have refused : ∀ (why : ApiError) s, assertion (.request n) (.responded (.error why)) s := fun why s => bare rfl rfl s
    cases point with
    | idle => exact ⟨rfl, carried⟩
    | responded response => exact ⟨rfl, carried⟩
    | received request =>
      by_cases polls : ∃ headers, request = .pollTask headers
      · obtain ⟨headers, rfl⟩ := polls
        refine holds_respond ((holds_pollTask headers s).mono ?_ fun why s _ => refused why s)
        exact fun answer s carried => ⟨by cases answer <;> rfl, carried⟩
      · have idle : (handle ext settings request).Within Idle
            fun answer => (∃ headers, request = .pollTask headers) ∨ answer.plain = true := by
          refine (within_handle ext settings request).mono (idle_request (n := n) rfl ?_) fun _ => id
          rintro headers ⟨⟩
          exact polls ⟨headers, rfl⟩
        refine holds_respond ((within_idle idle stays trivial).mono ?_ fun why s _ => refused why s)
        rintro answer s ⟨plain, -⟩
        have plain := plain.resolve_left polls
        rcases answer with ⟨code, body⟩ | ⟨task, outputs⟩
        · cases body <;> first | exact bare rfl rfl s | cases plain
        · cases plain
    | picked task outputs =>
      have kept : ∀ before after, Onward before after → Present task.jobRunId task.nodeRunId before →
          Present task.jobRunId task.nodeRunId after := fun _ _ moved => moved.present _ _
      refine holds_respond ((Proc.holds_bind _ _ _).mpr ((within_idle (within_event idle_minor _) kept
        (carried _ _ rfl)).mono ?_ fun why s _ => refused why s))
      rintro - s ⟨-, present⟩
      refine ⟨rfl, ?_⟩
      rintro _ _ ⟨⟩
      exact present
    | _ => cases hosted

/-! ## Runs -/

theorem step_present (moved : step ext settings c label = some after) (runId id : Nat) (present : Present runId id c.state) :
    Present runId id after.state := by
  refine ⟨step_hasRun moved present.run, ?_⟩
  obtain ⟨node, found⟩ := Option.isSome_iff_exists.mp present.node
  obtain ⟨later, found, -⟩ := nodeStep moved found
  rw [Db.hasNode, found]
  rfl

variable (ext settings start admits) in
def watch (slot : Slot) : Watch ext settings start admits slot State where
  view _ c := c.state
  discipline _ := discipline ext
  assertion := assertion slot

section
variable (idle : ∀ slot, start.threads slot = enter ext settings .idle)
  (run : (system ext settings).Path admits start history c)
include idle run

theorem step_onward (admitted : admits c label) (moved : step ext settings c label = some after) :
    Onward c.state after.state where
  assigned := fun _ _ assigned => Assignment.step_assigned idle run admitted moved assigned
  present := step_present moved

omit run in
theorem watch_valid (calls : slot = .localWorker ∨ ∃ n, slot = .request n) :
    (watch ext settings start admits slot).Valid where
  refl := fun _ _ => ⟨fun _ _ assigned => assigned, fun _ _ present => present⟩
  blocks := fun point s holds => holds_block calls point s holds
  runs := fun _ _ choice _ _ _ _ run admitted moved _ ran => ⟨⟨choice, ran⟩, step_onward idle run admitted moved⟩
  resumes := by
    rintro history c after point run admitted moved ended ⟨hosted, carried⟩
    exact ⟨hosted, fun task outputs same => step_present moved _ _ (carried task outputs same)⟩
  suffers := by
    intro history c label after run admitted moved notExec entry other holds
    have order : (discipline ext).Preorder :=
      ⟨fun _ => ⟨fun _ _ assigned => assigned, fun _ _ present => present⟩, fun _ _ _ => Onward.trans⟩
    refine Thread.Holds.rely order (fun point before after moved holds => ?_) holds (step_onward idle run admitted moved)
    exact ⟨holds.1, fun task outputs same => moved.present _ _ (holds.2 task outputs same)⟩
  enters := by
    intro history c label after point _ _ _ entry
    cases entry with
    | boot hostname => rcases calls with rfl | ⟨n, rfl⟩ <;> exact bare rfl rfl _
    | _ => exact bare rfl rfl _
  idle := bare slot.hosts_idle rfl _

theorem taken_assigned {choice : Choice} {change : NodeChange} (admitted : admits c (.exec slot choice))
    (moved : step ext settings c (.exec slot choice) = some after)
    (next : c.pending slot = some (.write (.updateNode id change))) (takes : change.takes = true) :
    ∃ agentId, c.state.db.AssignedTo id agentId ∧ (change = .startQueued → agentId = localAgentId) := by
  have placed := reached_placed idle run.reaches
  have calls : slot = .localWorker ∨ ∃ n, slot = .request n := by
    have hosted := (placed slot).1
    have updates := placed.updates next
    revert hosted updates
    generalize (c.threads slot).point = point
    intro hosted updates
    cases updates with
    | pick => cases slot <;> first | exact .inl rfl | cases hosted
    | poll => cases slot <;> first | exact .inr ⟨_, rfl⟩ | cases hosted
    | _ => cases takes
  have valid : (watch ext settings start admits slot).Valid := watch_valid idle calls
  obtain ⟨op, rest, reply, code, next', ran, -⟩ := step_exec moved
  cases next.symm.trans next'
  have taken : Taken (.write (.updateNode id change)) c.state :=
    valid.guaranteed (valid.sound (idle slot) run) run admitted moved code ran
  cases change with
  | start =>
    obtain ⟨agentId, assigned⟩ := taken.remotely id rfl
    exact ⟨agentId, assigned, by rintro ⟨⟩⟩
  | startQueued => exact ⟨localAgentId, taken.locally id rfl, fun _ => rfl⟩
  | _ => cases takes

theorem carried_present {n : Nat} {point : Point} (ended : (c.threads (.request n)).code = .done point) {task : Task}
    {outputs : List ResolvedNodeOutput} (carries : point.parcel = some (task, outputs)) :
    Present task.jobRunId task.nodeRunId c.state := by
  have valid : (watch ext settings start admits (.request n)).Valid := watch_valid idle (.inr ⟨n, rfl⟩)
  exact (Thread.Holds.at_point (valid.sound (idle _) run) ended).2 task outputs carries

end

theorem picked_present (idle : ∀ slot, start.threads slot = enter ext settings .idle)
    (run : (system ext settings).Path admits start history c) {n : Nat} {task : Task} {outputs : List ResolvedNodeOutput}
    (picked : (c.threads (.request n)).point = .picked task outputs) : Present task.jobRunId task.nodeRunId c.state := by
  induction run with
  | nil =>
    rw [idle] at picked
    cases picked
  | @cons history before after label run admitted moved ih =>
    have stepped := thread_step moved (.request n)
    have later : ∀ runId id, Present runId id before.state → Present runId id after.state := step_present moved
    generalize after.threads (.request n) = thread at stepped picked
    cases stepped with
    | same => exact later _ _ (ih picked)
    | exec => exact later _ _ (ih picked)
    | resume ended =>
      cases picked
      exact later _ _ (carried_present idle run ended rfl)
    | entered entry => cases entry <;> cases picked

theorem comes_to_run (placed : c.Placed) (moved : step ext settings c label = some after) {row later : NodeRun}
    (found : c.state.db.nodeRuns.find id = some row) (idling : row.status ≠ .running)
    (there : after.state.db.nodeRuns.find id = some later) (running : later.status = .running) :
    ∃ slot choice change, label = .exec slot choice ∧ c.pending slot = some (.write (.updateNode id change)) ∧
      change.takes = true := by
  obtain ⟨row', found', changed⟩ := nodeStep moved found
  cases there.symm.trans found'
  cases changed with
  | same => exact absurd running idling
  | update slot choice change executed next =>
    refine ⟨slot, choice, change, executed, next, ?_⟩
    have updates := placed.updates next
    clear next
    generalize (c.threads slot).point = point at updates
    cases updates with
    | pick => rfl
    | poll => rfl
    | assign => exact absurd running idling
    | skip => cases running
    | lose => cases running
    | status x newlyQueued todo id toStatus reason exitCode retryCount valid =>
      rcases valid with rfl | rfl <;> cases running
    | finish task status exitCode reason reported =>
      cases show status = .running from running
      cases reported
    | report headers payload status exitCode reason reported =>
      cases show status = .running from running
      cases reported

theorem running_assigned (idle : ∀ slot, start.threads slot = enter ext settings .idle)
    (empty : ∀ id, start.state.db.nodeRuns.find id = none) (run : (system ext settings).Path admits start history c)
    {row : NodeRun} (found : c.state.db.nodeRuns.find id = some row) (running : row.status = .running) :
    ∃ agentId, c.state.db.AssignedTo id agentId := by
  -- the row was running before, or is taken now and has an agent
  induction run generalizing row with
  | nil =>
    rw [empty] at found
    cases found
  | @cons history before after label run admitted moved ih =>
    have later : ∀ agentId, before.state.db.AssignedTo id agentId → after.state.db.AssignedTo id agentId := fun _ assigned =>
      Assignment.step_assigned idle run admitted moved assigned
    cases old : before.state.db.nodeRuns.find id with
    | none =>
      obtain ⟨slot, choice, new, rfl, -, -, rfl⟩ := nodeStep_new moved old found
      cases running
    | some earlier =>
      by_cases active : earlier.status = .running
      · obtain ⟨agentId, assigned⟩ := ih old active
        exact ⟨agentId, later agentId assigned⟩
      · obtain ⟨slot, choice, change, rfl, next, takes⟩ :=
          comes_to_run (reached_placed idle run.reaches) moved old active found running
        obtain ⟨agentId, assigned, -⟩ := taken_assigned idle run admitted moved next takes
        exact ⟨agentId, later agentId assigned⟩

end Taking

end PostJen.Server
