import PostJen.Server.Dispatch

/-! The agent that a row is assigned to.

The scheduler assigns a row once, before it queues it, and no other statement
writes the column. So the agent that a call of `poll_task` has authenticated is
still the agent of the row when the call returns with its task.
-/

set_option autoImplicit false

open PostJen.Foundations PostJen.Core

namespace PostJen.Server

def Db.AssignedTo (db : Db) (id : Nat) (agentId : String) : Prop :=
  ∃ row, db.nodeRuns.find id = some row ∧ row.assignedAgentId = some agentId

def NodeChange.assigns : NodeChange → Bool
  | .assign _ => true
  | _ => false

theorem NodeChange.apply_agent {change : NodeChange} (other : change.assigns = false) (now : Timestamp)
    (row : NodeRun) : (change.apply now row).assignedAgentId = row.assignedAgentId := by
  cases change with
  | assign agentId => cases other
  | startQueued =>
    simp only [NodeChange.apply]
    split <;> rfl
  | _ => rfl

section
variable (ext : External) (settings : Settings) (admits : Config → Label → Prop) (start : Config)

/-- The call of `poll_task` in the slot has presented the token of the agent,
which was online. -/
inductive Presents (n : Nat) (headers : Headers) (agentId : String) : List Label → Config → Prop where
  | shown {history : List Label} {c : Config} {token : String} {agent : Agent}
      (run : (system ext settings).Path admits start history c)
      (called : (c.threads (.request n)).point = .received (.pollTask headers))
      (named : bearer headers = some token) (found : c.state.db.agents.find agentId = some agent)
      (owner : agent.tokenHash = ext.sha256Hex token) (online : agent.status = .online) :
      Presents n headers agentId history c
  | keep {history : List Label} {before after : Config} {label : Label}
      (presents : Presents n headers agentId history before) (admitted : admits before label)
      (moved : step ext settings before label = some after) (same : before.renews (.request n) label = false) :
      Presents n headers agentId (label :: history) after

end

namespace Assignment

variable {ext : External} {settings : Settings} {admits : Config → Label → Prop} {start c after : Config}
  {label : Label} {history : List Label} {id : Nat} {slot : Slot} {agentId : String}

/-! ## The column -/

theorem updates_other {point : Point} {change : NodeChange} (other : slot ≠ .scheduler)
    (hosted : slot.hosts point = true) (updates : point.Updates id change) : change.assigns = false := by
  cases updates with
  | assign => cases slot <;> first | exact absurd rfl other | cases hosted
  | _ => rfl

def assigning : RowRegime where
  fact
    | .fresh, row => row.assignedAgentId = none
    | .assigned, row => row.assignedAgentId.isSome = true
    | _, _ => True
  may before after := after.assignedAgentId = before.assignedAgentId

theorem assigning_valid : assigning.Valid where
  refl := fun _ => rfl
  trans := fun _ _ _ first second => second.trans first
  stable := by
    intro phase before after same fact
    cases phase with
    | fresh => exact same.trans fact
    | assigned => exact (congrArg Option.isSome same).trans fact
    | _ => trivial
  fresh := fun _ _ => rfl
  advance := by
    intro phase change next now row advance fact
    cases advance with
    | assign agentId => exact rfl
    | _ => trivial
  read := fun _ _ _ => trivial

theorem assigning_governs (idle : ∀ slot, start.threads slot = enter ext settings .idle) :
    (assigning.regime ext).Governs ext settings start admits fun _ c => c.state := by
  refine assigning_valid.governs idle ?_
  intro history c slot choice after id row change run _ moved other next _ _
  have placed := reached_placed idle run.reaches
  exact NodeChange.apply_agent (updates_other other (placed slot).1 (placed.updates next)) _ _

section
variable (idle : ∀ slot, start.threads slot = enter ext settings .idle)
  (run : (system ext settings).Path admits start history c) (admitted : admits c label)
  (moved : step ext settings c label = some after)
include idle run admitted moved

theorem assigned_fresh {choice : Choice} {agentId : String} (executed : label = .exec slot choice)
    (next : c.pending slot = some (.write (.updateNode id (.assign agentId)))) :
    slot = .scheduler ∧ ∃ row, c.state.db.nodeRuns.find id = some row ∧ row.assignedAgentId = none := by
  subst executed
  have placed := reached_placed idle run.reaches
  have isScheduler : slot = .scheduler := by
    by_contra other
    cases updates_other other (placed slot).1 (placed.updates next)
  subst isScheduler
  obtain ⟨owner, phase, later, advance, ⟨row, found, -, -, fact⟩, -⟩ :=
    (assigning_governs idle).promised run admitted moved next id _ rfl
  cases advance
  exact ⟨rfl, row, found, fact⟩

theorem step_assigned (assigned : c.state.db.AssignedTo id agentId) : after.state.db.AssignedTo id agentId := by
  obtain ⟨row, found, agent⟩ := assigned
  obtain ⟨row', found', changed⟩ := nodeStep moved found
  refine ⟨row', found', ?_⟩
  cases changed with
  | same => exact agent
  | update slot choice change executed next =>
    cases assigns : change.assigns with
    | false => rw [NodeChange.apply_agent assigns, agent]
    | true =>
      cases change with
      | assign other =>
        obtain ⟨-, row', found'', none⟩ := assigned_fresh idle run admitted moved executed next
        cases found.symm.trans found''
        cases agent.symm.trans none
      | _ => cases assigns

theorem step_queued (queued : ∀ id row, c.state.db.nodeRuns.find id = some row → row.status = .queued →
      row.assignedAgentId.isSome = true) :
    ∀ id row, after.state.db.nodeRuns.find id = some row → row.status = .queued →
      row.assignedAgentId.isSome = true := by
  intro id row' found' isQueued
  cases old : c.state.db.nodeRuns.find id with
  | none =>
    obtain ⟨slot, choice, new, rfl, -, -, rfl⟩ := nodeStep_new moved old found'
    cases isQueued
  | some row =>
    obtain ⟨row'', found'', changed⟩ := nodeStep moved old
    cases found'.symm.trans found''
    have placed := reached_placed idle run.reaches
    cases changed with
    | same => exact queued id row' old isQueued
    | update slot choice change executed next =>
      subst executed
      -- a row that becomes queued now was assigned by the scheduler, which asserts so at the UPDATE
      by_cases before : row.status = .queued
      · obtain ⟨agentId, agent⟩ := Option.isSome_iff_exists.mp (queued id row old before)
        obtain ⟨row'', found'', same⟩ := step_assigned idle run admitted moved ⟨row, old, agent⟩
        cases found'.symm.trans found''
        rw [same]
        rfl
      · by_cases isScheduler : slot = .scheduler
        · subst isScheduler
          obtain ⟨owner, phase, later, advance, ⟨other, there, -, -, fact⟩, -⟩ :=
            (assigning_governs idle).promised run admitted moved next id change rfl
          cases old.symm.trans there
          cases advance with
          | queue => exact fact
          | assign agentId => exact rfl
          | skip reason => cases isQueued
          | unmatched => cases isQueued
        · have updates := placed.updates next
          have hosted := (placed slot).1
          generalize (c.threads slot).point = point at updates hosted
          cases updates with
          | pick =>
            simp only [NodeChange.apply] at isQueued
            split at isQueued
            · cases isQueued
            · exact absurd isQueued before
          | finish task status exitCode reason reported =>
            cases show status = .queued from isQueued
            cases reported
          | report headers payload status exitCode reason reported =>
            cases show status = .queued from isQueued
            cases reported
          | lose => cases isQueued
          | poll => cases isQueued
          | _ => cases slot <;> first | exact absurd rfl isScheduler | cases hosted

end

theorem path_queued (idle : ∀ slot, start.threads slot = enter ext settings .idle)
    (empty : ∀ id, start.state.db.nodeRuns.find id = none)
    (run : (system ext settings).Path admits start history c) {row : NodeRun}
    (found : c.state.db.nodeRuns.find id = some row) (queued : row.status = .queued) :
    c.state.db.AssignedTo id (row.assignedAgentId.getD "") := by
  have all : ∀ id row, c.state.db.nodeRuns.find id = some row → row.status = .queued →
      row.assignedAgentId.isSome = true := by
    clear found queued
    induction run with
    | nil =>
      intro id row found
      rw [empty] at found
      cases found
    | cons run admitted moved ih => exact step_queued idle run admitted moved ih
  obtain ⟨agentId, agent⟩ := Option.isSome_iff_exists.mp (all id row found queued)
  exact ⟨row, found, by rw [agent]; rfl⟩

theorem reaches_assigned (idle : ∀ slot, start.threads slot = enter ext settings .idle)
    (run : (system ext settings).Path admits start history c) {last : Config}
    (rest : (system ext settings).Reaches admits c last) (assigned : c.state.db.AssignedTo id agentId) :
    last.state.db.AssignedTo id agentId := by
  induction rest with
  | refl => exact assigned
  | tail rest moved ih =>
    obtain ⟨label, admitted, stepped⟩ := moved
    obtain ⟨recent, path⟩ := run.extend rest
    exact step_assigned idle path admitted stepped ih

/-! ## The code of a call -/

structure Call where
  state : State
  presents : Headers → String → Prop

def rely (before after : Call) : Prop :=
  (∀ id agentId, before.state.db.AssignedTo id agentId → after.state.db.AssignedTo id agentId) ∧
    ∀ headers agentId, before.presents headers agentId → after.presents headers agentId

def discipline (ext : External) (point : Point) : Discipline Sig Call where
  exec op before reply after :=
    op.exec ext before.state reply after.state ∧ rely before after ∧
      ∀ headers token agentId agent, point = .received (.pollTask headers) → bearer headers = some token →
        before.state.db.agents.find agentId = some agent → agent.tokenHash = ext.sha256Hex token →
        agent.status = .online → before.presents headers agentId
  rely := rely
  guarantee := fun _ _ _ => True

def Belongs (slot : Slot) (s : Call) (id : Nat) : Prop :=
  match slot with
  | .request _ => ∃ headers agentId, s.presents headers agentId ∧ s.state.db.AssignedTo id agentId
  | _ => s.state.db.AssignedTo id localAgentId

def assertion (slot : Slot) (point : Point) (s : Call) : Prop :=
  slot.hosts point = true ∧ ∀ id, point.carries = some id → Belongs slot s id

theorem belongs_rely {before after : Call} (moved : rely before after) (belongs : Belongs slot before id) :
    Belongs slot after id := by
  cases slot with
  | request n =>
    obtain ⟨headers, agentId, presents, assigned⟩ := belongs
    exact ⟨headers, agentId, moved.2 _ _ presents, moved.1 _ _ assigned⟩
  | _ => exact moved.1 _ _ belongs

section
variable {point : Point} {E A : Type} {s : Call} {post : A → Call → Prop} {failed : E → Call → Prop}

theorem within_free {allowed : Op → Prop} {ends : A → Prop} {program : Proc Sig E A}
    (within : program.Within allowed ends) :
    program.Holds (discipline ext point) (fun value _ => ends value) (fun _ _ => True) s := by
  have stable : (discipline ext point).Stable fun _ => True := fun _ _ _ _ => trivial
  exact (within.holds stable (fun _ _ _ _ _ _ _ => ⟨trivial, trivial⟩) trivial).mono
    (fun _ _ ended => ended.1) fun _ _ _ => trivial

theorem within_kept {allowed : Op → Prop} {ends : A → Prop} {program : Proc Sig E A}
    (within : program.Within allowed ends) {fact : Call → Prop}
    (stays : ∀ before after, rely before after → fact before → fact after) (now : fact s) :
    program.Holds (discipline ext point) (fun value s => ends value ∧ fact s) (fun _ _ => True) s :=
  (within.holds (D := discipline ext point) stays (fun _ before _ after _ holds ran =>
    ⟨trivial, stays before after ran.2.1 holds⟩) now).mono (fun _ _ ended => ended) fun _ _ _ => trivial

theorem holds_answer [FromSql E] {query : Select} {post : query.Row → Call → Prop} (fact : Call → Prop)
    (stays : ∀ before after, rely before after → fact before → fact after) (now : fact s)
    (next : ∀ row s, fact s → row ∈ query.answers s.state.db →
      (∀ headers token agentId agent, point = .received (.pollTask headers) → bearer headers = some token →
        s.state.db.agents.find agentId = some agent → agent.tokenHash = ext.sha256Hex token →
        agent.status = .online → s.presents headers agentId) → post row s)
    (fails : ∀ why s, failed why s) : (fetch query).Holds (discipline ext point) post failed s := by
  rintro before moved reply after ⟨ran, onward, shows⟩
  refine ⟨trivial, ?_⟩
  obtain ⟨same, ⟨why, rfl⟩ | ⟨row, member, rfl⟩⟩ := exec_select ran
  · exact fails _ after
  · have now := stays before after onward (stays s before moved now)
    refine next row after now (by rw [same]; exact member) ?_
    intro headers token agentId agent called named found owner online
    rw [same] at found
    exact onward.2 _ _ (shows headers token agentId agent called named found owner online)

end

theorem mem_agentByToken {db : Db} {hash : String} (member : some agentId ∈ (Select.agentByToken hash).answers db) :
    ∃ agent, db.agents.find agentId = some agent ∧ agent.tokenHash = hash ∧ agent.status = .online := by
  obtain ⟨⟨other, agent⟩, inside, rfl⟩ := List.mem_map.mp (mem_anyOne member)
  obtain ⟨inside, same⟩ := List.mem_filter.mp inside
  rw [Bool.and_eq_true_iff, decide_eq_true_eq, decide_eq_true_eq] at same
  exact ⟨agent, Table.find_eq_some.mpr inside, same⟩

theorem holds_authenticateAgent (headers : Headers) (s : Call) :
    (authenticateAgent ext headers).Holds (discipline ext (.received (.pollTask headers)))
      (fun agentId s => s.presents headers agentId) (fun _ _ => True) s := by
  unfold authenticateAgent
  cases named : bearer headers with
  | none => trivial
  | some token =>
    refine (Proc.holds_bind _ _ _).mpr (holds_answer (fun _ => True) (fun _ _ _ _ => trivial) trivial
      (fun row s _ member shows => ?_) fun _ _ => trivial)
    cases row with
    | none => trivial
    | some agentId =>
      obtain ⟨agent, found, owner, online⟩ := mem_agentByToken member
      exact shows headers token agentId agent rfl named found owner online

theorem holds_pollTask {n : Nat} (headers : Headers) (s : Call) :
    (pollTask ext headers).Holds (discipline ext (.received (.pollTask headers)))
      (fun answer s => ∀ id, (Answer.point answer).carries = some id → Belongs (.request n) s id)
      (fun _ _ => True) s := by
  refine (Proc.holds_bind _ _ _).mpr ((holds_authenticateAgent headers s).mono (fun agentId s shown => ?_)
    fun _ _ _ => trivial)
  have presented : ∀ before after : Call, rely before after → before.presents headers agentId →
      after.presents headers agentId := fun _ _ moved => moved.2 _ _
  refine (Proc.holds_bind _ _ _).mpr (holds_answer (fun s => s.presents headers agentId) presented shown (fun labels s shown _ _ => ?_) fun _ _ => trivial)
  refine (Proc.holds_bind _ _ _).mpr (holds_answer (fun s => s.presents headers agentId) presented shown (fun task s shown member _ => ?_)
    fun _ _ => trivial)
  cases task with
  | none => rintro id ⟨⟩
  | some task =>
    obtain ⟨row, found, -, agent⟩ := mem_queuedTask member
    have belongs : Belongs (.request n) s task.nodeRunId := ⟨headers, agentId, shown, row, found, agent⟩
    have minor : ∀ op : Op, op.minor = true → True := fun _ _ => trivial
    refine (Proc.holds_bind _ _ _).mpr ((within_kept (within_loadOutputs (reads_of minor) task)
      (fun _ _ moved => belongs_rely moved) belongs).mono ?_ fun _ _ _ => trivial)
    rintro outputs s ⟨-, belongs⟩
    have starts : (Server.run (.updateNode task.nodeRunId .start) : Proc Sig ApiError Unit).Within
        (fun _ => True) fun _ => True := within_run trivial
    refine (Proc.holds_bind _ _ _).mpr ((within_kept starts (fun _ _ moved => belongs_rely moved) belongs).mono ?_ fun _ _ _ => trivial)
    rintro - s ⟨-, belongs⟩ id ⟨⟩
    exact belongs

theorem holds_pickLocalTask {point : Point} (s : Call) :
    pickLocalTask.Holds (discipline ext point)
      (fun task s => ∀ picked, task = some picked → Belongs .localWorker s picked.nodeRunId) (fun _ _ => True) s := by
  refine (Proc.holds_bind _ _ _).mpr (holds_answer (fun _ => True) (fun _ _ _ _ => trivial) trivial
    (fun task s _ member _ => ?_) fun _ _ => trivial)
  cases task with
  | none => rintro _ ⟨⟩
  | some task =>
    obtain ⟨row, found, -, agent⟩ := mem_queuedTask member
    have belongs : Belongs .localWorker s task.nodeRunId := ⟨row, found, agent⟩
    have within : (do
        Server.run (.updateNode task.nodeRunId .startQueued)
        insertNodeEvent task.jobRunId task.nodeRunId .queued .running (some "picked by local agent")
        return some task : Proc Sig AnyError (Option Task)).Within (fun _ => True) fun picked => picked = some task :=
      (within_run trivial).bind fun _ _ => (within_run trivial).bind fun _ _ => rfl
    refine (within_kept within (fun _ _ moved => belongs_rely moved) belongs).mono ?_ fun _ _ _ => trivial
    rintro _ s ⟨rfl, belongs⟩ picked ⟨⟩
    exact belongs

theorem bare {point : Point} (hosted : slot.hosts point = true) (plain : point.carries = none) (s : Call) :
    assertion slot point s := by
  refine ⟨hosted, fun id carried => ?_⟩
  rw [plain] at carried
  cases carried

theorem holds_block (calls : slot = .localWorker ∨ ∃ n, slot = .request n) (point : Point) (s : Call)
    (holds : assertion slot point s) :
    (block ext settings point).Holds (discipline ext point) (assertion slot) (fun why _ => why.elim) s := by
  obtain ⟨hosted, carried⟩ := holds
  have minor : ∀ op : Op, op.minor = true → True := fun _ _ => trivial
  rcases calls with rfl | ⟨n, rfl⟩
  · cases point with
    | idle => exact ⟨rfl, carried⟩
    | pickedLocal task => exact ⟨rfl, carried⟩
    | workerTick =>
      refine holds_otherwise ((Proc.holds_bind _ _ _).mpr ((holds_pickLocalTask s).mono ?_ ?_))
      · intro task s belongs
        cases task with
        | none => exact bare rfl rfl s
        | some task =>
          refine ⟨rfl, ?_⟩
          rintro _ ⟨⟩
          exact belongs task rfl
      · exact fun why s _ => bare rfl rfl s
    | _ => cases hosted
  · cases point with
    | idle => exact ⟨rfl, carried⟩
    | responded response => exact ⟨rfl, carried⟩
    | received request =>
      have refused : ∀ (why : ApiError) s, assertion (.request n) (.responded (.error why)) s :=
        fun why s => bare rfl rfl s
      by_cases polls : ∃ headers, request = .pollTask headers
      · obtain ⟨headers, rfl⟩ := polls
        refine holds_respond ((holds_pollTask (n := n) headers s).mono ?_ fun why s _ => refused why s)
        intro answer s carried
        exact ⟨by cases answer <;> rfl, carried⟩
      · refine holds_respond ((within_free (within_handle ext settings request)).mono ?_ fun why s _ => refused why s)
        intro answer s plain
        have plain := plain.resolve_left polls
        rcases answer with ⟨code, body⟩ | ⟨task, outputs⟩
        · cases body <;> first | exact bare rfl rfl s | cases plain
        · cases plain
    | picked task outputs =>
      refine holds_respond ((Proc.holds_bind _ _ _).mpr ((within_kept (within_event minor _)
        (fun _ _ moved => belongs_rely moved) (carried _ rfl)).mono ?_ fun why s _ => bare rfl rfl s))
      rintro - s ⟨-, belongs⟩
      refine ⟨rfl, ?_⟩
      rintro _ ⟨⟩
      exact belongs
    | _ => cases hosted

/-! ## Runs -/

variable (ext settings admits start) in
def look (slot : Slot) (history : List Label) (c : Config) : Call where
  state := c.state
  presents headers agentId := ∃ n, slot = .request n ∧ Presents ext settings admits start n headers agentId history c

def watch (slot : Slot) : Watch ext settings start admits slot Call where
  view := look ext settings admits start slot
  discipline := discipline ext
  assertion := assertion slot

section
variable (idle : ∀ slot, start.threads slot = enter ext settings .idle)
include idle

theorem look_rely (run : (system ext settings).Path admits start history c) (admitted : admits c label)
    (moved : step ext settings c label = some after) (same : c.renews slot label = false) :
    rely (look ext settings admits start slot history c) (look ext settings admits start slot (label :: history) after) := by
  refine ⟨fun id agentId => step_assigned idle run admitted moved, ?_⟩
  rintro headers agentId ⟨n, rfl, presents⟩
  exact ⟨n, rfl, presents.keep admitted moved same⟩

theorem watch_valid (calls : slot = .localWorker ∨ ∃ n, slot = .request n) :
    (watch slot : Watch ext settings start admits slot Call).Valid where
  refl := fun _ _ => ⟨fun _ _ assigned => assigned, fun _ _ presents => presents⟩
  blocks := fun point s holds => holds_block calls point s holds
  runs := by
    intro history c choice after op rest reply run admitted moved next ran
    refine ⟨⟨choice, ran⟩, look_rely idle run admitted moved rfl, ?_⟩
    intro headers token agentId agent called named found owner online
    have placed := (reached_placed idle run.reaches slot).1
    rw [called] at placed
    cases slot with
    | request n => exact ⟨n, rfl, .shown run called named found owner online⟩
    | _ => cases placed
  resumes := by
    rintro history c after point run admitted moved ended ⟨hosted, carried⟩
    by_cases ticks : point = .workerTick
    · subst ticks
      exact bare hosted rfl _
    · refine ⟨hosted, fun id carries => belongs_rely (look_rely idle run admitted moved ?_) (carried id carries)⟩
      simp only [Config.renews, decide_true, Bool.true_and, ended_eq_some.mpr ended]
      split
      · rename_i same
        cases same
        exact absurd rfl ticks
      · rfl
  suffers := by
    intro history c label after run admitted moved notExec entry other holds
    have order : ∀ point, (discipline ext point).Preorder := fun point =>
      ⟨fun _ => ⟨fun _ _ assigned => assigned, fun _ _ presents => presents⟩, fun _ _ _ first second =>
        ⟨fun id agentId assigned => second.1 id agentId (first.1 id agentId assigned),
          fun headers agentId presents => second.2 headers agentId (first.2 headers agentId presents)⟩⟩
    refine Thread.Holds.rely (order _) (fun point before after moved holds => ?_) holds
      (look_rely idle run admitted moved (Dispatch.renews_entry entry other))
    exact ⟨holds.1, fun id carries => belongs_rely moved (holds.2 id carries)⟩
  enters := by
    intro history c label after point _ _ _ entry
    cases entry with
    | worker n => exact bare rfl rfl _
    | task n task => exact bare rfl rfl _
    | receive n request => exact bare rfl rfl _
    | drop n => exact bare rfl rfl _
    | boot hostname =>
      rcases calls with rfl | ⟨n, rfl⟩
      · exact bare rfl rfl _
      · exact bare rfl rfl _
  idle := bare slot.hosts_idle rfl _

theorem hands_belongs (run : (system ext settings).Path admits start history c) (admitted : admits c label)
    (moved : step ext settings c label = some after) (hands : HandsOut slot id c label after) :
    Belongs slot (look ext settings admits start slot (label :: history) after) id := by
  have later := run.cons admitted moved
  obtain ⟨-, point, ended, carried⟩ := hands
  have hosted := ((reached_placed idle later.reaches).follows ended).1
  have calls : slot = .localWorker ∨ ∃ n, slot = .request n := by
    cases slot with
    | localWorker => exact .inl rfl
    | request n => exact .inr ⟨n, rfl⟩
    | _ => cases point <;> cases hosted <;> cases carried
  have holds := (watch_valid idle calls).sound (idle slot) later
  exact (Thread.Holds.at_point holds ended).2 id (Dispatch.carries_hands carried)

end

end Assignment

end PostJen.Server
