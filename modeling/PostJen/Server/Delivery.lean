import PostJen.Server.Carriers
import PostJen.Server.Enforcement

/-! The tasks and the results that are not lost.

A row that runs for an agent is carried by a process, by a response or by a
report. The server takes no row back: it has no lease and waits for no time,
and a process ignores the failure of its last report. So a row that nothing
carries any more runs for as long as its agent stays online.
-/

set_option autoImplicit false

open PostJen.Foundations PostJen.Core

namespace PostJen.Server

section
variable (ext : External) (settings : Settings)

def Network.Tracked (net : Network) : Prop :=
  ∀ id agentId agent, net.server.state.db.RunsOn id agentId agent →
    ∃ carrier, net.Carries ext settings id agentId agent.tokenHash carrier

/-- The step loses no task and no result. -/
structure Delivers (net : Network) (label : NetLabel) : Prop where
  /-- A poll takes a row while the agent of the row still waits for the response. -/
  awaited : ∀ n index id agentId agent, label = .server (.exec (.request n) (.answer index)) →
    net.server.pending (.request n) = some (.write (.updateNode id .start)) →
    net.server.state.db.AssignedTo id agentId → agentId ≠ localAgentId →
    net.server.state.db.agents.find agentId = some agent → agent.status = .online →
    ∃ i client, net.clients i = some client ∧ client.contact = .sent n ∧ ext.sha256Hex client.token = agent.tokenHash
  /-- What carries a row is lost only if something else carries it too. -/
  retained : ∀ id agentId agent carrier, net.server.state.db.RunsOn id agentId agent →
    net.Carries ext settings id agentId agent.tokenHash carrier → net.Loses id agentId agent.tokenHash label carrier →
    ∃ other, net.Carries ext settings id agentId agent.tokenHash other ∧ ¬net.Loses id agentId agent.tokenHash label other
  /-- An agent that was offline comes back only with the rows that run for it. -/
  returned : ∀ slot index id agentId agent, label = .server (.exec slot (.answer index)) →
    net.server.pending slot = some (.write (.agents (.heartbeat agentId))) →
    net.server.state.db.agents.find agentId = some agent → agent.status ≠ .online →
    net.server.state.db.RunsFor id agentId → ∃ carrier, net.Carries ext settings id agentId agent.tokenHash carrier
  /-- No row runs for an agent that is registered only now. -/
  named : ∀ slot index id new, label = .server (.exec slot (.answer index)) →
    net.server.pending slot = some (.write (.agents (.register new))) → ¬net.server.state.db.RunsFor id new.agentId

/-- In a run of the server and its agents no row is lost. -/
def DeliveryLaw (complaint : String → String) (start : Network) (admits : Network → NetLabel → Prop) : Prop :=
  ∀ history net, (network ext settings complaint).Path admits start history net → net.Tracked ext settings

end

namespace Delivery

variable {ext : External} {settings : Settings} {complaint : String → String} {start c c' : Config} {move : Label}
  {history : List Label} {id : Nat} {agentId : String} {agent : Agent}

/-! ## How a row comes to run for an agent that is online -/

theorem apply_returns {change : AgentWrite} {now : Timestamp} {agents rows : Table String Agent} {affected : Nat}
    (applied : change.apply now agents = .ok (affected, rows)) {old : Agent} (found : agents.find agentId = some old)
    (later : rows.find agentId = some agent) (remote : agentId ≠ localAgentId) (offline : old.status ≠ .online)
    (online : agent.status = .online) : change = .heartbeat agentId := by
  cases change with
  | registerLocal hostname hash =>
    cases applied
    rw [Table.find_upsert, if_neg remote, found] at later
    cases later
    exact absurd online offline
  | register new =>
    simp only [AgentWrite.apply] at applied
    split at applied
    · rename_i fresh
      cases applied
      have other : agentId ≠ new.agentId := fun same => fresh _ (Table.find_eq_some.mp found) same
      rw [Table.find_append, if_neg other, found] at later
      cases later
      exact absurd online offline
    · cases applied
  | delete other =>
    cases applied
    rw [Table.find_delete, Option.filter_eq_some_iff] at later
    cases found.symm.trans later.1
    exact absurd online offline
  | touch other =>
    cases applied
    rw [Table.find_updateAt, found] at later
    split at later <;> cases later <;> exact absurd online offline
  | expire =>
    cases applied
    rw [Table.find_update, found] at later
    cases later
    dsimp only at online
    split at online
    · cases online
    · exact absurd online offline
  | heartbeat other =>
    by_cases same : agentId = other
    · rw [same]
    · cases applied
      rw [Table.find_updateAt, if_neg same, found] at later
      cases later
      exact absurd online offline

/-- How the row of a step comes to run for an agent that is online. -/
inductive Comes (c : Config) (move : Label) (id : Nat) (agentId : String) (agent : Agent) : Prop where
  | stays {old : Agent} (runs : c.state.db.RunsOn id agentId old) (same : old.tokenHash = agent.tokenHash)
  | taken {n index : Nat} (executed : move = .exec (.request n) (.answer index))
      (next : c.pending (.request n) = some (.write (.updateNode id .start)))
      (assigned : c.state.db.AssignedTo id agentId) (found : c.state.db.agents.find agentId = some agent)
  | returns {slot : Slot} {index : Nat} {old : Agent} (executed : move = .exec slot (.answer index))
      (next : c.pending slot = some (.write (.agents (.heartbeat agentId))))
      (found : c.state.db.agents.find agentId = some old) (offline : old.status ≠ .online)
      (same : old.tokenHash = agent.tokenHash) (runs : c.state.db.RunsFor id agentId)
  | registers {slot : Slot} {index : Nat} {new : NewAgent} (executed : move = .exec slot (.answer index))
      (next : c.pending slot = some (.write (.agents (.register new)))) (names : new.agentId = agentId)
      (runs : c.state.db.RunsFor id agentId)

section
variable (idle : ∀ slot, start.threads slot = enter ext settings .idle)
  (empty : ∀ id, start.state.db.nodeRuns.find id = none)
  (run : (system ext settings).Path everything start history c) (moved : step ext settings c move = some c')
include idle empty run moved

theorem runsFor_step (remote : agentId ≠ localAgentId) (runs : c'.state.db.RunsFor id agentId) :
    c.state.db.RunsFor id agentId ∨ ∃ n index, move = .exec (.request n) (.answer index) ∧
      c.pending (.request n) = some (.write (.updateNode id .start)) ∧ c.state.db.AssignedTo id agentId := by
  obtain ⟨row, found, running, mine⟩ := runs
  -- The agent of a row before the step is the agent that it has now.
  have own : ∀ other, c.state.db.AssignedTo id other → other = agentId := by
    intro other assigned
    obtain ⟨later, there, agent⟩ := Assignment.step_assigned idle run trivial moved assigned
    cases found.symm.trans there
    exact Option.some.inj (agent.symm.trans mine)
  cases old : c.state.db.nodeRuns.find id with
  | none =>
    obtain ⟨slot, choice, new, rfl, -, -, rfl⟩ := nodeStep_new moved old found
    cases running
  | some earlier =>
    by_cases active : earlier.status = .running
    · obtain ⟨other, assigned⟩ := Taking.running_assigned idle empty run old active
      obtain rfl := own other assigned
      obtain ⟨same, there, agent⟩ := assigned
      cases old.symm.trans there
      exact .inl ⟨earlier, old, active, agent⟩
    · have placed := reached_placed idle run.reaches
      obtain ⟨slot, choice, change, rfl, next, takes⟩ := Taking.comes_to_run placed moved old active found running
      obtain ⟨other, assigned, locally⟩ := Taking.taken_assigned idle run trivial moved next takes
      obtain rfl := own other assigned
      cases change with
      | startQueued => exact absurd (locally rfl) remote
      | start =>
        rcases step_answered next rfl moved with same | ⟨index, rfl⟩
        · rw [same, old] at found
          cases found
          exact absurd running active
        · have updates := placed.updates next
          have hosted := (placed slot).1
          generalize (c.threads slot).point = point at updates hosted
          cases updates with
          | poll => cases slot <;> first | exact .inr ⟨_, index, rfl, next, assigned⟩ | cases hosted
      | _ => cases takes

theorem runsOn_step (runs : c'.state.db.RunsOn id agentId agent) : Comes c move id agentId agent := by
  obtain ⟨row, remote, found, online⟩ := runs
  rcases runsFor_step idle empty run moved remote row with before | ⟨n, index, rfl, next, assigned⟩
  · rcases step_agents moved with same | ⟨slot, choice, change, affected, rfl, next, applied⟩ |
      ⟨hostname, affected, rfl, applied⟩
    · rw [same] at found
      exact .stays ⟨before, remote, found, online⟩ rfl
    · rcases step_answered next rfl moved with same | ⟨index, rfl⟩
      · rw [same] at found
        exact .stays ⟨before, remote, found, online⟩ rfl
      · rcases apply_agents applied found with ⟨old, there, kept⟩ | ⟨_, _, _, isLocal, -⟩ | ⟨new, rfl, names, -⟩
        · by_cases was : old.status = .online
          · exact .stays ⟨before, remote, there, was⟩ kept.token
          · obtain rfl := apply_returns applied there found remote was online
            exact .returns rfl next there was kept.token before
        · exact absurd isLocal remote
        · exact .registers rfl next names before
    · rcases apply_agents applied found with ⟨old, there, kept⟩ | ⟨_, _, _, isLocal, -⟩ | ⟨new, impossible, -⟩
      · by_cases was : old.status = .online
        · exact .stays ⟨before, remote, there, was⟩ kept.token
        · cases apply_returns applied there found remote was online
      · exact absurd isLocal remote
      · cases impossible
  · rcases step_agents moved with same | ⟨slot, choice, change, affected, executed, next', -⟩ | ⟨_, _, ⟨⟩, -⟩
    · rw [same] at found
      exact .taken rfl next assigned found
    · cases executed
      cases next.symm.trans next'

end

/-! ## Runs -/

variable {net after : Network} {label : NetLabel}

theorem taken_handing {n index : Nat} (starting : (c.threads (.request n)).code.Each (fun _ _ => True) Taking.Starting)
    (moved : step ext settings c (.exec (.request n) (.answer index)) = some c')
    (next : c.pending (.request n) = some (.write (.updateNode id .start))) : c'.Handing ext settings n id := by
  obtain ⟨op, rest, reply, code, next', ran, threads⟩ := step_exec moved
  cases next.symm.trans next'
  rw [code] at starting
  obtain ⟨task, outputs, rfl, answers⟩ := starting.1
  obtain ⟨rfl, -⟩ := Parity.unfailing_write ⟨.answer index, by rintro _ ⟨⟩, ran⟩ rfl
  refine .inl ⟨.picked task outputs, ?_, rfl⟩
  rw [threads, Config.put_self]
  exact answers _

theorem tracked_step (idle : ∀ slot, start.threads slot = enter ext settings .idle)
    (empty : ∀ id, start.state.db.nodeRuns.find id = none) (run : (system ext settings).Path everything start history net.server)
    (exchanging : net.Exchanging) (delivers : Delivers ext settings net label)
    (moved : net.step ext settings complaint label = some after) (tracked : net.Tracked ext settings) :
    after.Tracked ext settings := by
  intro id agentId agent runs
  have placed := reached_placed idle run.reaches
  have stepped := network_stepped moved
  have present : ∀ n task outputs, (net.server.threads (.request n)).point = .picked task outputs →
      Present task.jobRunId task.nodeRunId net.server.state := fun _ _ _ => Taking.picked_present idle run
  have stays : ∀ old, net.server.state.db.RunsOn id agentId old → old.tokenHash = agent.tokenHash →
      ∃ carrier, after.Carries ext settings id agentId agent.tokenHash carrier := by
    intro old before same
    rw [← same]
    obtain ⟨carrier, carries⟩ := tracked id agentId old before
    by_cases lost : net.Loses id agentId old.tokenHash label carrier
    · obtain ⟨other, carries, kept⟩ := delivers.retained id agentId old carrier before carries lost
      exact Carrying.carries_step placed exchanging stepped present (fun _ _ _ _ => ⟨old, before, rfl⟩) runs.row kept carries
    · exact Carrying.carries_step placed exchanging stepped present (fun _ _ _ _ => ⟨old, before, rfl⟩) runs.row lost carries
  rcases (network_moved moved).server with ⟨move, isMove, serves⟩ | ⟨-, same⟩
  -- a row that runs was carried before, or is taken, or belongs to an agent that comes back
  · cases runsOn_step idle empty run serves runs with
    | stays before same => exact stays _ before same
    | @taken n index executed next assigned found =>
      subst executed
      have isServer : label = .server (.exec (.request n) (.answer index)) := by cases label <;> cases isMove; rfl
      subst isServer
      obtain ⟨i, client, waits, sent, owner⟩ :=
        delivers.awaited n index id agentId agent rfl next assigned runs.remote found runs.online
      have handing := taken_handing (Taking.reached_starting idle run.reaches n) serves next
      cases stepped with
      | server alone _ =>
        refine ⟨.answer n, handing, i, client, ?_, sent, owner⟩
        show (net.clients i).map _ = _
        rw [waits]
        rfl
      | own acts => cases acts
    | @returns slot index old executed next found offline same before =>
      subst executed
      have isServer : label = .server (.exec slot (.answer index)) := by cases label <;> cases isMove; rfl
      subst isServer
      obtain ⟨carrier, carries⟩ := delivers.returned slot index id agentId old rfl next found offline before
      rw [← same]
      refine Carrying.carries_step placed exchanging stepped present ?_ runs.row ?_ carries
      · rintro n choice rfl ⟨⟩
        obtain ⟨⟨headers, payload, token, called, -⟩, -⟩ := carries
        have made := placed.pending next
        rw [called] at made
        cases made
      · intro lost
        cases lost with
        | answer loss => cases loss
        | report loss => cases loss
        | mistaken next' => cases next.symm.trans next'
    | @registers slot index new executed next names before =>
      subst executed names
      have isServer : label = .server (.exec slot (.answer index)) := by cases label <;> cases isMove; rfl
      exact absurd before (delivers.named slot index id new isServer next)
  · rw [same] at runs
    exact stays agent runs rfl

end Delivery

/-- No task and no result is lost in a run whose steps lose none. -/
theorem no_lost_result (ext : External) (settings : Settings) (complaint : String → String)
    (files : String → Option String) (clock : Nat) :
    DeliveryLaw ext settings complaint (Network.initial ext settings files clock) (Delivers ext settings) := by
  intro history net run
  suffices both : net.Exchanging ∧ net.Tracked ext settings from both.2
  induction run with
  | nil =>
    refine ⟨⟨?_, ?_, ?_, ?_⟩, ?_⟩
    · rintro i client ⟨⟩
    · rintro i client n request rest ⟨⟩
    · rintro i j client other n ⟨⟩
    · rintro i client ⟨⟩
    · intro id agentId agent runs
      obtain ⟨node, ⟨⟩, -⟩ := runs.row
  | cons run delivers moved ih =>
    have served := network_served (run.mono fun _ _ _ => trivial)
    exact ⟨Exchange.exchanging_step ih.1 moved,
      Delivery.tracked_step (Config.initial_idle ext settings files clock) (fun _ => rfl) served ih.1 delivers moved ih.2⟩

/-! ## A response that is lost -/

namespace Sample

/-- The agent polls, the server marks the row and answers, and the response does not arrive. -/
def responseLost : List NetLabel :=
  remoteQueued.map .server ++ [.launch 0 token, .send 0 3 (.pollTask headers)] ++
    (turns (.request 3) 5 ++ [Label.resume (.request 3)] ++ turns (.request 3) 1).map .server ++
    [.fail 0 "error sending request"]

def silent (_ : Network) : NetLabel → Bool
  | .server _ => true
  | .launch 0 _ | .send 0 _ (.pollTask _) | .fail 0 _ => true
  | _ => false

def resting (client : Client) : Bool :=
  match client.code with
  | .done _ => decide (client.contact = .ready)
  | _ => false

theorem silent_absent {start net : Network} {history : List NetLabel} {ext : External} {settings : Settings}
    {complaint : String → String} (run : (network ext settings complaint).Path (fun net label => silent net label = true)
      start history net) {i : Nat} (other : i ≠ 0) (absent : start.clients i = none) : net.clients i = none := by
  induction run with
  | nil => exact absent
  | cons run quiet moved ih =>
    refine step_absent moved ?_ ih
    intro acts
    unfold silent at quiet
    split at quiet <;> first | (cases acts; exact other rfl) | cases acts | cases quiet

theorem resting_ready {client : Client} (rests : resting client = true) : client.contact = .ready := by
  unfold resting at rests
  split at rests
  · exact of_decide_eq_true rests
  · cases rests

theorem resting_owes {client : Client} (rests : resting client = true) {server : Config} {id : Nat} :
    ¬client.Owes server id := by
  intro owes
  unfold resting at rests
  split at rests
  · rename_i ended
    cases owes with
    | works ready reports =>
      rw [ended] at reports
      exact reports
    | asks next => cases ended.symm.trans next
    | broken broken next => cases ended.symm.trans next
    | repeats sent next => cases ended.symm.trans next
  · cases rests

end Sample

theorem no_lost_result_response_lost : ¬∀ ext settings complaint files clock,
    DeliveryLaw ext settings complaint (Network.initial ext settings files clock) unrestricted := by
  intro claim
  have law := claim Sample.ext Sample.settings Sample.complaint Sample.files 1000000
  have passed : ((network Sample.ext Sample.settings Sample.complaint).follow Sample.silent
      (Network.initial Sample.ext Sample.settings Sample.files 1000000) Sample.responseLost).any (fun net =>
        (net.clients 0).any Sample.resting &&
        (net.server.state.db.nodeRuns.find 1).any (fun row =>
          decide (row.status = .running ∧ row.assignedAgentId = some Sample.agentId)) &&
        (net.server.state.db.agents.find Sample.agentId).any fun agent => decide (agent.status = .online)) = true := by
    decide +kernel
  obtain ⟨net, followed, passed⟩ := (Option.any_eq_true _ _).mp passed
  obtain ⟨passed, online⟩ := Bool.and_eq_true_iff.mp passed
  obtain ⟨rests, runs⟩ := Bool.and_eq_true_iff.mp passed
  obtain ⟨agent, known, online⟩ := (Option.any_eq_true _ _).mp online
  obtain ⟨row, found, runs⟩ := (Option.any_eq_true _ _).mp runs
  obtain ⟨client, here, rests⟩ := (Option.any_eq_true _ _).mp rests
  have path : (network Sample.ext Sample.settings Sample.complaint).Path (fun net label => Sample.silent net label = true)
      (Network.initial Sample.ext Sample.settings Sample.files 1000000) _ net :=
    (network _ _ _).follow_path (fun _ _ checked => checked) .nil followed
  have run := path.mono (fun _ _ _ => trivial : ∀ net label, Sample.silent net label = true → unrestricted net label)
  -- The only agent is the one that has lost the response, and it rests.
  have only : ∀ i other, net.clients i = some other → Sample.resting other = true := by
    intro i other there
    by_cases same : i = 0
    · subst same
      cases here.symm.trans there
      exact rests
    · cases (Sample.silent_absent path same rfl).symm.trans there
  obtain ⟨running, mine⟩ := of_decide_eq_true runs
  obtain ⟨carrier, carries⟩ := law _ net run 1 Sample.agentId agent
    ⟨⟨row, found, running, mine⟩, by decide +kernel, known, of_decide_eq_true online⟩
  cases carrier with
  | process i =>
    obtain ⟨other, there, -, owes⟩ := carries
    exact Sample.resting_owes (only i other there) owes
  | answer n =>
    obtain ⟨-, i, other, there, sent, -⟩ := carries
    cases (Sample.resting_ready (only i other there)).symm.trans sent
  | report n =>
    obtain ⟨⟨headers, payload, token, called, -⟩, -⟩ := carries
    have attested := Enforcement.attested (fun _ => rfl) run fun _ => rfl
    obtain ⟨i, sender, sent, -⟩ := attested.reports n headers payload called
    obtain ⟨recent, label, earlier, before, after, split, there, -, -, rfl, -⟩ := sent
    rw [split] at path
    have quiet : Sample.silent before (.send i n (.reportResult headers payload)) = true := path.admitted there
    simp [Sample.silent] at quiet

end PostJen.Server
