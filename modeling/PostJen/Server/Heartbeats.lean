import PostJen.Server.Tokens
import PostJen.Server.Batches

/-! What a heartbeat does for an agent.

The handler sets the status of the agent to online. It comes to its UPDATE only
behind an authentication that answers for agents which are online already.
-/

set_option autoImplicit false

open PostJen.Foundations PostJen.Core

namespace PostJen.Server

def Db.online (db : Db) (agentId : String) : Prop :=
  ∃ agent, db.agents.find agentId = some agent ∧ agent.status = .online

def State.Fresh (s : State) (agentId : String) : Prop :=
  ∃ agent, s.db.agents.find agentId = some agent ∧ agent.status = .online ∧ agent.lastHeartbeatAt = s.now

/-- However the heartbeat is executed, it succeeds and leaves the agent online and fresh. -/
def Restores (ext : External) (headers : Headers) (agentId : String) (s : State) : Prop :=
  ∀ outcome s', Handles ext (heartbeat ext headers) s outcome s' → (∃ answer, outcome = .ok answer) ∧ s'.Fresh agentId

/-- No other agent that is online has the hash of the token, or nothing is left to refresh. -/
def Addressed (ext : External) (token agentId : String) (s : State) : Prop :=
  (∀ other agent, s.db.agents.find other = some agent → agent.tokenHash = ext.sha256Hex token →
    agent.status = .online → other = agentId) ∨ s.Fresh agentId

/-- The step is not a monitor pass that finds the agent without a heartbeat for a minute. -/
def Lets (agentId : String) (c : Config) : Label → Prop
  | .exec slot _ => c.pending slot = some (.write (.agents .expire)) →
      ∀ agent, c.state.db.agents.find agentId = some agent → agent.expired agentId c.state.now = false
  | _ => True

/-- When a heartbeat restores an agent, and the runs in which that is always so. -/
structure Restorable (ext : External) (admits : Config → Label → Prop) (headers : Headers) (token agentId : String)
    (c : Config) : Prop where
  answered : Restores ext headers agentId c.state ↔ c.state.db.online agentId ∧ Addressed ext token agentId c.state
  spared : (∀ before label, admits before label → Lets agentId before label) → c.state.db.online agentId

namespace Heartbeats

variable {ext : External} {settings : Settings} {admits : Config → Label → Prop} {start c after : Config}
  {label : Label} {history : List Label} {headers : Headers} {agentId other token : String} {s s' : State}
  {outcome : Except ApiError Answer}

/-! ## One heartbeat -/

theorem mem_anyOne_iff {A : Type} {rows : List A} {row : A} : some row ∈ anyOne rows ↔ row ∈ rows := by
  refine ⟨mem_anyOne, fun member => ?_⟩
  rw [Parity.anyOne_some (List.ne_nil_of_mem member)]
  exact List.mem_map_of_mem member

theorem mem_agentByToken {db : Db} {hash : String} : some agentId ∈ (Select.agentByToken hash).answers db ↔
    ∃ agent, db.agents.find agentId = some agent ∧ agent.tokenHash = hash ∧ agent.status = .online := by
  refine Iff.trans mem_anyOne_iff ?_
  simp only [List.mem_map, List.mem_filter, Bool.and_eq_true, decide_eq_true_eq]
  constructor
  · rintro ⟨⟨_, agent⟩, ⟨inside, same, online⟩, rfl⟩
    exact ⟨agent, Table.find_eq_some.mpr inside, same, online⟩
  · rintro ⟨agent, found, same, online⟩
    exact ⟨(agentId, agent), ⟨Table.find_eq_some.mp found, same, online⟩, rfl⟩

theorem none_agentByToken {db : Db} {hash : String} (member : none ∈ (Select.agentByToken hash).answers db) :
    ∀ other agent, db.agents.find other = some agent → agent.tokenHash = hash → agent.status ≠ .online := by
  intro other agent found same online
  have answered := mem_agentByToken.mpr ⟨agent, found, same, online⟩
  rw [Select.answers] at answered member
  rw [Parity.anyOne_some (List.ne_nil_of_mem (mem_anyOne answered))] at member
  obtain ⟨_, -, impossible⟩ := List.mem_map.mp member
  cases impossible

def beat (s : State) (agentId : String) : State :=
  { s with db := { s.db with agents := s.db.agents.updateAt agentId fun agent : Agent =>
      { agent with lastHeartbeatAt := s.now, status := .online } } }

theorem unfailing_heartbeat {reply : Except SqlError Nat}
    (ran : (Op.write (.agents (.heartbeat other))).unfailing ext s reply s') :
    (∃ affected, reply = .ok affected) ∧ s' = beat s other := by
  obtain ⟨choice, proper, ran⟩ := ran
  cases choice with
  | answer index =>
    cases ran
    exact ⟨⟨_, rfl⟩, rfl⟩
  | fail text => exact absurd rfl (proper text)
  | _ => cases ran

/-- A heartbeat refreshes an online agent with the hash of its token, or there is none. -/
theorem handles_cases (named : bearer headers = some token) (handled : Handles ext (heartbeat ext headers) s outcome s') :
    (∀ other agent, s.db.agents.find other = some agent → agent.tokenHash = ext.sha256Hex token →
        agent.status ≠ .online) ∧ (∃ why, outcome = .error why) ∧ s' = s ∨
      ∃ other agent, s.db.agents.find other = some agent ∧ agent.tokenHash = ext.sha256Hex token ∧
        agent.status = .online ∧ (∃ answer, outcome = .ok answer) ∧ s' = beat s other := by
  unfold Handles heartbeat authenticateAgent at handled
  rw [named] at handled
  obtain ⟨reply, middle, selected, rest⟩ := handled
  obtain ⟨rfl, row, member, rfl⟩ := Parity.unfailing_select selected (Batches.anyOne_ne_nil _)
  cases row with
  | none =>
    obtain ⟨rfl, rfl⟩ := rest
    exact .inl ⟨none_agentByToken member, ⟨_, rfl⟩, rfl⟩
  | some other =>
    obtain ⟨agent, found, same, online⟩ := mem_agentByToken.mp member
    obtain ⟨reply, last, updated, rest⟩ := rest
    obtain ⟨⟨affected, rfl⟩, rfl⟩ := unfailing_heartbeat updated
    obtain ⟨rfl, rfl⟩ := rest
    exact .inr ⟨other, agent, found, same, online, ⟨_, rfl⟩, rfl⟩

theorem handles_other (named : bearer headers = some token) {agent : Agent} (found : s.db.agents.find other = some agent)
    (same : agent.tokenHash = ext.sha256Hex token) (online : agent.status = .online) :
    Handles ext (heartbeat ext headers) s (.ok (ok .empty)) (beat s other) := by
  unfold Handles heartbeat authenticateAgent
  rw [named]
  obtain ⟨index, listed⟩ := List.mem_iff_getElem?.mp (mem_agentByToken.mpr ⟨agent, found, same, online⟩)
  have selected : (Op.select (.agentByToken (ext.sha256Hex token))).unfailing ext s (.ok (some other)) s := by
    refine ⟨.answer index, by rintro _ ⟨⟩, ?_⟩
    simp only [Op.run]
    split
    · rename_i rows
      rw [rows] at listed
      cases listed
    · rw [listed]
      rfl
  exact ⟨_, _, selected, _, _, ⟨.answer 0, by rintro _ ⟨⟩, rfl⟩, rfl, rfl⟩

theorem beat_fresh {agent : Agent} (found : s.db.agents.find agentId = some agent) : (beat s agentId).Fresh agentId :=
  ⟨_, by rw [beat, Table.find_updateAt_self, found]; rfl, rfl, rfl⟩

theorem beat_other (different : agentId ≠ other) : (beat s other).Fresh agentId ↔ s.Fresh agentId := by
  have same : (beat s other).db.agents.find agentId = s.db.agents.find agentId := Table.find_updateAt_ne _ _ different
  unfold State.Fresh
  rw [same]
  rfl

theorem restores_iff (named : bearer headers = some token) {agent : Agent} (found : s.db.agents.find agentId = some agent)
    (owns : agent.tokenHash = ext.sha256Hex token) :
    Restores ext headers agentId s ↔ s.db.online agentId ∧ Addressed ext token agentId s := by
  constructor
  · intro restores
    constructor
    · obtain ⟨outcome, s', handled⟩ := Parity.handles_some (heartbeat ext headers) s
      obtain ⟨⟨answer, accepted⟩, fresh⟩ := restores outcome s' handled
      rcases handles_cases named handled with ⟨-, ⟨why, refused⟩, -⟩ | ⟨other, row, there, -, online, -, rfl⟩
      · cases accepted.symm.trans refused
      · by_cases same : agentId = other
        · exact ⟨row, same ▸ there, online⟩
        · obtain ⟨row, there, online, -⟩ := (beat_other same).mp fresh
          exact ⟨row, there, online⟩
    · by_cases another : ∃ other row, s.db.agents.find other = some row ∧ row.tokenHash = ext.sha256Hex token ∧
          row.status = .online ∧ agentId ≠ other
      · obtain ⟨other, row, there, same, online, different⟩ := another
        exact .inr ((beat_other different).mp (restores _ _ (handles_other named there same online)).2)
      · refine .inl fun other row there same online => ?_
        by_contra different
        exact another ⟨other, row, there, same, online, fun equal => different equal.symm⟩
  · rintro ⟨⟨row, again, online⟩, addressed⟩ outcome s' handled
    cases found.symm.trans again
    rcases handles_cases named handled with ⟨never, -, -⟩ | ⟨other, row, there, same, beating, accepted, rfl⟩
    · exact absurd online (never agentId agent found owns)
    · refine ⟨accepted, ?_⟩
      by_cases itself : agentId = other
      · subst itself
        exact beat_fresh found
      · rcases addressed with single | fresh
        · exact absurd (single other row there same beating).symm itself
        · exact (beat_other itself).mpr fresh

/-! ## The row of an agent over a run -/

/-- No statement but the monitor's takes an agent offline. -/
theorem apply_online {change : AgentWrite} {now : Timestamp} {agents rows : Table String Agent} {affected : Nat}
    (applied : change.apply now agents = .ok (affected, rows)) {old agent : Agent}
    (found : agents.find agentId = some old) (later : rows.find agentId = some agent) (online : old.status = .online)
    (lets : change = .expire → old.expired agentId now = false) : agent.status = .online := by
  cases change with
  | registerLocal hostname hash =>
    cases applied
    rw [Table.find_upsert] at later
    split at later
    · rename_i isLocal
      rw [← isLocal, found] at later
      cases later
      rfl
    · cases found.symm.trans later
      exact online
  | register new =>
    simp only [AgentWrite.apply] at applied
    split at applied
    · rename_i fresh
      cases applied
      rw [Table.find_append] at later
      split at later
      · cases later
        rfl
      · cases found.symm.trans later
        exact online
    · cases applied
  | delete other =>
    cases applied
    rw [Table.find_delete, Option.filter_eq_some_iff] at later
    cases found.symm.trans later.1
    exact online
  | expire =>
    cases applied
    rw [Table.find_update, found] at later
    cases later
    simp only [lets rfl, Bool.false_eq_true, if_false]
    exact online
  | touch other | heartbeat other =>
    cases applied
    rw [Table.find_updateAt, found] at later
    split at later
    · cases later
      first | rfl | exact online
    · cases later
      exact online

theorem issued_now (ready : Tokens.Ready ext c) (moved : step ext settings c label = some after)
    (issues : Issues agentId token c label after) :
    ∃ agent, after.state.db.agents.find agentId = some agent ∧ agent.tokenHash = ext.sha256Hex token ∧
      agent.status = .online := by
  obtain ⟨n, choice, new, rfl, next, rfl, responded⟩ := issues
  obtain ⟨op, rest, reply, code, next', ran, threads⟩ := step_exec moved
  cases next.symm.trans next'
  have here := ready (.request n)
  rw [code] at here
  obtain ⟨bytes, -, hash, answers⟩ := here.1
  rw [threads, Config.put_self, answers reply] at responded
  rcases exec_write ⟨choice, ran⟩ with ⟨⟨why, rfl⟩, -⟩ | ⟨affected, db, applied, rfl, same⟩
  · cases responded
  · cases responded
    simp only [Write.apply, AgentWrite.apply] at applied
    split at applied
    · cases applied
    · rename_i inserted
      split at inserted
      · cases inserted
        cases applied
        refine ⟨new.row c.state.now, ?_, hash, rfl⟩
        rw [same, Table.find_append, if_pos rfl]
      · cases inserted

theorem apply_token {change : AgentWrite} {now : Timestamp} {agents rows : Table String Agent} {affected : Nat}
    (applied : change.apply now agents = .ok (affected, rows)) {old agent : Agent}
    (found : agents.find agentId = some old) (later : rows.find agentId = some agent) :
    agent.tokenHash = old.tokenHash := by
  rcases apply_agents applied later with ⟨row, there, kept⟩ | ⟨_, _, _, _, absent, -⟩ | ⟨_, _, _, absent, -⟩
  · cases found.symm.trans there
    exact kept.token.symm
  · cases found.symm.trans absent
  · cases found.symm.trans absent

theorem issued_row (idle : ∀ slot, start.threads slot = enter ext settings .idle)
    (issued : Issued ext settings admits start agentId token history c) :
    ∃ agent, c.state.db.agents.find agentId = some agent ∧ agent.tokenHash = ext.sha256Hex token ∧
      ((∀ before label, admits before label → Lets agentId before label) → agent.status = .online) := by
  induction issued with
  | issue run admitted moved issues =>
    obtain ⟨agent, found, same, online⟩ := issued_now (Tokens.reached_ready idle run.reaches) moved issues
    exact ⟨agent, found, same, fun _ => online⟩
  | keep _ admitted moved present ih =>
    obtain ⟨old, found, same, online⟩ := ih
    obtain ⟨agent, later⟩ := Option.isSome_iff_exists.mp present
    -- no statement changes a token's hash; the status is kept by the steps that are let through
    rcases step_agents moved with unchanged | ⟨slot, choice, change, affected, rfl, next, applied⟩ |
      ⟨hostname, affected, rfl, applied⟩
    · rw [unchanged] at later ⊢
      exact ⟨old, found, same, online⟩
    · refine ⟨agent, later, (apply_token applied found later).trans same, fun lets => ?_⟩
      refine apply_online applied found later (online lets) ?_
      rintro rfl
      exact lets _ _ admitted next old found
    · refine ⟨agent, later, (apply_token applied found later).trans same, fun lets => ?_⟩
      exact apply_online applied found later (online lets) fun impossible => by cases impossible

end Heartbeats

theorem heartbeat_restores {ext : External} {settings : Settings} {admits : Config → Label → Prop}
    {files : String → Option String} {clock : Nat} {history : List Label} {c : Config} {headers : Headers}
    {token agentId : String}
    (issued : Issued ext settings admits (Config.initial ext settings files clock) agentId token history c)
    (named : bearer headers = some token) : Restorable ext admits headers token agentId c := by
  obtain ⟨agent, found, same, online⟩ := Heartbeats.issued_row (Config.initial_idle ext settings files clock) issued
  exact ⟨Heartbeats.restores_iff named found same, fun lets => ⟨agent, found, online lets⟩⟩

/-! ## An agent that was away for a minute -/

theorem Sample.issued {history : List Label} {c : Config} {agent : Agent}
    (run : (system Sample.ext Sample.settings).Path everything Sample.initial history c)
    (found : c.state.db.agents.find Sample.agentId = some agent)
    (hash : agent.tokenHash = Sample.ext.sha256Hex Sample.token) :
    Issued Sample.ext Sample.settings everything Sample.initial Sample.agentId Sample.token history c := by
  rcases Tokens.path_accounted (Config.initial_idle _ _ _ _) rfl run _ agent found with ⟨isLocal, -⟩ |
    ⟨bytes, -, known, issued⟩
  · exact absurd isLocal (by decide +kernel)
  · have same := known.symm.trans hash
    simp only [Sample.ext] at same
    rwa [Sample.sha256Hex_inj _ Sample.token (.inr rfl) same] at issued

theorem heartbeat_restores_registered : ∃ history c,
    Issued Sample.ext Sample.settings everything Sample.initial Sample.agentId Sample.token history c ∧
    Restores Sample.ext Sample.headers Sample.agentId c.state := by
  have passed : (Sample.run (fun _ _ => true) (.boot "localhost" :: Sample.registered 0)).any (fun c =>
      (c.state.db.agents.find Sample.agentId).any (fun agent =>
        decide (agent.tokenHash = Sample.ext.sha256Hex Sample.token ∧ agent.status = .online)) &&
      c.state.db.agents.rows.all fun row =>
        decide (row.2.tokenHash = Sample.ext.sha256Hex Sample.token → row.1 = Sample.agentId)) = true := by
    decide +kernel
  obtain ⟨history, c, run, passed⟩ := Sample.arrives_freely passed
  obtain ⟨present, single⟩ := Bool.and_eq_true_iff.mp passed
  obtain ⟨agent, found, known⟩ := (Option.any_eq_true _ _).mp present
  obtain ⟨hash, online⟩ := of_decide_eq_true known
  have issued := Sample.issued run found hash
  have named : bearer Sample.headers = some Sample.token := by decide +kernel
  refine ⟨history, c, issued, (heartbeat_restores issued named).answered.mpr ⟨⟨agent, found, online⟩, .inl ?_⟩⟩
  intro other row there same _
  exact of_decide_eq_true (List.all_eq_true.mp single _ (Table.find_eq_some.mp there)) same

/-- Two minutes without a heartbeat, and a monitor pass. -/
theorem heartbeat_refused : ¬∀ ext settings files clock history c headers token agentId,
    Issued ext settings everything (Config.initial ext settings files clock) agentId token history c →
    bearer headers = some token → Restores ext headers agentId c.state := by
  intro claim
  have passed : (Sample.run (fun _ _ => true) (.boot "localhost" :: Sample.registered 0 ++
      .clock 1120000 :: Sample.turns .monitor 2)).any (fun c =>
        (c.state.db.agents.find Sample.agentId).any fun agent =>
          decide (agent.tokenHash = Sample.ext.sha256Hex Sample.token ∧ agent.status = .offline)) = true := by
    decide +kernel
  obtain ⟨history, c, run, present⟩ := Sample.arrives_freely passed
  obtain ⟨agent, found, known⟩ := (Option.any_eq_true _ _).mp present
  obtain ⟨hash, offline⟩ := of_decide_eq_true known
  have named : bearer Sample.headers = some Sample.token := by decide +kernel
  have restores := claim _ _ _ _ history c _ _ _ (Sample.issued run found hash) named
  obtain ⟨row, again, online⟩ := ((Heartbeats.restores_iff named found hash).mp restores).1
  cases found.symm.trans again
  cases offline.symm.trans online

end PostJen.Server
