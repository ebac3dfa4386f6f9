import PostJen.Server.Heartbeats
import PostJen.Server.Sample

/-! What a monitor pass leaves behind.

The pass looks for nodes to sweep only when it has just marked an agent as
offline, and finds them through the row of their agent. It leaves no node
without a living agent behind as long as none comes into being elsewhere.
-/

set_option autoImplicit false

open PostJen.Foundations PostJen.Core

namespace PostJen.Server

def NodeRun.active (node : NodeRun) : Bool := node.status = .queued || node.status = .running

def NodeRun.attended (node : NodeRun) (db : Db) : Prop :=
  ∃ agentId, node.assignedAgentId = some agentId ∧ db.online agentId

/-- A pass begins with the server, and whenever the monitor comes round. -/
def BeginsPass (c : Config) (label : Label) : Prop :=
  (∃ hostname, label = .boot hostname) ∨ label = .resume .monitor ∧ c.ended .monitor = some .monitorTick

/-- The operation of the monitor after which nothing is left to sweep. -/
def CompletesPass (label : Label) (after : Config) : Prop :=
  (∃ choice, label = .exec .monitor choice) ∧ after.ended .monitor = some (.sweep [])

section
variable (ext : External) (settings : Settings) (start : Config) (admits : Config → Label → Prop)

/-- A run since the last beginning of a pass, with the configurations it went through. -/
inductive Pass (first : Config) : List Config → Config → Prop where
  | begin {before : Config} {label : Label} (run : (system ext settings).Reaches admits start before)
      (admitted : admits before label) (moved : step ext settings before label = some first)
      (begins : BeginsPass before label) : Pass first [first] first
  | keep {moments : List Config} {before after : Config} {label : Label} (pass : Pass first moments before)
      (admitted : admits before label) (moved : step ext settings before label = some after)
      (within : ¬BeginsPass before label) : Pass first (after :: moments) after

/-- What holds whenever a pass has completed. -/
structure PassLaw : Prop where
  attended : ∀ first moments c label after id old row, Pass ext settings start admits first moments c → admits c label →
    step ext settings c label = some after → CompletesPass label after →
    first.state.db.nodeRuns.find id = some old → old.active = true →
    after.state.db.nodeRuns.find id = some row → row.active = true →
    ∃ agentId agent, row.assignedAgentId = some agentId ∧ after.state.db.agents.find agentId = some agent ∧
      ∃ moment ∈ after :: moments, moment.state.db.online agentId
  skipped : ∀ c label after nodes, (system ext settings).Reaches admits start c → admits c label →
    step ext settings c label = some after → c.pending .monitor = some (.write (.agents .expire)) →
    CompletesPass label after → nodes ∈ Select.offlineNodes.answers after.state.db → nodes = []

end

/-- The step leaves no row to wait where the monitor does not look. -/
structure Tended (c : Config) (label : Label) : Prop where
  activates : ∀ slot index id change node, label = .exec slot (.answer index) →
    c.pending slot = some (.write (.updateNode id change)) → c.state.db.nodeRuns.find id = some node →
    (change.apply c.state.now node).active = true →
    (node.active = true ∧ (change.apply c.state.now node).assignedAgentId = node.assignedAgentId) ∨
      (change.apply c.state.now node).attended c.state.db ∨
      c.pending .monitor = some (.select .offlineNodes) ∧
        ∃ agentId agent, (change.apply c.state.now node).assignedAgentId = some agentId ∧
          c.state.db.agents.find agentId = some agent
  deletes : ∀ slot index agentId id node, label = .exec slot (.answer index) →
    c.pending slot = some (.write (.agents (.delete agentId))) → c.state.db.nodeRuns.find id = some node →
    node.active = true → node.assignedAgentId ≠ some agentId
  breaks : (∃ text, label = .exec .monitor (.fail text)) ∨ (∃ hostname, label = .boot hostname) →
    ∀ id node, c.state.db.nodeRuns.find id = some node → node.lost c.state.db = false

namespace Sweeping

variable {ext : External} {settings : Settings} {start c after : Config} {admits : Config → Label → Prop} {label : Label}
  {s s' : State} {db : Db} {node : NodeRun} {agentId : String} {id : Nat}

/-! ## Stray rows -/

theorem lost_iff : node.lost db = true ↔ node.active = true ∧
    ∃ agentId agent, node.assignedAgentId = some agentId ∧ db.agents.find agentId = some agent ∧ agent.status = .offline := by
  unfold NodeRun.lost
  rw [Bool.and_eq_true]
  refine and_congr_right fun _ => ?_
  cases assigned : node.assignedAgentId with
  | none => simp
  | some agentId =>
    cases found : db.agents.find agentId with
    | none => simp [found]
    | some agent => simp [found]

def Stray (db : Db) (id : Nat) : Prop := ∃ node, db.nodeRuns.find id = some node ∧ node.lost db = true

def Calm (db : Db) : Prop := ∀ id, ¬Stray db id

def Housed (db : Db) : Prop := ∀ id node, db.nodeRuns.find id = some node → node.active = true →
  ∃ agentId agent, node.assignedAgentId = some agentId ∧ db.agents.find agentId = some agent

theorem attended_of_calm (calm : Calm db) (housed : Housed db) (found : db.nodeRuns.find id = some node)
    (active : node.active = true) : node.attended db := by
  obtain ⟨agentId, agent, assigned, there⟩ := housed id node found active
  refine ⟨agentId, assigned, agent, there, ?_⟩
  cases status : agent.status with
  | online => rfl
  | offline => exact absurd ⟨node, found, lost_iff.mpr ⟨active, agentId, agent, assigned, there, status⟩⟩ (calm id)

theorem not_lost_of_attended (attended : node.attended db) : node.lost db ≠ true := by
  intro lost
  obtain ⟨-, agentId, agent, assigned, found, offline⟩ := lost_iff.mp lost
  obtain ⟨other, same, row, there, online⟩ := attended
  cases assigned.symm.trans same
  cases found.symm.trans there
  cases offline.symm.trans online

/-- Only the monitor's UPDATE takes an agent offline. -/
theorem apply_offline {change : AgentWrite} {now : Timestamp} {agents rows : Table String Agent} {affected : Nat}
    (applied : change.apply now agents = .ok (affected, rows)) (other : change ≠ .expire) {agent : Agent}
    (found : rows.find agentId = some agent) (offline : agent.status = .offline) :
    ∃ old, agents.find agentId = some old ∧ old.status = .offline := by
  rcases apply_agents applied found with ⟨old, there, -⟩ | ⟨_, _, _, _, _, rfl⟩ | ⟨_, _, _, _, rfl⟩
  · refine ⟨old, there, ?_⟩
    cases status : old.status with
    | offline => rfl
    | online =>
      have stays := Heartbeats.apply_online applied there found status fun expire => absurd expire other
      cases stays.symm.trans offline
  · cases offline
  · cases offline

theorem stray_agents {change : AgentWrite} {now : Timestamp} {affected : Nat} {db' : Db}
    (applied : change.apply now db.agents = .ok (affected, db'.agents)) (other : change ≠ .expire)
    (same : db'.nodeRuns = db.nodeRuns) (stray : Stray db' id) : Stray db id := by
  obtain ⟨node, found, lost⟩ := stray
  obtain ⟨active, agentId, agent, assigned, there, offline⟩ := lost_iff.mp lost
  obtain ⟨old, before, status⟩ := apply_offline applied other there offline
  rw [same] at found
  exact ⟨node, found, lost_iff.mpr ⟨active, agentId, old, assigned, before, status⟩⟩

theorem expire_none {now : Timestamp} {agents rows : Table String Agent}
    (applied : AgentWrite.expire.apply now agents = .ok (0, rows)) (agentId : String) :
    rows.find agentId = agents.find agentId := by
  obtain ⟨none, rfl⟩ := Prod.mk.inj (Except.ok.inj applied)
  rw [Table.find_update]
  cases found : agents.find agentId with
  | none => rfl
  | some agent =>
    have fresh : agent.expired agentId now = false := by
      by_contra expired
      have listed : (agentId, agent) ∈ agents.select fun id agent => agent.expired id now :=
        Table.mem_select.mpr ⟨Table.find_eq_some.mp found, Bool.not_eq_false _ ▸ expired⟩
      exact List.ne_nil_of_mem listed (List.length_eq_zero_iff.mp none)
    rw [Option.map_some, fresh, if_neg Bool.false_ne_true]

theorem stray_same {db' : Db} (rows : db'.nodeRuns = db.nodeRuns)
    (agents : ∀ agentId, db'.agents.find agentId = db.agents.find agentId) (stray : Stray db' id) : Stray db id := by
  obtain ⟨node, found, lost⟩ := stray
  obtain ⟨active, agentId, agent, assigned, there, offline⟩ := lost_iff.mp lost
  rw [rows] at found
  rw [agents] at there
  exact ⟨node, found, lost_iff.mpr ⟨active, agentId, agent, assigned, there, offline⟩⟩

theorem stray_swept {now : Timestamp} {swept : Nat} {db' : Db}
    (updated : db'.nodeRuns = db.nodeRuns.updateAt swept (NodeChange.lost.apply now)) (agents : db'.agents = db.agents)
    (stray : Stray db' id) : id ≠ swept ∧ Stray db id := by
  obtain ⟨node, found, lost⟩ := stray
  obtain ⟨active, agentId, agent, assigned, there, offline⟩ := lost_iff.mp lost
  rw [updated, Serial.find_updateAt] at found
  rw [agents] at there
  split at found
  · obtain ⟨old, -, rfl⟩ := Option.map_eq_some_iff.mp found
    cases active
  · rename_i different
    exact ⟨different, node, found, lost_iff.mpr ⟨active, agentId, agent, assigned, there, offline⟩⟩

/-! ## One step -/

theorem expires {slot : Slot} (placed : c.Placed) (next : c.pending slot = some (.write (.agents .expire))) :
    slot = .monitor := by
  have may := placed.pending next
  have hosted := (placed slot).1
  revert may hosted
  generalize (c.threads slot).point = point
  intro may hosted
  cases point with
  | monitorTick => cases slot <;> first | rfl | cases hosted
  | received request => cases request <;> cases may
  | _ => cases may

inductive Stir (c : Config) (label : Label) (after : Config) : Prop where
  | agents (change : AgentWrite) (affected : Nat)
      (applied : change.apply c.state.now c.state.db.agents = .ok (affected, after.state.db.agents))
      (rows : after.state.db.nodeRuns = c.state.db.nodeRuns)
      (other : change = .expire → ∃ choice, label = .exec .monitor choice)
      (deletes : ∀ agentId, change = .delete agentId → ∃ slot index, label = .exec slot (.answer index) ∧
        c.pending slot = some (.write (.agents (.delete agentId))))
  | update (slot : Slot) (index id : Nat) (change : NodeChange) (here : label = .exec slot (.answer index))
      (next : c.pending slot = some (.write (.updateNode id change)))
      (updated : after.state.db.nodeRuns = c.state.db.nodeRuns.updateAt id (change.apply c.state.now))
      (agents : after.state.db.agents = c.state.db.agents)
  | insert (new : NewNodeRun) (inserted : after.state.db.nodeRuns = c.state.db.nodeRuns.insert (new.row c.state.now))
      (agents : after.state.db.agents = c.state.db.agents)
  | same (rows : after.state.db.nodeRuns = c.state.db.nodeRuns) (agents : after.state.db.agents = c.state.db.agents)

theorem stir (placed : c.Placed) (moved : step ext settings c label = some after) : Stir c label after := by
  rcases step_db moved with ⟨same, -⟩ | ⟨slot, choice, op, reply, rfl, next, ran⟩ | ⟨hostname, affected, rfl, registered⟩
  · exact .same (by rw [same]) (by rw [same])
  · by_cases still : after.state = c.state
    · exact .same (by rw [still]) (by rw [still])
    · rcases exec_agents ran with agents | ⟨change, affected, rfl, applied⟩
      · rcases exec_nodeRuns ran with rows | ⟨id, change, rfl, updated⟩ | ⟨new, rfl, inserted⟩
        · exact .same rows agents
        · rcases step_answered next rfl moved with same | ⟨index, rfl⟩
          · exact absurd same still
          · exact .update slot index id change rfl next updated agents
        · exact .insert new inserted agents
      · have rows : after.state.db.nodeRuns = c.state.db.nodeRuns := by
          rcases exec_nodeRuns ran with rows | ⟨_, _, impossible, -⟩ | ⟨_, impossible, -⟩
          · exact rows
          · cases impossible
          · cases impossible
        refine .agents change affected applied rows ?_ ?_
        · rintro rfl
          exact ⟨choice, by rw [expires placed next]⟩
        · rintro agentId rfl
          rcases step_answered next rfl moved with same | ⟨index, rfl⟩
          · exact absurd same still
          · exact ⟨slot, index, rfl, next⟩
  · have same := (Prod.mk.inj (Except.ok.inj registered)).2
    exact .agents (.registerLocal hostname (ext.sha256Hex localAgentId)) 1 (by rw [← same]; rfl) (by rw [← same])
      (by rintro ⟨⟩) (by rintro _ ⟨⟩)

theorem stray_step (placed : c.Placed) (tended : Tended c label) (moved : step ext settings c label = some after)
    (other : ∀ choice, label ≠ .exec .monitor choice)
    (window : c.pending .monitor = some (.select .offlineNodes) → ∃ hostname, label = .boot hostname)
    (stray : Stray after.state.db id) : Stray c.state.db id := by
  cases stir placed moved with
  | agents change affected applied rows expire _ =>
    refine stray_agents applied (fun isExpire => ?_) rows stray
    obtain ⟨choice, here⟩ := expire isExpire
    exact other choice here
  | same rows agents => exact stray_same rows (fun agentId => by rw [agents]) stray
  | insert new inserted agents =>
    obtain ⟨node, found, lost⟩ := stray
    rw [inserted, Serial.find_insert] at found
    split at found
    · cases found
      cases (lost_iff.mp lost).1
    · exact ⟨node, found, lost_iff.mpr (agents ▸ lost_iff.mp lost)⟩
  | update slot index row change here next updated agents =>
    obtain ⟨node, found, lost⟩ := stray
    obtain ⟨active, agentId, agent, assigned, there, offline⟩ := lost_iff.mp lost
    rw [agents] at there
    rw [updated, Serial.find_updateAt] at found
    split at found
    · rename_i same
      subst same
      obtain ⟨old, before, rfl⟩ := Option.map_eq_some_iff.mp found
      rcases tended.activates slot index id change old here next before active with ⟨was, kept⟩ | attended | ⟨looks, -⟩
      · exact ⟨old, before, lost_iff.mpr ⟨was, agentId, agent, kept.symm.trans assigned, there, offline⟩⟩
      · exact absurd (lost_iff.mpr ⟨active, agentId, agent, assigned, there, offline⟩) (not_lost_of_attended attended)
      · obtain ⟨hostname, start⟩ := window looks
        cases here.symm.trans start
    · exact ⟨node, found, lost_iff.mpr ⟨active, agentId, agent, assigned, there, offline⟩⟩

theorem apply_kept {change : AgentWrite} {now : Timestamp} {agents rows : Table String Agent} {affected : Nat}
    (applied : change.apply now agents = .ok (affected, rows)) (spared : change ≠ .delete agentId) {agent : Agent}
    (found : agents.find agentId = some agent) : ∃ later, rows.find agentId = some later := by
  cases change with
  | registerLocal hostname hash =>
    cases applied
    rw [Table.find_upsert]
    split
    · exact ⟨_, rfl⟩
    · exact ⟨agent, found⟩
  | register new =>
    simp only [AgentWrite.apply] at applied
    split at applied
    · cases applied
      rw [Table.find_append]
      split
      · exact ⟨_, rfl⟩
      · exact ⟨agent, found⟩
    · cases applied
  | delete other =>
    cases applied
    have different : agentId ≠ other := fun same => spared (congrArg _ same.symm)
    rw [Table.find_delete, found]
    exact ⟨agent, by simp [different]⟩
  | expire =>
    cases applied
    rw [Table.find_update, found]
    exact ⟨_, rfl⟩
  | touch other | heartbeat other =>
    cases applied
    rw [Table.find_updateAt]
    split
    · exact ⟨_, by rw [found]; rfl⟩
    · exact ⟨agent, found⟩

theorem housed_step (placed : c.Placed) (tended : Tended c label) (moved : step ext settings c label = some after)
    (housed : Housed c.state.db) : Housed after.state.db := by
  intro id node found active
  cases stir placed moved with
  | agents change affected applied rows _ deletes =>
    rw [rows] at found
    obtain ⟨agentId, agent, assigned, there⟩ := housed id node found active
    have spared : change ≠ .delete agentId := fun isDelete => by
      obtain ⟨slot, index, here, next⟩ := deletes agentId isDelete
      exact tended.deletes slot index agentId id node here next found active assigned
    obtain ⟨later, kept⟩ := apply_kept applied spared there
    exact ⟨agentId, later, assigned, kept⟩
  | same rows agents =>
    rw [rows] at found
    rw [agents]
    exact housed id node found active
  | insert new inserted agents =>
    rw [inserted, Serial.find_insert] at found
    rw [agents]
    split at found
    · cases found
      cases active
    · exact housed id node found active
  | update slot index row change here next updated agents =>
    rw [updated, Serial.find_updateAt] at found
    rw [agents]
    split at found
    · rename_i same
      subst same
      obtain ⟨old, before, rfl⟩ := Option.map_eq_some_iff.mp found
      -- what begins to wait, waits for an agent that is there
      rcases tended.activates slot index id change old here next before active with ⟨was, kept⟩ |
        ⟨agentId, assigned, agent, there, -⟩ | ⟨-, agentId, agent, assigned, there⟩
      · rw [kept]
        exact housed id old before was
      · exact ⟨agentId, agent, assigned, there⟩
      · exact ⟨agentId, agent, assigned, there⟩
    · exact housed id node found active

/-! ## The blocks of the monitor -/

structure Settles (before after : State) : Prop where
  strays : ∀ id, Stray after.db id → Stray before.db id
  present : ∀ runId id, Present runId id before → Present runId id after

theorem Settles.trans {middle : State} (first : Settles s middle) (rest : Settles middle s') : Settles s s' where
  strays := fun id stray => first.strays id (rest.strays id stray)
  present := fun runId id present => rest.present runId id (first.present runId id present)

theorem Settles.calm (settles : Settles s s') (calm : Calm s.db) : Calm s'.db :=
  fun id stray => calm id (settles.strays id stray)

/-- The statements of the monitor do not fail for a reason outside the server while a row is stray. -/
def discipline (ext : External) (_ : Point) : Discipline Sig State where
  exec op before reply after :=
    op.exec ext before reply after ∧ before.db.Linked ∧ (op.unfailing ext before reply after ∨ Calm before.db)
  rely := Settles
  guarantee _ _ _ := True

/-- A pass starts without strays, and has every stray on its list. -/
def assertion : Point → State → Prop
  | .idle, _ => True
  | .monitorTick, s => Calm s.db
  | .sweep todo, s => (∀ id, Stray s.db id → ∃ lost ∈ todo, lost.id = id) ∧
      ∀ lost ∈ todo, Present lost.jobRunId lost.id s
  | _, _ => False

theorem settles_preorder (point : Point) : (discipline ext point).Preorder :=
  ⟨fun _ => ⟨fun _ stray => stray, fun _ _ present => present⟩, fun _ _ _ => Settles.trans⟩

theorem stable_assertion (point next : Point) : (discipline ext point).Stable (assertion next) := by
  intro before after settles holds
  cases next with
  | monitorTick => exact settles.calm holds
  | sweep todo =>
    exact ⟨fun id stray => holds.1 id (settles.strays id stray),
      fun lost member => settles.present _ _ (holds.2 lost member)⟩
  | _ => exact holds

/-- The SELECT finds every stray, with the run it belongs to. -/
theorem mem_answers {nodes : List OfflineNodeRun} (member : nodes ∈ Select.offlineNodes.answers db) (lost : OfflineNodeRun) :
    lost ∈ nodes ↔
      ∃ node, db.nodeRuns.find lost.id = some node ∧ node.lost db = true ∧ node.jobRunId = lost.jobRunId := by
  rw [(List.mem_permutations'.mp member).mem_iff]
  constructor
  · intro listed
    obtain ⟨⟨id, node⟩, inside, rfl⟩ := List.mem_map.mp listed
    obtain ⟨inside, isLost⟩ := List.mem_filter.mp inside
    exact ⟨node, Serial.find_eq_some.mpr inside, isLost, rfl⟩
  · rintro ⟨node, found, isLost, same⟩
    refine List.mem_map.mpr ⟨(lost.id, node), List.mem_filter.mpr ⟨Serial.find_eq_some.mp found, isLost⟩, ?_⟩
    exact congrArg (OfflineNodeRun.mk lost.id) same

theorem holds_select {point : Point} :
    (fetch .offlineNodes : Proc Sig AnyError (List OfflineNodeRun)).Holds (discipline ext point)
      (fun todo => assertion (.sweep todo)) (fun _ => assertion .monitorTick) s := by
  rintro before - reply after ⟨ran, linked, proper⟩
  refine ⟨trivial, ?_⟩
  obtain ⟨rfl, ⟨why, rfl⟩ | ⟨nodes, member, rfl⟩⟩ := exec_select ran
  · rcases proper with unfailing | calm
    · obtain ⟨index, order⟩ : ∃ nodes, nodes ∈ Select.offlineNodes.answers after.db :=
        ⟨_, List.mem_permutations'.mpr (List.Perm.refl _)⟩
      obtain ⟨-, row, -, impossible⟩ := Parity.unfailing_select unfailing (List.ne_nil_of_mem order)
      cases impossible
    · exact calm
  · constructor
    · rintro id ⟨node, found, lost⟩
      exact ⟨⟨id, node.jobRunId⟩, (mem_answers member _).mpr ⟨node, found, lost, rfl⟩, rfl⟩
    · intro lost listed
      obtain ⟨node, found, -, same⟩ := (mem_answers member lost).mp listed
      have hasNode : after.db.hasNode lost.id = true := by
        rw [Db.hasNode, found]
        rfl
      exact ⟨same ▸ linked lost.id node found, hasNode⟩

theorem write_agents {change : AgentWrite} {now : Timestamp} {affected : Nat} {db' : Db}
    (applied : (Write.agents change).apply now db = .ok (affected, db')) :
    change.apply now db.agents = .ok (affected, db'.agents) ∧ db'.nodeRuns = db.nodeRuns := by
  simp only [Write.apply] at applied
  split at applied
  · cases applied
  · rename_i changed
    cases applied
    exact ⟨changed, rfl⟩

theorem holds_checkAgentHeartbeats {point : Point} (calm : Calm s.db) :
    checkAgentHeartbeats.Holds (discipline ext point) (fun todo => assertion (.sweep todo))
      (fun _ => assertion .monitorTick) s := by
  rintro before settles reply touched ⟨ran, -, -⟩
  refine ⟨trivial, ?_⟩
  have calm := settles.calm calm
  rcases exec_write ran with ⟨⟨why, rfl⟩, rfl⟩ | ⟨affected, db, applied, rfl, rfl⟩
  · exact calm
  · obtain ⟨changed, rows⟩ := write_agents applied
    rintro middle settles reply after ⟨ran, -, -⟩
    refine ⟨trivial, ?_⟩
    have calm := settles.calm fun id stray => calm id (stray_agents changed (by rintro ⟨⟩) rows stray)
    rcases exec_write ran with ⟨⟨why, rfl⟩, rfl⟩ | ⟨affected, db, applied, rfl, rfl⟩
    · exact calm
    · show (if affected > 0 then fetch .offlineNodes else pure [] : Proc Sig AnyError (List OfflineNodeRun)).Holds _ _ _ _
      split
      · exact holds_select
      · rename_i none
        obtain rfl : affected = 0 := Nat.eq_zero_of_not_pos none
        obtain ⟨marked, rows⟩ := write_agents applied
        refine ⟨fun id stray => absurd ?_ (calm id), fun lost member => absurd member List.not_mem_nil⟩
        exact stray_same rows (expire_none marked) stray

theorem holds_sweepNode {point : Point} {node : OfflineNodeRun} {todo : List OfflineNodeRun}
    (holds : assertion (.sweep (node :: todo)) s) :
    (sweepNode node).Holds (discipline ext point) (fun _ => assertion (.sweep todo)) (fun _ => assertion .monitorTick) s := by
  have stable : ∀ todo, (discipline ext point).Stable (assertion (.sweep todo)) := fun _ => stable_assertion point _
  rintro before settles reply swept ⟨ran, -, proper⟩
  refine ⟨trivial, ?_⟩
  have holds := stable (node :: todo) s before settles holds
  rcases exec_write ran with ⟨⟨why, rfl⟩, rfl⟩ | ⟨affected, db, applied, rfl, same⟩
  · rcases proper with unfailing | calm
    · obtain ⟨impossible, -⟩ := Parity.unfailing_write unfailing rfl
      cases impossible
    · exact calm
  · cases applied
    have updated : swept.db.nodeRuns = before.db.nodeRuns.updateAt node.id (NodeChange.lost.apply before.now) := by rw [same]
    have present : ∀ lost ∈ node :: todo, Present lost.jobRunId lost.id swept := by
      intro lost member
      have there := holds.2 lost member
      exact ⟨by rw [same]; exact there.run, hasNode_updateAt updated there.node⟩
    -- the swept row waits no longer, and the others are still on the list
    have listed : assertion (.sweep todo) swept := by
      refine ⟨fun id stray => ?_, fun lost member => present lost (List.mem_cons_of_mem _ member)⟩
      obtain ⟨different, stray⟩ := stray_swept updated (by rw [same]) stray
      obtain ⟨lost, member, rfl⟩ := holds.1 id stray
      rcases List.mem_cons.mp member with rfl | member
      · exact absurd rfl different
      · exact ⟨lost, member, rfl⟩
    rintro middle settles reply after ⟨ran, -, proper⟩
    refine ⟨trivial, ?_⟩
    have listed := stable todo swept middle settles listed
    have here := settles.present _ _ (present node List.mem_cons_self)
    rcases exec_write ran with ⟨⟨why, rfl⟩, rfl⟩ | ⟨affected, db, applied, rfl, rfl⟩
    · rcases proper with unfailing | calm
      · obtain ⟨impossible, -⟩ := Parity.unfailing_write unfailing here.apply_event
        cases impossible
      · exact calm
    · simp only [Write.apply] at applied
      split at applied
      · cases applied
      · cases applied
        exact ⟨fun id stray => listed.1 id stray,
          fun lost member => ⟨(listed.2 lost member).run, (listed.2 lost member).node⟩⟩

theorem holds_block (point : Point) (s : State) (holds : assertion point s) :
    (block ext settings point).Holds (discipline ext point) assertion (fun why _ => why.elim) s := by
  cases point with
  | idle => trivial
  | monitorTick =>
    refine holds_otherwise ((Proc.holds_bind _ _ _).mpr ((holds_checkAgentHeartbeats holds).mono ?_ ?_))
    · exact fun todo s listed => listed
    · exact fun _ s calm => calm
  | sweep todo =>
    cases todo with
    | nil =>
      intro id stray
      obtain ⟨lost, member, -⟩ := holds.1 id stray
      cases member
    | cons node todo =>
      refine holds_otherwise ((Proc.holds_bind _ _ _).mpr ((holds_sweepNode holds).mono ?_ ?_))
      · exact fun _ s listed => listed
      · exact fun _ s calm => calm
  | _ => exact holds.elim

def Looks (ext : External) (point : Point) (op : Op) (rest : op.Reply → Proc Sig Empty Point) : Prop :=
  op = .select .offlineNodes →
    ∀ s, (Proc.call op rest).Holds (discipline ext point) assertion (fun why _ => why.elim) s

def Open (ext : External) (point : Point) (code : Proc Sig Empty Point) : Prop :=
  code.Each (fun _ _ => True) (Looks ext point)

theorem block_looks {point : Point} (hosted : Slot.monitor.hosts point = true) :
    Open ext point (block ext settings point) := by
  cases point with
  | idle => trivial
  | monitorTick =>
    refine ⟨by rintro ⟨⟩, fun reply _ => ?_⟩
    cases reply with
    | error why => trivial
    | ok affected =>
      refine ⟨by rintro ⟨⟩, fun reply _ => ?_⟩
      cases reply with
      | error why => trivial
      | ok affected =>
        show (otherwise .monitorTick ((if affected > 0 then fetch .offlineNodes else pure []) >>= fun todo =>
          pure (.sweep todo))).Each (fun _ _ => True) (Looks ext .monitorTick)
        split
        · refine ⟨fun _ s => holds_otherwise ((Proc.holds_bind _ _ _).mpr (holds_select.mono ?_ ?_)), fun reply _ => ?_⟩
          · exact fun todo s listed => listed
          · exact fun _ s calm => calm
          · cases reply <;> trivial
        · trivial
  | sweep todo =>
    cases todo with
    | nil => trivial
    | cons node todo =>
      refine ⟨by rintro ⟨⟩, fun reply _ => ?_⟩
      cases reply with
      | error why => trivial
      | ok affected =>
        refine ⟨by rintro ⟨⟩, fun reply _ => ?_⟩
        cases reply <;> trivial
  | _ => cases hosted

/-! ## The monitor over a run -/

theorem settles_step (idle : ∀ slot, start.threads slot = enter ext settings .idle)
    (run : (system ext settings).Reaches admits start c) (tended : Tended c label)
    (moved : step ext settings c label = some after) (other : ∀ choice, label ≠ .exec .monitor choice)
    (window : c.pending .monitor = some (.select .offlineNodes) → ∃ hostname, label = .boot hostname) : Settles c.state after.state where
  strays := fun _ stray => stray_step (reached_placed idle run) tended moved other window stray
  present := by
    intro runId id present
    refine ⟨step_hasRun moved present.run, ?_⟩
    obtain ⟨node, found⟩ := Option.isSome_iff_exists.mp present.node
    obtain ⟨later, found, -⟩ := nodeStep moved found
    rw [Db.hasNode, found]
    rfl

section
variable {files : String → Option String} {clock : Nat} {history : List Label}

variable (ext settings files clock) in
def watch : Watch ext settings (Config.initial ext settings files clock) Tended .monitor State where
  view _ c := c.state
  discipline := discipline ext
  assertion := assertion

theorem watch_valid : (watch ext settings files clock).Valid where
  refl := fun point => (settles_preorder point).refl
  blocks := fun point s holds => holds_block point s holds
  runs := by
    intro history c choice after op rest reply run tended moved next ran
    refine ⟨⟨choice, ran⟩, reaches_linked run.reaches, ?_⟩
    by_cases fails : ∃ text, choice = .fail text
    · obtain ⟨text, rfl⟩ := fails
      refine .inr ?_
      rintro id ⟨node, found, lost⟩
      cases lost.symm.trans (tended.breaks (.inl ⟨text, rfl⟩) id node found)
    · exact .inl ⟨choice, fun text same => fails ⟨text, same⟩, ran⟩
  resumes := by
    intro history c after point run admitted moved ended holds
    have same : after.state = c.state := by
      cases step_moved moved with
      | resume => rfl
    show assertion point after.state
    rw [same]
    exact holds
  suffers := by
    intro history c label after run tended moved other entry notResume holds
    have idle := Config.initial_idle ext settings files clock
    by_cases window : c.pending .monitor = some (.select .offlineNodes)
    · -- The list of strays is not read yet, so that it does not matter what they are.
      obtain ⟨rest, code⟩ := pending_eq_some.mp window
      have looks : Open ext (c.threads .monitor).point (c.threads .monitor).code := reached_part idle run.reaches .monitor
        (Open ext (c.threads .monitor).point) (fun _ _ each reply => each.2 reply trivial)
        (block_looks (reached_placed idle run.reaches .monitor).1)
      unfold Thread.Holds
      rw [code] at looks ⊢
      exact looks.1 rfl _
    · exact Thread.Holds.rely (settles_preorder (c.threads .monitor).point) (stable_assertion (c.threads .monitor).point)
        holds (settles_step idle run.reaches tended moved other fun looks => absurd looks window)
  enters := by
    intro history c label after point run tended moved entry
    cases entry with
    | boot hostname =>
      have settles := settles_step (Config.initial_idle ext settings files clock) run.reaches tended moved (by rintro _ ⟨⟩)
        fun _ => ⟨hostname, rfl⟩
      refine settles.calm ?_
      rintro id ⟨node, found, lost⟩
      cases lost.symm.trans (tended.breaks (.inr ⟨hostname, rfl⟩) id node found)
  idle := trivial

/-- When a pass has completed, no row waits for an agent that is offline. -/
theorem calm_completed (run : (system ext settings).Path Tended (Config.initial ext settings files clock) history c)
    (ended : c.ended .monitor = some (.sweep [])) : Calm c.state.db := by
  have valid : (watch ext settings files clock).Valid := watch_valid
  have holds := Thread.Holds.at_point (valid.sound (Config.initial_idle ext settings files clock .monitor) run)
    (ended_eq_some.mp ended)
  intro id stray
  obtain ⟨lost, member, -⟩ := holds.1 id stray
  cases member

theorem reached_housed (run : (system ext settings).Reaches Tended (Config.initial ext settings files clock) c) :
    Housed c.state.db := by
  have both : c.Placed ∧ Housed c.state.db := by
    refine run.invariant (fun c => c.Placed ∧ Housed c.state.db) ⟨?_, fun _ _ found => by cases found⟩ ?_
    · exact reached_placed (Config.initial_idle ext settings files clock) (.refl _ : (system ext settings).Reaches everything _ _)
    · exact fun before label after both tended moved =>
        ⟨placed_step both.1 (step_moved moved), housed_step both.1 tended moved both.2⟩
  exact both.2

end

end Sweeping

theorem Pass.reaches {ext : External} {settings : Settings} {start first c : Config} {admits : Config → Label → Prop}
    {moments : List Config} (pass : Pass ext settings start admits first moments c) :
    (system ext settings).Reaches admits start c := by
  induction pass with
  | begin run admitted moved _ => exact run.snoc admitted moved
  | keep _ admitted moved _ ih => exact ih.snoc admitted moved

theorem pass_attends (ext : External) (settings : Settings) (files : String → Option String) (clock : Nat) :
    PassLaw ext settings (Config.initial ext settings files clock) Tended where
  attended := by
    intro first moments c label after id old row pass tended moved completes _ _ found active
    have run := pass.reaches.snoc tended moved
    obtain ⟨history, path⟩ := run.path
    obtain ⟨agentId, agent, assigned, there⟩ := Sweeping.reached_housed run id row found active
    obtain ⟨other, same, online⟩ := Sweeping.attended_of_calm (Sweeping.calm_completed path completes.2)
      (Sweeping.reached_housed run) found active
    cases assigned.symm.trans same
    exact ⟨agentId, agent, assigned, there, after, List.mem_cons_self, online⟩
  skipped := by
    intro c label after nodes run tended moved _ completes member
    obtain ⟨history, path⟩ := (run.snoc tended moved).path
    have calm := Sweeping.calm_completed path completes.2
    refine List.eq_nil_iff_forall_not_mem.mpr fun lost listed => ?_
    obtain ⟨node, found, isLost, -⟩ := (Sweeping.mem_answers member lost).mp listed
    exact calm lost.id ⟨node, found, isLost⟩

/-! ## An agent that is deleted while a node is queued for it -/

def Sample.swept : Point → Option (List OfflineNodeRun)
  | .sweep todo => some todo
  | _ => none

theorem Sample.swept_eq {point : Point} {todo : List OfflineNodeRun} (found : Sample.swept point = some todo) :
    point = .sweep todo := by
  cases point <;> cases found
  rfl

def Sample.home : Point → Bool
  | .monitorTick => true
  | _ => false

theorem Sample.home_eq {point : Point} (found : Sample.home point = true) : point = .monitorTick := by
  cases point <;> cases found
  rfl

theorem pass_attends_deleted : ¬∀ ext settings files clock,
    PassLaw ext settings (Config.initial ext settings files clock) everything := by
  intro claim
  have law := (claim Sample.ext Sample.settings Sample.files 1000000).attended
  have passed : (Sample.run (fun _ _ => true) (Sample.remoteQueued ++ Sample.serve 3 (.deleteAgent Sample.agentId) 1 ++
      Sample.turns .monitor 2 ++ [.resume .monitor])).any (fun before => (before.ended .monitor).any Sample.home &&
        (step Sample.ext Sample.settings before (.resume .monitor)).any fun first =>
          (first.state.db.nodeRuns.find 1).any NodeRun.active &&
          (step Sample.ext Sample.settings first (.exec .monitor (.answer 0))).any fun middle =>
            (step Sample.ext Sample.settings middle (.exec .monitor (.answer 0))).any fun after =>
              decide ((after.ended .monitor).bind Sample.swept = some []) &&
              (after.state.db.nodeRuns.find 1).any (fun row => row.active && decide (row.assignedAgentId = some Sample.agentId)) &&
              (after.state.db.agents.find Sample.agentId).isNone) = true := by
    decide +kernel
  obtain ⟨before, followed, passed⟩ := (Option.any_eq_true _ _).mp passed
  obtain ⟨home, passed⟩ := Bool.and_eq_true_iff.mp passed
  obtain ⟨first, begun, passed⟩ := (Option.any_eq_true _ _).mp passed
  obtain ⟨waits, passed⟩ := Bool.and_eq_true_iff.mp passed
  obtain ⟨middle, touched, passed⟩ := (Option.any_eq_true _ _).mp passed
  obtain ⟨after, marked, passed⟩ := (Option.any_eq_true _ _).mp passed
  obtain ⟨passed, gone⟩ := Bool.and_eq_true_iff.mp passed
  obtain ⟨ended, still⟩ := Bool.and_eq_true_iff.mp passed
  obtain ⟨old, waiting, active⟩ := (Option.any_eq_true _ _).mp waits
  obtain ⟨row, found, passed⟩ := (Option.any_eq_true _ _).mp still
  obtain ⟨stays, assigned⟩ := Bool.and_eq_true_iff.mp passed
  obtain ⟨point, atHome, home⟩ := (Option.any_eq_true _ _).mp home
  obtain ⟨last, atEnd, swept⟩ := Option.bind_eq_some_iff.mp (of_decide_eq_true ended)
  cases Sample.home_eq home
  cases Sample.swept_eq swept
  have starts : Pass Sample.ext Sample.settings Sample.initial everything first [first] first :=
    .begin (Sample.reached_freely followed) trivial begun (.inr ⟨rfl, atHome⟩)
  have pass := starts.keep trivial touched (by rintro (⟨_, ⟨⟩⟩ | ⟨⟨⟩, _⟩))
  obtain ⟨agentId, agent, same, there, -⟩ := law first _ middle _ after 1 old row pass trivial marked ⟨⟨_, rfl⟩, atEnd⟩
    waiting active found stays
  cases same.symm.trans (of_decide_eq_true assigned)
  rw [there] at gone
  cases gone

end PostJen.Server
