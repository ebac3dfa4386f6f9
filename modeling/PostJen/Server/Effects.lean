import PostJen.Server.Operations

/-! What one operation does to one table.

Each lemma lists every way an operation can change a table, with the statement
that does it; all other operations leave the table as it is.
-/

set_option autoImplicit false

open PostJen.Foundations PostJen.Core

namespace PostJen.Server

private theorem write_effect {write : Write} {now : Timestamp} {db db' : Db} {result : Nat}
    (applied : write.apply now db = .ok (result, db')) :
    (db'.nodeRuns = db.nodeRuns ∨
      (∃ id change, write = .updateNode id change ∧
        db'.nodeRuns = db.nodeRuns.updateAt id (change.apply now)) ∨
      ∃ node, write = .insertNode node ∧ db'.nodeRuns = db.nodeRuns.insert (node.row now)) ∧
    (db'.jobRuns = db.jobRuns ∨
      ∃ id change, write = .updateJob id change ∧
        db'.jobRuns = db.jobRuns.updateAt id (change.apply now)) ∧
    (db'.agents = db.agents ∨
      ∃ change affected, write = .agents change ∧
        change.apply now db.agents = .ok (affected, db'.agents)) := by
  cases write with
  | insertNode node =>
    simp only [Write.apply] at applied
    split at applied
    · cases applied
    · split at applied
      · cases applied
      · split at applied <;> cases applied
        exact ⟨.inr (.inr ⟨node, rfl, rfl⟩), .inl rfl, .inl rfl⟩
  | updateNode id change =>
    cases applied
    exact ⟨.inr (.inl ⟨id, change, rfl, rfl⟩), .inl rfl, .inl rfl⟩
  | updateJob id change =>
    cases applied
    exact ⟨.inl rfl, .inr ⟨id, change, rfl, rfl⟩, .inl rfl⟩
  | agents change =>
    simp only [Write.apply] at applied
    split at applied
    · cases applied
    · rename_i changed
      cases applied
      exact ⟨.inl rfl, .inl rfl, .inr ⟨change, _, rfl, changed⟩⟩
  | log new =>
    simp only [Write.apply] at applied
    split at applied
    · cases applied
    · split at applied <;> cases applied
      exact ⟨.inl rfl, .inl rfl, .inl rfl⟩
  | event new =>
    simp only [Write.apply] at applied
    split at applied <;> cases applied
    exact ⟨.inl rfl, .inl rfl, .inl rfl⟩
  | artifact new =>
    simp only [Write.apply] at applied
    split at applied <;> cases applied
    exact ⟨.inl rfl, .inl rfl, .inl rfl⟩
  | _ =>
    cases applied
    exact ⟨.inl rfl, .inl rfl, .inl rfl⟩

private theorem transaction_effect {transaction : Transaction} {now : Timestamp} {db db' : Db}
    {result : transaction.Row} (applied : transaction.apply now db = .ok (result, db')) :
    db'.nodeRuns = db.nodeRuns ∧ db'.agents = db.agents ∧
    (db'.jobRuns = db.jobRuns ∨
      (∃ id fromStatus, transaction = .cancelRun id fromStatus ∧
        db'.jobRuns = db.jobRuns.updateAt id (JobChange.cancelRequested.apply now)) ∨
      ∃ run, transaction = .createRun run ∧ db'.jobRuns = db.jobRuns.insert (run.row now)) := by
  cases transaction with
  | createRun run =>
    simp only [Transaction.apply] at applied
    split at applied <;> cases applied
    exact ⟨rfl, rfl, .inr (.inr ⟨run, rfl, rfl⟩)⟩
  | cancelRun id fromStatus =>
    simp only [Transaction.apply] at applied
    split at applied <;> cases applied
    exact ⟨rfl, rfl, .inr (.inl ⟨id, fromStatus, rfl, rfl⟩)⟩
  | registerJob definition =>
    simp only [Transaction.apply] at applied
    split at applied <;> cases applied <;> exact ⟨rfl, rfl, .inl rfl⟩

structure Agent.Keeps (old agent : Agent) : Prop where
  name : old.name = agent.name
  labels : old.labelsJson = agent.labelsJson
  token : old.tokenHash = agent.tokenHash

theorem apply_agents {change : AgentWrite} {now : Timestamp} {agents rows : Table String Agent} {affected : Nat}
    (applied : change.apply now agents = .ok (affected, rows)) {agentId : String} {agent : Agent}
    (found : rows.find agentId = some agent) :
    (∃ old : Agent, agents.find agentId = some old ∧ old.Keeps agent) ∨
      (∃ hostname hash, change = .registerLocal hostname hash ∧ agentId = localAgentId ∧
        agents.find agentId = none ∧
        agent = (⟨localAgentId, "local", hostname, "[\"local\"]", hash⟩ : NewAgent).row now) ∨
      ∃ new, change = .register new ∧ new.agentId = agentId ∧ agents.find agentId = none ∧ agent = new.row now := by
  cases change with
  | registerLocal hostname hash =>
    cases applied
    rw [Table.find_upsert] at found
    split at found
    · rename_i isLocal
      subst isLocal
      cases old : agents.find localAgentId with
      | none =>
        rw [old] at found
        cases found
        exact .inr (.inl ⟨hostname, hash, rfl, rfl, rfl, rfl⟩)
      | some row =>
        rw [old] at found
        cases found
        exact .inl ⟨row, rfl, rfl, rfl, rfl⟩
    · exact .inl ⟨agent, found, rfl, rfl, rfl⟩
  | register new =>
    simp only [AgentWrite.apply] at applied
    split at applied
    · rename_i fresh
      cases applied
      rw [Table.find_append] at found
      split at found
      · rename_i same
        subst same
        cases found
        exact .inr (.inr ⟨new, rfl, rfl, Table.find_eq_none.mpr fun row member => fresh _ member rfl, rfl⟩)
      · exact .inl ⟨agent, found, rfl, rfl, rfl⟩
    · cases applied
  | delete other =>
    cases applied
    rw [Table.find_delete, Option.filter_eq_some_iff] at found
    exact .inl ⟨agent, found.1, rfl, rfl, rfl⟩
  | expire =>
    cases applied
    rw [Table.find_update] at found
    obtain ⟨old, here, rfl⟩ := Option.map_eq_some_iff.mp found
    refine .inl ⟨old, here, ?_⟩
    split <;> exact ⟨rfl, rfl, rfl⟩
  | touch other | heartbeat other =>
    cases applied
    rw [Table.find_updateAt] at found
    split at found
    · obtain ⟨old, here, rfl⟩ := Option.map_eq_some_iff.mp found
      exact .inl ⟨old, here, rfl, rfl, rfl⟩
    · exact .inl ⟨agent, found, rfl, rfl, rfl⟩

variable {ext : External} {op : Op} {reply : op.Reply} {before after : State}

theorem exec_nodeRuns (ran : op.exec ext before reply after) :
    after.db.nodeRuns = before.db.nodeRuns ∨
      (∃ id change, op = .write (.updateNode id change) ∧
        after.db.nodeRuns = before.db.nodeRuns.updateAt id (change.apply before.now)) ∨
      ∃ node, op = .write (.insertNode node) ∧
        after.db.nodeRuns = before.db.nodeRuns.insert (node.row before.now) := by
  cases op with
  | write write =>
    rcases exec_write ran with ⟨-, rfl⟩ | ⟨result, db, applied, -, rfl⟩
    · exact .inl rfl
    · rcases (write_effect applied).1 with same | ⟨id, change, rfl, updated⟩ | ⟨node, rfl, inserted⟩
      · exact .inl same
      · exact .inr (.inl ⟨id, change, rfl, updated⟩)
      · exact .inr (.inr ⟨node, rfl, inserted⟩)
  | transact transaction =>
    rcases exec_transact ran with ⟨-, rfl⟩ | ⟨result, db, applied, -, rfl⟩
    · exact .inl rfl
    · exact .inl (transaction_effect applied).1
  | _ => exact .inl (by rw [exec_reads rfl ran])

theorem exec_jobRuns (ran : op.exec ext before reply after) :
    after.db.jobRuns = before.db.jobRuns ∨
      (∃ id change, op = .write (.updateJob id change) ∧
        after.db.jobRuns = before.db.jobRuns.updateAt id (change.apply before.now)) ∨
      (∃ id fromStatus, op = .transact (.cancelRun id fromStatus) ∧
        after.db.jobRuns = before.db.jobRuns.updateAt id (JobChange.cancelRequested.apply before.now)) ∨
      ∃ run, op = .transact (.createRun run) ∧
        after.db.jobRuns = before.db.jobRuns.insert (run.row before.now) := by
  cases op with
  | write write =>
    rcases exec_write ran with ⟨-, rfl⟩ | ⟨result, db, applied, -, rfl⟩
    · exact .inl rfl
    · rcases (write_effect applied).2.1 with same | ⟨id, change, rfl, updated⟩
      · exact .inl same
      · exact .inr (.inl ⟨id, change, rfl, updated⟩)
  | transact transaction =>
    rcases exec_transact ran with ⟨-, rfl⟩ | ⟨result, db, applied, -, rfl⟩
    · exact .inl rfl
    · rcases (transaction_effect applied).2.2 with same | ⟨id, fromStatus, rfl, updated⟩ |
        ⟨run, rfl, inserted⟩
      · exact .inl same
      · exact .inr (.inr (.inl ⟨id, fromStatus, rfl, updated⟩))
      · exact .inr (.inr (.inr ⟨run, rfl, inserted⟩))
  | _ => exact .inl (by rw [exec_reads rfl ran])

theorem exec_agents (ran : op.exec ext before reply after) :
    after.db.agents = before.db.agents ∨
      ∃ change affected, op = .write (.agents change) ∧
        change.apply before.now before.db.agents = .ok (affected, after.db.agents) := by
  cases op with
  | write write =>
    rcases exec_write ran with ⟨-, rfl⟩ | ⟨result, db, applied, -, rfl⟩
    · exact .inl rfl
    · rcases (write_effect applied).2.2 with same | ⟨change, affected, rfl, changed⟩
      · exact .inl same
      · exact .inr ⟨change, affected, rfl, changed⟩
  | transact transaction =>
    rcases exec_transact ran with ⟨-, rfl⟩ | ⟨result, db, applied, -, rfl⟩
    · exact .inl rfl
    · exact .inl (transaction_effect applied).2.1
  | _ => exact .inl (by rw [exec_reads rfl ran])

theorem exec_insertNode {node : NewNodeRun} {reply : Except SqlError Nat}
    (ran : (Op.write (.insertNode node)).exec ext before reply after) :
    ((∃ why, reply = .error why) ∧ after = before) ∨
      (reply = .ok before.db.nodeRuns.next ∧ after.now = before.now ∧
        after.db.nodeRuns = before.db.nodeRuns.insert (node.row before.now)) := by
  rcases exec_write ran with failed | ⟨result, db, applied, rfl, rfl⟩
  · exact .inl failed
  · simp only [Write.apply] at applied
    split at applied
    · cases applied
    · split at applied
      · cases applied
      · split at applied <;> cases applied
        exact .inr ⟨rfl, rfl, rfl⟩

theorem exec_updateNode {id : Nat} {change : NodeChange} {reply : Except SqlError Nat}
    (ran : (Op.write (.updateNode id change)).exec ext before reply after) :
    ((∃ why, reply = .error why) ∧ after = before) ∨
      (reply = .ok 1 ∧ after.db.nodeRuns = before.db.nodeRuns.updateAt id (change.apply before.now)) := by
  rcases exec_write ran with failed | ⟨result, db, applied, rfl, rfl⟩
  · exact .inl failed
  · cases applied
    exact .inr ⟨rfl, rfl⟩

theorem exec_serial (ran : op.exec ext before reply after) : before.db.nodeRuns.next ≤ after.db.nodeRuns.next := by
  rcases exec_nodeRuns ran with same | ⟨_, _, -, same⟩ | ⟨_, -, same⟩
  · rw [same]
  · rw [same, Serial.next_updateAt]
  · rw [same, Serial.next_insert]
    exact Nat.le_succ _

theorem exec_load {path : String} {definition : ResolvedJobDefinition}
    (ran : (Op.load path).exec ext before (.ok definition) after) :
    ∃ source : JobDefinition, source.resolve = .ok definition := by
  obtain ⟨choice, ran⟩ := ran
  cases choice with
  | answer index =>
    simp only [Op.run, Option.some.injEq, Prod.mk.injEq] at ran
    have loaded := ran.1
    unfold loadDefinition at loaded
    split at loaded
    · cases loaded
    · split at loaded
      · cases loaded
      · rename_i source _
        split at loaded
        · cases loaded
        · rename_i resolved accepted
          cases loaded
          exact ⟨source, accepted⟩
  | _ => cases ran

theorem exec_nodeStatus {id : Nat} {status : NodeStatus}
    (ran : (Op.select (.nodeStatus id)).exec ext before (.ok status) after) :
    after = before ∧ ∃ node, before.db.nodeRuns.find id = some node ∧ node.status = status := by
  obtain ⟨same, ⟨why, impossible⟩ | ⟨row, member, equal⟩⟩ := exec_select ran
  · cases impossible
  · cases equal
    obtain ⟨node, found, read⟩ := Option.map_eq_some_iff.mp (Option.mem_toList.mp member)
    exact ⟨same, node, found, read⟩

theorem exec_jobStatus {id : Nat} {status : JobStatus}
    (ran : (Op.select (.jobStatus id)).exec ext before (.ok status) after) :
    after = before ∧ ∃ run, before.db.jobRuns.find id = some run ∧ run.status = status := by
  obtain ⟨same, ⟨why, impossible⟩ | ⟨row, member, equal⟩⟩ := exec_select ran
  · cases impossible
  · cases equal
    obtain ⟨run, found, read⟩ := Option.map_eq_some_iff.mp (Option.mem_toList.mp member)
    exact ⟨same, run, found, read⟩

end PostJen.Server
