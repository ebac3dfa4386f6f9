import PostJen.Server.Lifecycle

/-! Regimes that speak about one row at a time.

A fact for each phase and a relation for what the other tasks may do to a row
are enough to govern the server: the scheduler's own updates keep the facts,
and every other step is an update of a single row.
-/

set_option autoImplicit false

open PostJen.Foundations PostJen.Core

namespace PostJen.Server

structure RowRegime where
  fact : Phase → NodeRun → Prop
  may : NodeRun → NodeRun → Prop

namespace RowRegime

structure Valid (r : RowRegime) : Prop where
  refl : ∀ node, r.may node node
  trans : ∀ first second third, r.may first second → r.may second third → r.may first third
  stable : ∀ phase before after, r.may before after → r.fact phase before → r.fact phase after
  fresh : ∀ (new : NewNodeRun) now, r.fact .fresh (new.row now)
  advance : ∀ phase change next now node, Advance phase change next → r.fact phase node →
    r.fact next (NodeChange.apply now change node)
  read : ∀ node, node.status.reported = true → r.fact .active node → r.fact (.ended node.status) node

def Holds (r : RowRegime) (owner : Owner) (phase : Phase) (s : State) (id : Nat) : Prop :=
  ∃ node, s.db.nodeRuns.find id = some node ∧ node.jobRunId = owner.runId ∧ node.nodeId = owner.nodeId ∧
    r.fact phase node

/-- Rows stay, keep their owner and change only as allowed. -/
structure Others (r : RowRegime) (before after : State) : Prop where
  serial : before.db.nodeRuns.next ≤ after.db.nodeRuns.next
  rows : ∀ id node, before.db.nodeRuns.find id = some node →
    ∃ node', after.db.nodeRuns.find id = some node' ∧ node'.jobRunId = node.jobRunId ∧
      node'.nodeId = node.nodeId ∧ r.may node node'

def regime (r : RowRegime) (ext : External) : Regime State where
  db := State.db
  exec op := op.exec ext
  others := r.Others
  holds := r.Holds

variable {r : RowRegime} {ext : External} {settings : Settings}

private theorem holds_frame {owner : Owner} {phase : Phase} {id : Nat} {op : Op} {before after : State}
    {reply : op.Reply} (ran : op.exec ext before reply after)
    (other : ∀ change, op ≠ .write (.updateNode id change)) (holds : r.Holds owner phase before id) :
    r.Holds owner phase after id := by
  obtain ⟨node, found, owned⟩ := holds
  rcases exec_nodeRuns ran with same | ⟨otherId, change, rfl, updated⟩ | ⟨new, rfl, inserted⟩
  · exact ⟨node, by rw [same, found], owned⟩
  · have ne : id ≠ otherId := by
      rintro rfl
      exact other change rfl
    exact ⟨node, by rw [updated, Serial.find_updateAt_ne _ _ ne, found], owned⟩
  · refine ⟨node, ?_, owned⟩
    rw [inserted, Serial.find_insert, if_neg (Nat.ne_of_lt (Serial.lt_next found)), found]

theorem Valid.regime (valid : r.Valid) : (r.regime ext).Valid where
  refl := fun s => ⟨Nat.le_refl _, fun id node found => ⟨node, found, rfl, rfl, valid.refl node⟩⟩
  trans := by
    intro a b c first second
    refine ⟨first.serial.trans second.serial, fun id node found => ?_⟩
    obtain ⟨node', found', run', key', may'⟩ := first.rows id node found
    obtain ⟨node'', found'', run'', key'', may''⟩ := second.rows id node' found'
    exact ⟨node'', found'', run''.trans run', key''.trans key', valid.trans _ _ _ may' may''⟩
  grows := fun before after moved => moved.serial
  serial := fun op before reply after ran => exec_serial ran
  stable := by
    rintro owner phase id before after moved ⟨node, found, ownedRun, ownedNode, fact⟩
    obtain ⟨node', found', run', key', may'⟩ := moved.rows id node found
    exact ⟨node', found', run'.trans ownedRun, key'.trans ownedNode, valid.stable phase _ _ may' fact⟩
  frame := fun owner phase id op before reply after ran other holds => holds_frame ran other holds
  loaded := fun path before definition after ran => exec_load ran
  inserted := by
    intro new before id after ran
    rcases exec_insertNode ran with ⟨⟨why, impossible⟩, -⟩ | ⟨same, -, inserted⟩
    · cases impossible
    · cases same
      refine ⟨rfl, ?_, new.row before.now, ?_, rfl, rfl, valid.fresh new _⟩
      · show after.db.nodeRuns.next = _
        rw [inserted]
        rfl
      · rw [inserted, Serial.find_insert]
        exact if_pos rfl
  advance := by
    rintro owner phase change next id before result after advance ran ⟨node, found, ownedRun, ownedNode, fact⟩
    rcases exec_updateNode ran with ⟨⟨why, impossible⟩, -⟩ | ⟨-, updated⟩
    · cases impossible
    · refine ⟨change.apply before.now node, ?_, ?_, ?_, valid.advance _ _ _ _ _ advance fact⟩
      · rw [updated, Serial.find_updateAt_self, found]
        rfl
      · rw [NodeChange.apply_jobRunId, ownedRun]
      · rw [NodeChange.apply_nodeId, ownedNode]
  read := by
    rintro owner id before status after ran reported ⟨node, found, ownedRun, ownedNode, fact⟩
    obtain ⟨rfl, node', found', rfl⟩ := exec_nodeStatus ran
    cases found.symm.trans found'
    exact ⟨node, found, ownedRun, ownedNode, valid.read node reported fact⟩

variable {start : Config} {admits : Config → Label → Prop}

theorem Valid.governs (valid : r.Valid) (idle : ∀ slot, start.threads slot = enter ext settings .idle)
    (respects : ∀ history c slot choice after id node change,
      (system ext settings).Path admits start history c → admits c (.exec slot choice) →
      step ext settings c (.exec slot choice) = some after → slot ≠ .scheduler →
      c.pending slot = some (.write (.updateNode id change)) →
      c.state.db.nodeRuns.find id = some node →
      after.state.db.nodeRuns.find id = some (NodeChange.apply c.state.now change node) →
      r.may node (NodeChange.apply c.state.now change node)) :
    (r.regime ext).Governs ext settings start admits fun _ c => c.state where
  valid := valid.regime
  idle := idle
  scheduler := fun history c choice after op reply run admitted moved next ran => ⟨choice, ran⟩
  others := by
    intro history c label after run admitted moved notScheduler
    refine ⟨step_serial moved, fun id node found => ?_⟩
    obtain ⟨node', found', changed⟩ := nodeStep moved found
    cases changed with
    | same => exact ⟨node, found', rfl, rfl, valid.refl node⟩
    | update slot choice change executed next =>
      subst executed
      refine ⟨_, found', NodeChange.apply_jobRunId _ _ _, NodeChange.apply_nodeId _ _ _, ?_⟩
      refine respects history c slot choice after id node change run admitted moved ?_ next found found'
      rintro rfl
      exact notScheduler choice rfl

end RowRegime

end PostJen.Server
