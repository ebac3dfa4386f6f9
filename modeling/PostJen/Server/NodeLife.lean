import PostJen.Server.DependencySafety

/-! The life of a node run.

Four UPDATEs write a status without looking at the one they find: the
scheduler's when it queues a node, an agent's poll and report, and the
monitor's. The law holds as long as each of them finds a status it may change.
-/

set_option autoImplicit false

open PostJen.Foundations PostJen.Core

namespace PostJen.Server

def proceedsTo : NodeStatus → NodeStatus → Bool
  | .pending, .queued | .pending, .skipped | .pending, .failed => true
  | .queued, .running | .queued, .failed => true
  | .running, .success | .running, .failed | .running, .timedOut | .running, .canceled => true
  | _, _ => false

def NodeRun.outcome (node : NodeRun) : NodeStatus × Option Int × Option String :=
  (node.status, node.exitCode, node.failureReason)

structure NodeLaw (ext : External) (settings : Settings) (admits : Config → Label → Prop) (start : Config) :
    Prop where
  moves : ∀ before label after id node node', (system ext settings).Reaches admits start before →
    admits before label → step ext settings before label = some after →
    before.state.db.nodeRuns.find id = some node → after.state.db.nodeRuns.find id = some node' →
    node'.status = node.status ∨ proceedsTo node.status node'.status = true
  final : ∀ c later id node, (system ext settings).Reaches admits start c →
    (system ext settings).Reaches admits c later → c.state.db.nodeRuns.find id = some node →
    node.status.terminal = true → (later.state.db.nodeRuns.find id).map NodeRun.outcome = some node.outcome

/-- The rows that an UPDATE without a status guard may find. -/
def NodeChange.expects (node : NodeRun) : NodeChange → Bool
  | .status .queued _ _ _ => node.status = .pending
  | .start => node.status = .queued || node.status = .running
  | .finish reported exitCode reason =>
      node.status = .running || ((node.status = .pending || node.status = .queued) && reported = .failed) ||
        node.outcome = (reported, exitCode, reason)
  | .lost =>
      node.status = .queued || node.status = .running ||
        (node.status = .failed && node.failureReason = some "agent went offline")
  | _ => true

/-- The row that the step updates is one that the UPDATE expects. -/
def findsExpected (c : Config) : Label → Bool
  | .exec slot (.answer _) =>
      match c.pending slot with
      | some (.write (.updateNode id change)) => (c.state.db.nodeRuns.find id).all fun node => change.expects node
      | _ => true
  | _ => true

theorem proceeds_of_running {status : NodeStatus} (reported : status.reported = true) :
    proceedsTo .running status = true := by
  cases status <;> first | rfl | cases reported

theorem proceeds_terminal {status next : NodeStatus} (terminal : status.terminal = true) :
    proceedsTo status next = false := by
  cases status <;> first | rfl | cases terminal

variable {ext : External} {settings : Settings} {start before after : Config} {label : Label}

theorem advance_outcome {phase next : Phase} {change : NodeChange} {now : Timestamp} {node : NodeRun}
    (advance : Advance phase change next) (fact : claiming.fact phase node)
    (expected : change.expects node = true) :
    (change.apply now node).outcome = node.outcome ∨
      proceedsTo node.status (change.apply now node).status = true := by
  cases advance with
  | assign agentId => exact .inl rfl
  | skip reason => exact .inr (by rw [fact.1]; rfl)
  | queue =>
    have pending : node.status = .pending := by simpa [NodeChange.expects] using expected
    exact .inr (by rw [pending]; rfl)
  | unmatched => exact .inr (by rw [fact.1]; rfl)

theorem update_outcome {point : Point} {id : Nat} {change : NodeChange} {now : Timestamp} {node : NodeRun}
    {slot : Slot} (other : slot ≠ .scheduler) (hosted : slot.hosts point = true)
    (updates : point.Updates id change) (expected : change.expects node = true) :
    (change.apply now node).outcome = node.outcome ∨
      proceedsTo node.status (change.apply now node).status = true := by
  have finish : ∀ {status : NodeStatus} {exitCode reason}, status.reported = true →
      (NodeChange.finish status exitCode reason).expects node = true →
      ((NodeChange.finish status exitCode reason).apply now node).outcome = node.outcome ∨
        proceedsTo node.status status = true := by
    intro status exitCode reason reported expected
    simp only [NodeChange.expects, Bool.or_eq_true, Bool.and_eq_true, decide_eq_true_eq] at expected
    rcases expected with (running | ⟨early | early, rfl⟩) | same
    · exact .inr (by rw [running]; exact proceeds_of_running reported)
    · exact .inr (by rw [early]; rfl)
    · exact .inr (by rw [early]; rfl)
    · exact .inl same.symm
  cases updates with
  | pick =>
    simp only [NodeChange.apply]
    split
    · rename_i queued
      exact .inr (by rw [queued]; rfl)
    · exact .inl rfl
  | finish task status exitCode reason reported => exact finish reported expected
  | report headers payload status exitCode reason reported => exact finish reported expected
  | poll headers id =>
    simp only [NodeChange.expects, Bool.or_eq_true, decide_eq_true_eq] at expected
    rcases expected with queued | running
    · exact .inr (by rw [queued]; rfl)
    · exact .inl (by simp [NodeChange.apply, NodeRun.outcome, running])
  | lose lost todo =>
    simp only [NodeChange.expects, Bool.or_eq_true, Bool.and_eq_true, decide_eq_true_eq] at expected
    rcases expected with (queued | running) | ⟨failed, reason⟩
    · exact .inr (by rw [queued]; rfl)
    · exact .inr (by rw [running]; rfl)
    · exact .inl (by simp [NodeChange.apply, NodeRun.outcome, failed, reason])
  | _ => cases slot <;> first | exact absurd rfl other | cases hosted

theorem step_outcome (idle : ∀ slot, start.threads slot = enter ext settings .idle)
    (reached : (system ext settings).Reaches (fun c label => findsExpected c label = true) start before)
    (expected : findsExpected before label = true) (moved : step ext settings before label = some after)
    {id : Nat} {node node' : NodeRun} (found : before.state.db.nodeRuns.find id = some node)
    (found' : after.state.db.nodeRuns.find id = some node') :
    node'.outcome = node.outcome ∨ proceedsTo node.status node'.status = true := by
  obtain ⟨_, found'', changed⟩ := nodeStep moved found
  cases found'.symm.trans found''
  cases changed with
  | same => exact .inl rfl
  | update slot choice change executed next =>
    subst executed
    rcases step_answered next rfl moved with same | ⟨index, rfl⟩
    · rw [same, found] at found'
      exact .inl (congrArg NodeRun.outcome (Option.some.inj found').symm)
    · simp only [findsExpected, next, found, Option.all_some] at expected
      have placed := reached_placed idle reached
      by_cases isScheduler : slot = .scheduler
      · subst isScheduler
        have unrestricted : (system ext settings).Reaches everything start before :=
          reached.mono fun _ _ _ => trivial
        obtain ⟨history, run⟩ := unrestricted.path
        obtain ⟨owner, phase, later, advance, ⟨row, here, -, -, fact⟩, -⟩ :=
          (claiming_governs idle).promised run trivial moved next id change rfl
        cases found.symm.trans here
        exact advance_outcome advance fact expected
      · exact update_outcome isScheduler (placed slot).1 (placed.updates next) expected

/-- Node statuses follow the documented transitions, and an outcome never
changes, as long as every unguarded UPDATE finds a row that it may change. -/
theorem node_law (ext : External) (settings : Settings) (files : String → Option String) (clock : Nat) :
    NodeLaw ext settings (fun c label => findsExpected c label = true)
      (Config.initial ext settings files clock) where
  moves := by
    intro before label after id node node' reached expected moved found found'
    exact (step_outcome (Config.initial_idle ext settings files clock) reached expected moved found
      found').imp_left (congrArg Prod.fst)
  final := by
    intro c later id node reached passed found terminal
    have first : (system ext settings).Reaches (fun c label => findsExpected c label = true) _ c ∧
        (c.state.db.nodeRuns.find id).map NodeRun.outcome = some node.outcome := ⟨reached, by rw [found]; rfl⟩
    refine (passed.invariant (fun c => (system ext settings).Reaches (fun c label =>
      findsExpected c label = true) _ c ∧
        (c.state.db.nodeRuns.find id).map NodeRun.outcome = some node.outcome) first ?_).2
    rintro before label after ⟨reached, still⟩ expected moved
    refine ⟨reached.snoc expected moved, ?_⟩
    obtain ⟨row, found, same⟩ := Option.map_eq_some_iff.mp still
    obtain ⟨row', found', -⟩ := nodeStep moved found
    have status : row.status = node.status := congrArg Prod.fst same
    have kept := step_outcome (Config.initial_idle ext settings files clock) reached expected moved found found'
    rw [status, proceeds_terminal terminal, same] at kept
    rw [found', Option.map_some, kept.resolve_right (by simp)]

/-- The agent reports success, and reports again when the response was lost. -/
theorem node_law_second_report : ¬NodeLaw Sample.ext Sample.settings everything Sample.initial := by
  intro claim
  have passed : ((Sample.run (fun _ _ => true) (Sample.remoteQueued ++ Sample.poll 3 ++
      Sample.report 4 "success")).any fun c =>
        ((system Sample.ext Sample.settings).follow (fun _ _ => true) c (Sample.report 5 "failed")).any
          fun later => (c.state.db.nodeRuns.find 1).any (·.status = .success) &&
            (later.state.db.nodeRuns.find 1).any (·.status = .failed)) = true := by decide +kernel
  obtain ⟨c, later, reached, passed, test⟩ := Sample.arrives_twice passed
  simp only [Bool.and_eq_true] at test
  obtain ⟨node, found, success⟩ := (Option.any_eq_true _ _).mp test.1
  obtain ⟨node', found', failed⟩ := (Option.any_eq_true _ _).mp test.2
  simp only [decide_eq_true_eq] at success failed
  have still := claim.final c later 1 node reached passed found (by rw [success]; rfl)
  rw [found', Option.map_some, Option.some.injEq] at still
  have same := congrArg Prod.fst still
  rw [show node'.outcome.1 = .failed from failed, show node.outcome.1 = .success from success] at same
  cases same

end PostJen.Server
