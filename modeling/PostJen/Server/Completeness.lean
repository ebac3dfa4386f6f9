import PostJen.Server.Rows
import PostJen.Server.Sample

/-! What the scheduler knows when its loop ends.

The loop stops after one pass that leaves nothing running. As the nodes stand
in the order of their dependencies, that pass has reached every node, and each
result is the terminal status of the node's row.
-/

set_option autoImplicit false

open PostJen.Foundations PostJen.Core

namespace PostJen.Server

def keepsTerminal (ext : External) (settings : Settings) (c : Config) : Label → Bool
  | .exec .scheduler _ => true
  | label => (step ext settings c label).all fun after =>
      c.state.db.nodeRuns.rows.all fun row =>
        !row.2.status.terminal || (after.state.db.nodeRuns.find row.1).any (·.status = row.2.status)

def settling : RowRegime where
  fact
    | .ended status, node => node.status = status ∧ status.terminal = true
    | _, _ => True
  may before after := before.status.terminal = true → after.status = before.status

theorem settling_valid : settling.Valid where
  refl := fun _ _ => rfl
  trans := by
    intro first second third one two terminal
    have same := one terminal
    rw [two (by rw [same]; exact terminal), same]
  stable := by
    intro phase before after may fact
    cases phase with
    | ended status =>
      obtain ⟨rfl, terminal⟩ := fact
      exact ⟨may terminal, terminal⟩
    | _ => trivial
  fresh := fun _ _ => trivial
  advance := by
    intro phase change next now node advance fact
    cases advance with
    | assign agentId => trivial
    | skip reason => exact ⟨rfl, rfl⟩
    | queue => trivial
    | unmatched => exact ⟨rfl, rfl⟩
  read := fun node reported _ => ⟨rfl, NodeStatus.terminal_of_reported reported⟩

variable {ext : External} {settings : Settings}

theorem keepsTerminal_row {c after : Config} {label : Label} (kept : keepsTerminal ext settings c label = true)
    (other : ∀ choice, label ≠ .exec .scheduler choice) (moved : step ext settings c label = some after)
    {id : Nat} {node node' : NodeRun} (found : c.state.db.nodeRuns.find id = some node)
    (found' : after.state.db.nodeRuns.find id = some node') (terminal : node.status.terminal = true) :
    node'.status = node.status := by
  unfold keepsTerminal at kept
  split at kept
  · exact absurd rfl (other _)
  · rw [moved, Option.all_some, List.all_eq_true] at kept
    have row := kept (id, node) (Serial.find_eq_some.mp found)
    simpa [terminal, found'] using row

theorem settling_governs {start : Config} (idle : ∀ slot, start.threads slot = enter ext settings .idle) :
    (settling.regime ext).Governs ext settings start
      (fun c label => keepsTerminal ext settings c label = true) (fun _ c => c.state) := by
  refine settling_valid.governs idle ?_
  intro history c slot choice after id node change _ kept moved notScheduler _ found found' terminal
  exact keepsTerminal_row kept (by rintro _ ⟨⟩; exact notScheduler rfl) moved found found' terminal

/-- When the loop breaks, every node of the definition has ended, and its
result is the status of its row. -/
theorem loop_complete {files : String → Option String} {clock : Nat} {c : Config} {x : Execution}
    (reached : (system ext settings).Reaches (fun c label => keepsTerminal ext settings c label = true)
      (Config.initial ext settings files clock) c)
    (breaks : (c.threads .scheduler).code = .done (.finalizing x)) :
    Accepted x.nodes ∧ ∀ node ∈ x.nodes, ∃ status id row,
      x.results.lookup node.id = some status ∧ status.terminal = true ∧
      x.nodeIds.lookup node.id = some id ∧ c.state.db.nodeRuns.find id = some row ∧
      row.jobRunId = x.run.id ∧ row.nodeId = node.id ∧ row.status = status := by
  obtain ⟨history, run⟩ := reached.path
  obtain ⟨looping, settled⟩ :=
    (settling_governs (Config.initial_idle ext settings files clock)).at_point run breaks
  refine ⟨looping.sound.accepted, fun node member => ?_⟩
  obtain ⟨status, result⟩ := settled node member
  obtain ⟨id, known⟩ := looping.sound.numbered node member
  have here := looping.phased node member id known
  rw [Execution.phase_ended.mpr result] at here
  obtain ⟨row, found, ownedRun, ownedNode, fact⟩ := here
  exact ⟨status, id, row, result, looping.sound.terminal _ _ result, known, found, ownedRun, ownedNode,
    fact.1⟩

/-- One root of the fork fails, the other succeeds and the third node is skipped. -/
def Sample.forkFinished : List Label :=
  Sample.forkQueued ++ Sample.block 1 ++ Sample.workLocally 0 (Sample.exited 0) ++
    Sample.workLocally 1 (Sample.exited 1) ++ Sample.block 2 ++ Sample.block 1 ++ Sample.block 0 ++
    Sample.block 0 ++ Sample.block 0 ++ Sample.block 0 ++ Sample.block 1 ++ Sample.block 1 ++
    Sample.block 1 ++ Sample.block 0 ++ Sample.block 0 ++ Sample.block 2

theorem loop_complete_fork :
    ∃ c x, (system Sample.ext Sample.settings).Reaches
        (fun c label => keepsTerminal Sample.ext Sample.settings c label = true) Sample.initial c ∧
      (c.threads .scheduler).code = .done (.finalizing x) ∧
      Accepted x.nodes ∧ ∀ node ∈ x.nodes, ∃ status id row,
        x.results.lookup node.id = some status ∧ status.terminal = true ∧
        x.nodeIds.lookup node.id = some id ∧ c.state.db.nodeRuns.find id = some row ∧
        row.jobRunId = x.run.id ∧ row.nodeId = node.id ∧ row.status = status := by
  have passed : ((Sample.run (keepsTerminal Sample.ext Sample.settings) Sample.forkFinished).any
      fun c => (c.ended .scheduler).any fun point => (Sample.finalized point).any fun x =>
        x.nodes.map (·.id) = ["build", "lint", "deploy"]) = true := by decide +kernel
  obtain ⟨c, reached, stands⟩ := Sample.arrives passed
  obtain ⟨point, ended, stands⟩ := (Option.any_eq_true _ _).mp stands
  obtain ⟨x, found, -⟩ := (Option.any_eq_true _ _).mp stands
  cases Sample.finalized_eq found
  have breaks := ended_eq_some.mp ended
  exact ⟨c, x, reached, breaks, loop_complete reached breaks⟩

end PostJen.Server
