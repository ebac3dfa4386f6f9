import PostJen.Core.Acceptance
import PostJen.Server.Preparation

/-! Accepted definitions and the rows of their nodes.

The checks of `validate` are the documented rules, except that a timeout is only
checked on the node that states it. An inherited timeout of zero and one beyond
the range of the column are accepted, and refused when the rows are inserted.
-/

set_option autoImplicit false

open PostJen.Foundations PostJen.Core

namespace PostJen.Server

def Op.answered (ext : External) (op : Op) (s : State) : Option (op.Reply × State) := op.run ext (.answer 0) s

/-- The rows of a definition's nodes can be inserted: no conversion and no constraint refuses them. -/
def EnsuresNodes (definition : JobDefinition) : Prop :=
  ∀ (ext : External) resolved runId nodes (s : State), definition.resolve = .ok resolved →
    nodes.map bare = resolved.nodes.map bare → s.db.hasRun runId = true →
    (∀ id row, s.db.nodeRuns.find id = some row → row.jobRunId ≠ runId) →
    ∃ nodeIds s', (ensureNodes ext runId nodes ∅).solo (Op.answered ext) s = some (nodeIds, s')

/-- A definition is accepted exactly when the rules admit it, and then it can be executed. -/
def AcceptedExactly (definition : JobDefinition) : Prop :=
  ((∃ resolved, definition.resolve = .ok resolved) ↔
    definition.WellFormed ∧ ∀ node ∈ definition.nodes, InRange (definition.effectiveTimeout node)) ∧
    EnsuresNodes definition

namespace Admission

variable {ext : External} {runId : Nat}

def Free (db : Db) (runId : Nat) (nodes : List ResolvedNodeDefinition) : Prop :=
  ∀ id row, db.nodeRuns.find id = some row → row.jobRunId = runId → row.nodeId ∉ nodes.map (·.id)

def inserted (ext : External) (runId : Nat) (node : ResolvedNodeDefinition) (s : State) : State :=
  { s with db := { s.db with nodeRuns := s.db.nodeRuns.insert ((newNodeRun ext runId node).row s.now) } }

theorem insert_applies {node : ResolvedNodeDefinition} {rest : List ResolvedNodeDefinition} {s : State}
    (inRange : InRange node.timeoutSec) (present : s.db.hasRun runId = true) (free : Free s.db runId (node :: rest)) :
    (Write.insertNode (newNodeRun ext runId node)).apply s.now s.db =
      .ok (s.db.nodeRuns.next, (inserted ext runId node s).db) := by
  have positive : (newNodeRun ext runId node).timeoutSec ≠ 0 := Nat.pos_iff_ne_zero.mp inRange.1
  have unique : (s.db.nodeRuns.rows.any fun row => row.2.jobRunId = (newNodeRun ext runId node).jobRunId &&
      row.2.nodeId = (newNodeRun ext runId node).nodeId) = false := by
    rw [List.any_eq_false]
    rintro ⟨id, row⟩ member
    simp only [Bool.and_eq_true, decide_eq_true_eq, not_and]
    intro sameRun sameNode
    refine free id row (Serial.find_eq_some.mpr member) sameRun ?_
    rw [sameNode]
    exact List.mem_cons_self
  have run : s.db.hasRun (newNodeRun ext runId node).jobRunId = true := present
  simp only [Write.apply, if_neg positive, unique, run, Bool.not_true, Bool.false_eq_true, if_false]
  rfl

theorem fits_column {timeoutSec : Nat} (inRange : InRange timeoutSec) : ¬timeoutSec ≥ 2 ^ 63 := by
  have bound := inRange.2
  omega

theorem free_inserted {node : ResolvedNodeDefinition} {rest : List ResolvedNodeDefinition} {s : State}
    (free : Free s.db runId (node :: rest)) (distinct : ((node :: rest).map (·.id)).Nodup) :
    Free (inserted ext runId node s).db runId rest := by
  rw [List.map_cons, List.nodup_cons] at distinct
  intro id row found sameRun listed
  rw [inserted, Serial.find_insert] at found
  split at found
  · cases found
    exact distinct.1 listed
  · exact free id row found sameRun (List.mem_cons_of_mem _ listed)

theorem ensureNodes_solo (nodes : List ResolvedNodeDefinition) (nodeIds : StringMap Nat) (s : State)
    (inRange : ∀ node ∈ nodes, InRange node.timeoutSec) (distinct : (nodes.map (·.id)).Nodup)
    (present : s.db.hasRun runId = true) (free : Free s.db runId nodes) :
    ∃ all s', (ensureNodes ext runId nodes nodeIds).solo (Op.answered ext) s = some (all, s') := by
  induction nodes generalizing nodeIds s with
  | nil => exact ⟨nodeIds, s, rfl⟩
  | cons node rest ih =>
    have here := inRange node List.mem_cons_self
    obtain ⟨all, s', ended⟩ := ih (nodeIds.insert node.id s.db.nodeRuns.next) (inserted ext runId node s)
      (fun other member => inRange other (List.mem_cons_of_mem _ member)) (List.nodup_cons.mp distinct).2 present
      (free_inserted free distinct)
    have executed : (execute (.insertNode (newNodeRun ext runId node)) : Proc Sig AnyError Nat).solo (Op.answered ext) s =
        some (s.db.nodeRuns.next, inserted ext runId node s) := by
      rw [execute, Proc.solo_call (run_write (insert_applies here present free))]
      rfl
    refine ⟨all, s', ?_⟩
    rw [ensureNodes, if_neg (fits_column here), Proc.solo_bind executed]
    exact ended

theorem ensures_nodes {definition : JobDefinition}
    (inRange : ∀ node ∈ definition.nodes, InRange (definition.effectiveTimeout node)) : EnsuresNodes definition := by
  intro ext resolved runId nodes s accepted same present fresh
  have order := (JobDefinition.resolve_ordered accepted).1
  have ids : nodes.map (·.id) = resolved.nodes.map (·.id) := by
    have equal := congrArg (List.map ResolvedNodeDefinition.id) same
    rw [List.map_map, List.map_map] at equal
    exact equal
  refine ensureNodes_solo nodes ∅ s ?_ (ids ▸ order.distinct) present ?_
  · intro node member
    obtain ⟨base, inside, equal⟩ := List.mem_map.mp (same ▸ List.mem_map_of_mem member : bare node ∈ _)
    obtain ⟨source, listed, made⟩ := JobDefinition.resolve_source accepted inside
    have timeout : node.timeoutSec = base.timeoutSec := by
      show (bare node).timeoutSec = (bare base).timeoutSec
      rw [equal]
    rw [timeout, JobDefinition.resolveNode_timeout made]
    exact inRange source listed
  · intro id row found sameRun
    exact absurd sameRun (fresh id row found)

end Admission

/-- Acceptance is exact for the definitions that, if otherwise well-formed, inherit no timeout of zero
and set none beyond the range. -/
theorem acceptance_exact (definition : JobDefinition) :
    AcceptedExactly definition ↔
      (definition.WellFormed → (∀ node ∈ definition.nodes, node.timeoutSec ≠ some 0) →
        ∀ node ∈ definition.nodes, InRange (definition.effectiveTimeout node)) := by
  unfold AcceptedExactly
  rw [JobDefinition.resolve_iff]
  constructor
  · rintro ⟨exact', -⟩ formed stated
    exact (exact'.mp ⟨formed, stated⟩).2
  · intro ranges
    have stated : (∀ node ∈ definition.nodes, InRange (definition.effectiveTimeout node)) →
        ∀ node ∈ definition.nodes, node.timeoutSec ≠ some 0 := by
      intro inRange node member zero
      have positive := (inRange node member).1
      rw [JobDefinition.effectiveTimeout, zero] at positive
      exact Nat.not_succ_le_zero 0 positive
    refine ⟨⟨fun accepted => ⟨accepted.1, ranges accepted.1 accepted.2⟩,
      fun admitted => ⟨admitted.1, stated admitted.2⟩⟩, ?_⟩
    intro ext resolved runId nodes s accepted
    obtain ⟨formed, own⟩ := (JobDefinition.resolve_iff definition).mp ⟨resolved, accepted⟩
    exact Admission.ensures_nodes (ranges formed own) ext resolved runId nodes s accepted

namespace Sample

def unlimited : JobDefinition where
  version := 1
  id := "fork"
  name := "Fork"
  defaults := some { workingDir := some "/tmp", timeoutSec := some 0 }
  nodes := [{ id := "build", program := "make" }]

end Sample

theorem acceptance_exact_inherited_zero : ¬AcceptedExactly Sample.unlimited := by
  rintro ⟨exact', -⟩
  have accepted : Sample.unlimited.resolve.toOption.isSome = true := by decide +kernel
  have resolves : ∃ resolved, Sample.unlimited.resolve = .ok resolved := by
    cases made : Sample.unlimited.resolve with
    | error why =>
      rw [made] at accepted
      cases accepted
    | ok resolved => exact ⟨resolved, rfl⟩
  have inRange := (exact'.mp resolves).2 _ List.mem_cons_self
  exact Nat.not_succ_le_zero 0 inRange.1

end PostJen.Server
