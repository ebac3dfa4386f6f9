import PostJen.Core.TopologicalOrder

/-! Which dependency graphs the sort accepts.

When the queue runs empty, every node that was not popped still waits for one
that was not popped either. On a graph without cycles this leaves no node.
-/

set_option autoImplicit false

namespace PostJen.Core
open PostJen.Foundations

def AcyclicNodes (nodes : List NodeDefinition) : Prop :=
  Acyclic (·.id) NodeDefinition.needs nodes

/-- Positions in an order with dependencies first exclude cycles. -/
theorem acyclic_of_order {nodes : List NodeDefinition} {order : List String}
    (perm : order.Perm (nodes.map (·.id))) (distinct : (nodes.map (·.id)).Nodup)
    (closed : ∀ node ∈ nodes, ∀ front back, order = front ++ node.id :: back →
      ∀ need ∈ node.needs, need ∈ front) : AcyclicNodes nodes := by
  refine acyclic_of_rank (fun node => order.idxOf node.id) ?_
  rintro first second ⟨-, inside, needed⟩
  have listed : second.id ∈ order := perm.mem_iff.mpr (List.mem_map_of_mem inside)
  obtain ⟨front, back, split⟩ := List.append_of_mem listed
  have earlier := closed second inside front back split first.id needed
  have nodup : (front ++ second.id :: back).Nodup := split ▸ perm.nodup_iff.mpr distinct
  have later : second.id ∉ front := fun member =>
    (List.nodup_append.mp nodup).2.2 _ member _ List.mem_cons_self rfl
  show order.idxOf first.id < order.idxOf second.id
  rw [split, List.idxOf_append_of_mem earlier, List.idxOf_append_of_notMem later, List.idxOf_cons_self,
    Nat.add_zero]
  exact List.idxOf_lt_length_of_mem earlier

theorem Draining.full {nodes : List NodeDefinition} {order : List String} {indegree : StringMap Nat}
    (state : Draining nodes order [] indegree) (sortable : Sortable nodes) (acyclic : AcyclicNodes nodes) :
    ∀ node ∈ nodes, node.id ∈ order := by
  intro node member
  by_contra waiting
  obtain ⟨free, inside, left, minimal⟩ := acyclic.exists_free (fun node => node.id ∉ order) member waiting
  have pending : pendingNeeds order free ≠ 0 := by
    intro none
    have released := (state.released free inside).mpr none
    rw [List.append_nil] at released
    exact left released
  obtain ⟨need, needed, unpopped⟩ := List.countP_pos_iff.mp (Nat.pos_of_ne_zero pending)
  obtain ⟨other, present, rfl⟩ := List.mem_map.mp (sortable.known free inside need needed)
  exact minimal other present (of_decide_eq_true unpopped) needed

/-- What the sort returns, on distinct ids and known dependencies. -/
structure SortLaw (nodes : List NodeDefinition) : Prop where
  terminates : ∃ final, Drained (outgoingEdges nodes) (roots nodes) (initialIndegree nodes) [] final ∧
    topologicalOrder nodes =
      if final.length ≠ nodes.length then .error "node dependency graph contains a cycle" else .ok final
  accepts : (∃ order, topologicalOrder nodes = .ok order) ↔ AcyclicNodes nodes
  orders : ∀ order, topologicalOrder nodes = .ok order → order.Perm (nodes.map (·.id)) ∧
    ∀ node ∈ nodes, ∀ front back, order = front ++ node.id :: back → ∀ need ∈ node.needs, need ∈ front

theorem topologicalOrder_accepts {nodes : List NodeDefinition} (sortable : Sortable nodes) :
    (∃ order, topologicalOrder nodes = .ok order) ↔ AcyclicNodes nodes := by
  constructor
  · rintro ⟨order, returned⟩
    obtain ⟨perm, closed⟩ := topologicalOrder_sound sortable returned
    exact acyclic_of_order perm sortable.distinct closed
  · intro acyclic
    obtain ⟨final, last, -, ended, unfolded⟩ := topologicalOrder_drained sortable
    have popped : nodes.map (·.id) ⊆ final := by
      intro id listed
      obtain ⟨node, member, rfl⟩ := List.mem_map.mp listed
      exact ended.full sortable acyclic node member
    have enough := (List.subperm_of_subset sortable.distinct popped).length_le
    rw [List.length_map] at enough
    have bound : final.length ≤ nodes.length := by simpa using ended.length_le
    exact ⟨final, by rw [unfolded, if_neg (not_not.mpr (Nat.le_antisymm bound enough))]⟩

/-- Kahn's algorithm ends, never decrements zero, and accepts exactly the graphs without cycles. -/
theorem topological_order {nodes : List NodeDefinition} (distinct : (nodes.map (·.id)).Nodup)
    (known : ∀ node ∈ nodes, ∀ dep ∈ node.needs, dep ∈ nodes.map (·.id)) : SortLaw nodes where
  terminates := by
    obtain ⟨final, -, drained, -, unfolded⟩ := topologicalOrder_drained ⟨distinct, known⟩
    exact ⟨final, drained, unfolded⟩
  accepts := topologicalOrder_accepts ⟨distinct, known⟩
  orders := fun _ returned => topologicalOrder_sound ⟨distinct, known⟩ returned

/-- A diamond with a repeated dependency, and a node that depends on itself. -/
theorem topological_order_repeated :
    SortLaw [{ id := "c", program := "c", dependsOn := some ["b", "a", "b"] },
      { id := "b", program := "b", dependsOn := some ["a"] }, { id := "a", program := "a" }] ∧
    SortLaw [{ id := "a", program := "a", dependsOn := some ["a"] }] :=
  ⟨topological_order (by decide) (by decide), topological_order (by decide) (by decide)⟩

end PostJen.Core
