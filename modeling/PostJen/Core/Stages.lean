import PostJen.Core.Acceptance
import PostJen.Foundations.Stages

/-! The order in which the nodes of a definition are listed.

The queue of the sort serves first what came first, so the nodes come stage by
stage: those without dependencies as the file lists them, and every node before
all those with a longer chain of dependencies behind them.
-/

set_option autoImplicit false

namespace PostJen.Core
open PostJen.Foundations

variable {nodes : List NodeDefinition} {order queue final : List String} {indegree : StringMap Nat}
  {stage : String → Nat}

/-- A node that enters the queue with the popped one had only it left to wait for. -/
theorem Draining.next {id : String} {added : List String} {remaining : StringMap Nat}
    (state : Draining nodes order (id :: queue) indegree) (after : Draining nodes (order ++ [id]) (queue ++ added) remaining)
    (staged : Staged (·.id) NodeDefinition.needs nodes stage) (leveled : Leveled stage order (id :: queue)) :
    ∀ new ∈ added, stage new = stage id + 1 := by
  intro new member
  have listed : new ∈ order ++ [id] ++ (queue ++ added) := by simp [member]
  obtain ⟨node, inside, rfl⟩ := List.mem_map.mp (after.known new listed)
  have waited : pendingNeeds order node ≠ 0 := by
    intro none
    have before := (state.released node inside).mpr none
    have distinct := after.distinct
    rw [show order ++ [id] ++ (queue ++ added) = (order ++ id :: queue) ++ added by simp] at distinct
    exact (List.nodup_append.mp distinct).2.2 _ before _ member rfl
  have served : ∀ need ∈ node.needs, need ∈ order ++ [id] := by
    have all := List.countP_eq_zero.mp ((after.released node inside).mp listed)
    exact fun need needed => not_not.mp fun missing => all need needed (decide_eq_true missing)
  obtain ⟨need, needed, last⟩ := List.countP_pos_iff.mp (Nat.pos_of_ne_zero waited)
  have popped : need = id := by
    rcases List.mem_append.mp (served need needed) with old | single
    · exact absurd old (of_decide_eq_true last)
    · exact List.mem_singleton.mp single
  subst popped
  rw [staged node inside]
  refine Nat.le_antisymm (height_le fun other needed' => ?_) (lt_height needed)
  rcases List.mem_append.mp (served other needed') with old | single
  · exact Nat.lt_succ_of_le ((List.pairwise_append.mp leveled.sorted).2.2 other old need List.mem_cons_self)
  · rw [List.mem_singleton.mp single]
    exact Nat.lt_succ_self _

theorem Drained.sorted (sortable : Sortable nodes) (staged : Staged (·.id) NodeDefinition.needs nodes stage)
    (drained : Drained (outgoingEdges nodes) queue indegree order final) (state : Draining nodes order queue indegree)
    (leveled : Leveled stage order queue) :
    order ++ queue <+: final ∧ final.Pairwise fun first second => stage first ≤ stage second := by
  induction drained with
  | stop indegree order =>
    rw [List.append_nil]
    exact ⟨List.prefix_refl _, by simpa using leveled.sorted⟩
  | @turn id queue later order final indegree remaining released rest ih =>
    obtain ⟨remaining', added, ran, after⟩ := state.pop sortable
    cases released.symm.trans ran
    obtain ⟨front, sorted⟩ := ih after (leveled.serve (state.next after staged leveled))
    refine ⟨List.IsPrefix.trans ?_ front, sorted⟩
    exact ⟨added, by simp⟩

theorem roots_eq (sortable : Sortable nodes) : roots nodes = (nodes.filter fun node => node.needs = []).map (·.id) := by
  refine congrArg _ (List.filter_congr fun node member => ?_)
  rw [lookup_initialIndegree sortable member, Option.getD_some, decide_eq_decide]
  exact List.length_eq_zero_iff

theorem leveled_roots (sortable : Sortable nodes) (staged : Staged (·.id) NodeDefinition.needs nodes stage) :
    Leveled stage [] (roots nodes) := by
  have zero : ∀ id ∈ roots nodes, stage id = 0 := by
    intro id listed
    rw [roots_eq sortable] at listed
    obtain ⟨node, member, rfl⟩ := List.mem_map.mp listed
    obtain ⟨inside, free⟩ := List.mem_filter.mp member
    rw [staged node inside, of_decide_eq_true free]
    rfl
  refine ⟨?_, ?_⟩
  · exact List.pairwise_of_forall_mem_list fun first member second member' => by rw [zero first member, zero second member']
  · intro first member second member'
    rw [zero first member, zero second member']
    exact Nat.zero_le _

namespace JobDefinition

variable {definition : JobDefinition} {resolved : ResolvedJobDefinition}

theorem resolve_ids (accepted : definition.resolve = .ok resolved) :
    topologicalOrder definition.nodes = .ok (resolved.nodes.map (·.id)) := by
  obtain ⟨valid, order, sorted, each⟩ := resolve_ok accepted
  obtain ⟨sortable, -⟩ := validate_ok valid
  obtain ⟨perm, -⟩ := topologicalOrder_sound sortable sorted
  have known : ∀ id ∈ order, id ∈ definition.nodes.map (·.id) := fun id listed => perm.mem_iff.mp listed
  rw [sorted]
  refine congrArg Except.ok ?_
  have paired := resolveNodes_ok each
  clear each sorted perm
  generalize resolved.nodes = nodes at paired
  induction paired with
  | nil => rfl
  | @cons id node order nodes here _ ih =>
    obtain ⟨source, found, made⟩ := here
    obtain ⟨original, inside, rfl⟩ := List.mem_map.mp (known id List.mem_cons_self)
    rw [lookup_nodesById sortable inside, Option.some.injEq] at found
    subst found
    rw [List.map_cons, (resolveNode_ok made).1, ← ih fun id listed => known id (List.mem_cons_of_mem _ listed)]

theorem staged_sources (accepted : definition.resolve = .ok resolved)
    (staged : Staged (·.id) ResolvedNodeDefinition.dependsOn resolved.nodes stage) :
    Staged (·.id) NodeDefinition.needs definition.nodes stage := by
  obtain ⟨sortable, -⟩ := validate_ok (resolve_ok accepted).1
  obtain ⟨perm, -⟩ := topologicalOrder_sound sortable (resolve_ids accepted)
  intro node member
  obtain ⟨made, inside, same⟩ := List.mem_map.mp (perm.mem_iff.mpr (List.mem_map_of_mem member))
  obtain ⟨source, declared, resolves⟩ := resolve_source accepted inside
  obtain ⟨ids, needs⟩ := resolveNode_ok resolves
  cases sortable.node_inj declared member (ids.symm.trans same)
  calc stage node.id = stage made.id := congrArg stage same.symm
    _ = height stage made.dependsOn := staged made inside
    _ = height stage node.needs := by rw [needs]

end JobDefinition

/-- The nodes of an accepted definition are listed stage by stage, where the stage of a node is the length of the
longest chain of dependencies behind it; the nodes without dependencies come first, as the file lists them. -/
theorem listed_by_stage {definition : JobDefinition} {resolved : ResolvedJobDefinition}
    (accepted : definition.resolve = .ok resolved) :
    ∃ stage : String → Nat, Staged (·.id) (·.dependsOn) resolved.nodes stage ∧
      resolved.nodes.Pairwise (fun first second => stage first.id ≤ stage second.id) ∧
      (definition.nodes.filter fun node => node.needs = []).map (·.id) <+: resolved.nodes.map (·.id) := by
  obtain ⟨sortable, -⟩ := JobDefinition.validate_ok (JobDefinition.resolve_ok accepted).1
  have staged := (JobDefinition.resolve_ordered accepted).1.staged
  have sources := JobDefinition.staged_sources accepted staged
  obtain ⟨final, last, drained, -, unfolded⟩ := topologicalOrder_drained sortable
  obtain ⟨front, sorted⟩ :=
    drained.sorted sortable sources (draining_start sortable) (leveled_roots sortable sources)
  have same : final = resolved.nodes.map (·.id) := by
    rw [JobDefinition.resolve_ids accepted] at unfolded
    split at unfolded
    · cases unfolded
    · exact (Except.ok.inj unfolded).symm
  rw [List.nil_append, roots_eq sortable, same] at front
  rw [same, List.pairwise_map] at sorted
  exact ⟨_, staged, sorted, front⟩

/-- The file lists a node of the last stage first. -/
def ladder : JobDefinition where
  version := 1
  id := "ladder"
  name := "Ladder"
  defaults := some { workingDir := some "." }
  nodes := [{ id := "top", program := "top", dependsOn := some ["low", "middle"] }, { id := "low", program := "low" },
    { id := "middle", program := "middle", dependsOn := some ["low"] }, { id := "other", program := "other" }]

theorem listed_by_stage_ladder : ∃ resolved, ladder.resolve = .ok resolved ∧
    resolved.nodes.map (·.id) = ["low", "other", "middle", "top"] ∧
    ∃ stage : String → Nat, Staged (·.id) (·.dependsOn) resolved.nodes stage ∧
      resolved.nodes.Pairwise (fun first second => stage first.id ≤ stage second.id) ∧
      (ladder.nodes.filter fun node => node.needs = []).map (·.id) <+: resolved.nodes.map (·.id) := by
  have listed : (ladder.resolve.toOption.map fun resolved => resolved.nodes.map (·.id)) =
      some ["low", "other", "middle", "top"] := by
    decide +kernel
  cases accepted : ladder.resolve with
  | error message => rw [accepted] at listed; cases listed
  | ok resolved =>
    rw [accepted] at listed
    exact ⟨resolved, rfl, Option.some.inj listed, listed_by_stage accepted⟩

end PostJen.Core
