import PostJen.Core.Definition
import PostJen.Foundations.Precedence

/-! Kahn's algorithm on the nodes of a definition.

The counter of a node is the number of its dependency occurrences that have
not been popped, so a node enters the queue exactly when its last dependency
leaves it. The loop therefore never decrements zero, never queues an id twice,
and pops every dependency before its dependents.
-/

set_option autoImplicit false

namespace PostJen.Core
open PostJen.Foundations

/-- What validation has checked before it sorts: distinct ids, known dependencies. -/
structure Sortable (nodes : List NodeDefinition) : Prop where
  distinct : (nodes.map (·.id)).Nodup
  known : ∀ node ∈ nodes, ∀ dep ∈ node.needs, dep ∈ nodes.map (·.id)

theorem Sortable.node_inj {nodes : List NodeDefinition} (sortable : Sortable nodes)
    {first second : NodeDefinition} (left : first ∈ nodes) (right : second ∈ nodes)
    (same : first.id = second.id) : first = second :=
  List.inj_on_of_nodup_map sortable.distinct left right same

/-! ## The two maps -/

private theorem foldl_insert_lookup {V : Type} (value : NodeDefinition → V)
    (nodes : List NodeDefinition) (map : StringMap V) (distinct : (nodes.map (·.id)).Nodup) :
    (∀ node ∈ nodes, (nodes.foldl (fun map node => map.insert node.id (value node)) map).lookup
      node.id = some (value node)) ∧
    ∀ key, key ∉ nodes.map (·.id) →
      (nodes.foldl (fun map node => map.insert node.id (value node)) map).lookup key =
        map.lookup key := by
  induction nodes generalizing map with
  | nil => simp
  | cons head rest ih =>
    simp only [List.map_cons, List.nodup_cons] at distinct
    obtain ⟨inside, outside⟩ := ih (map.insert head.id (value head)) distinct.2
    simp only [List.foldl_cons]
    refine ⟨?_, ?_⟩
    · intro node member
      rcases List.mem_cons.mp member with same | later
      · subst same
        rw [outside _ distinct.1, AList.lookup_insert]
      · exact inside node later
    · intro key absent
      simp only [List.map_cons, List.mem_cons, not_or] at absent
      rw [outside key absent.2, AList.lookup_insert_ne absent.1]

theorem lookup_initialIndegree {nodes : List NodeDefinition} (sortable : Sortable nodes)
    {node : NodeDefinition} (member : node ∈ nodes) :
    (initialIndegree nodes).lookup node.id = some node.needs.length :=
  (foldl_insert_lookup (fun node => node.needs.length) nodes ∅ sortable.distinct).1 node member

theorem lookup_nodesById {nodes : List NodeDefinition} (sortable : Sortable nodes)
    {node : NodeDefinition} (member : node ∈ nodes) :
    (JobDefinition.nodesById nodes).lookup node.id = some node :=
  (foldl_insert_lookup id nodes ∅ sortable.distinct).1 node member

private def successors (outgoing : StringMap (List String)) (id : String) : List String :=
  (outgoing.lookup id).getD []

private theorem successors_entryOrDefault (outgoing : StringMap (List String)) (key id : String) :
    successors (entryOrDefault outgoing key) id = successors outgoing id := by
  unfold entryOrDefault
  cases found : outgoing.lookup key with
  | some _ => rfl
  | none =>
    simp only [successors, lookup_insert_ite]
    split
    · rename_i same
      rw [same, found]
      rfl
    · rfl

private theorem count_pushEdge (from' id dep other : String) (outgoing : StringMap (List String)) :
    (successors (pushEdge id outgoing dep) from').count other =
      (successors outgoing from').count other + if from' = dep ∧ id = other then 1 else 0 := by
  simp only [successors, pushEdge, lookup_insert_ite]
  by_cases same : from' = dep
  · subst same
    simp [List.count_append, List.count_singleton]
  · simp [same]

private theorem count_pushEdges (from' id other : String) (needs : List String)
    (outgoing : StringMap (List String)) :
    (successors (needs.foldl (pushEdge id) outgoing) from').count other =
      (successors outgoing from').count other + if id = other then needs.count from' else 0 := by
  induction needs generalizing outgoing with
  | nil => simp
  | cons dep rest ih =>
    rw [List.foldl_cons, ih, count_pushEdge, List.count_cons]
    by_cases same : id = other
    · by_cases here : from' = dep
      · subst here
        simp only [same, and_self, if_true, beq_self_eq_true]
        omega
      · simp [same, here, Ne.symm here]
    · simp [same]

private theorem count_edges (from' other : String) (nodes : List NodeDefinition)
    (outgoing : StringMap (List String)) :
    (successors (nodes.foldl (fun outgoing node => node.needs.foldl (pushEdge node.id) outgoing)
      outgoing) from').count other =
      (successors outgoing from').count other +
        (nodes.map fun node => if node.id = other then node.needs.count from' else 0).sum := by
  induction nodes generalizing outgoing with
  | nil => simp
  | cons node rest ih =>
    rw [List.foldl_cons, ih, count_pushEdges, List.map_cons, List.sum_cons, Nat.add_assoc]

private theorem successors_defaults (nodes : List NodeDefinition)
    (outgoing : StringMap (List String)) (id : String) :
    successors (nodes.foldl (fun outgoing node => entryOrDefault outgoing node.id) outgoing) id =
      successors outgoing id := by
  induction nodes generalizing outgoing with
  | nil => rfl
  | cons node rest ih => rw [List.foldl_cons, ih, successors_entryOrDefault]

private theorem sum_single {nodes : List NodeDefinition} (distinct : (nodes.map (·.id)).Nodup)
    (weight : NodeDefinition → Nat) (other : String) :
    (nodes.map fun node => if node.id = other then weight node else 0).sum =
      match nodes.find? (fun node => node.id = other) with
      | some node => weight node
      | none => 0 := by
  induction nodes with
  | nil => rfl
  | cons node rest ih =>
    simp only [List.map_cons, List.nodup_cons] at distinct
    rw [List.map_cons, List.sum_cons, ih distinct.2]
    by_cases same : node.id = other
    · have absent : rest.find? (fun node => node.id = other) = none := by
        rw [List.find?_eq_none]
        intro later member equal
        refine distinct.1 (List.mem_map.mpr ⟨later, member, ?_⟩)
        rw [same]
        exact of_decide_eq_true equal
      simp [same, absent]
    · simp [same]

/-- A node stands among the successors of an id once for every time it names it. -/
theorem count_outgoingEdges {nodes : List NodeDefinition} (sortable : Sortable nodes)
    {node : NodeDefinition} (member : node ∈ nodes) (id : String) :
    (((outgoingEdges nodes).lookup id).getD []).count node.id = node.needs.count id := by
  have counted := count_edges id node.id nodes
    (nodes.foldl (fun outgoing node => entryOrDefault outgoing node.id) ∅)
  rw [successors_defaults, sum_single sortable.distinct] at counted
  have found : nodes.find? (fun other => other.id = node.id) = some node := by
    cases search : nodes.find? (fun other => other.id = node.id) with
    | none => exact absurd (List.find?_eq_none.mp search node member) (by simp)
    | some other =>
      have same : other.id = node.id := by simpa using List.find?_some search
      rw [sortable.node_inj (List.mem_of_find?_eq_some search) member same]
  rw [found] at counted
  simpa [successors, outgoingEdges] using counted

theorem mem_outgoingEdges {nodes : List NodeDefinition} (sortable : Sortable nodes) {id next : String}
    (member : next ∈ ((outgoingEdges nodes).lookup id).getD []) : next ∈ nodes.map (·.id) := by
  have counted := count_edges id next nodes
    (nodes.foldl (fun outgoing node => entryOrDefault outgoing node.id) ∅)
  rw [successors_defaults, sum_single sortable.distinct] at counted
  have positive : 0 < (((outgoingEdges nodes).lookup id).getD []).count next :=
    List.count_pos_iff.mpr member
  cases search : nodes.find? (fun other => other.id = next) with
  | none =>
    rw [search] at counted
    exact absurd counted (by simpa [successors, outgoingEdges] using Nat.ne_of_gt positive)
  | some node =>
    have same : node.id = next := by simpa using List.find?_some search
    exact List.mem_map.mpr ⟨node, List.mem_of_find?_eq_some search, same⟩

/-! ## The inner loop -/

/-- Releasing a list of successors subtracts each one's occurrences and queues
the ones that reach zero. -/
theorem foldlM_release (successors : List String) (indegree : StringMap Nat) (queue : List String)
    (enough : ∀ next ∈ successors, ∃ value, indegree.lookup next = some value ∧
      successors.count next ≤ value) :
    ∃ remaining added, successors.foldlM release (indegree, queue) = .ok (remaining, queue ++ added) ∧
      (∀ id, remaining.lookup id = (indegree.lookup id).map (· - successors.count id)) ∧
      added.Nodup ∧
      ∀ id, id ∈ added ↔ id ∈ successors ∧ indegree.lookup id = some (successors.count id) := by
  induction successors generalizing indegree queue with
  | nil => exact ⟨indegree, [], by simp [pure, Except.pure], by simp, List.nodup_nil, by simp⟩
  | cons next rest ih =>
    obtain ⟨value, found, bound⟩ := enough next List.mem_cons_self
    rw [List.count_cons_self] at bound
    obtain ⟨less, rfl⟩ : ∃ less, value = less + 1 := ⟨value - 1, by omega⟩
    have restBound : rest.count next ≤ less := by omega
    have turn : release (indegree, queue) next =
        .ok (indegree.insert next less, if less = 0 then queue ++ [next] else queue) := by
      simp [release, found]
    have enough' : ∀ other ∈ rest, ∃ value, (indegree.insert next less).lookup other = some value ∧
        rest.count other ≤ value := by
      intro other member
      rw [lookup_insert_ite]
      by_cases same : other = next
      · exact ⟨less, by rw [if_pos same], same ▸ restBound⟩
      · obtain ⟨value, found, bound⟩ := enough other (List.mem_cons_of_mem _ member)
        rw [List.count_cons_of_ne (Ne.symm same)] at bound
        exact ⟨value, by rw [if_neg same, found], bound⟩
    obtain ⟨remaining, added, ran, counts, nodup, mem⟩ :=
      ih (indegree.insert next less) (if less = 0 then queue ++ [next] else queue) enough'
    have step : (next :: rest).foldlM release (indegree, queue) =
        .ok (remaining, (if less = 0 then queue ++ [next] else queue) ++ added) := by
      rw [List.foldlM_cons, turn]
      exact ran
    have lookups : ∀ id, remaining.lookup id =
        (indegree.lookup id).map (· - (next :: rest).count id) := by
      intro id
      rw [counts, lookup_insert_ite]
      by_cases same : id = next
      · subst same
        rw [if_pos rfl, found, List.count_cons_self]
        simp only [Option.map_some, Option.some.injEq]
        omega
      · rw [if_neg same, List.count_cons_of_ne (Ne.symm same)]
    by_cases zero : less = 0
    · -- the last occurrence: it is queued now and does not come again
      subst zero
      have absent : next ∉ rest := List.count_eq_zero.mp (by omega)
      have fresh : next ∉ added := fun member => absent ((mem next).mp member).1
      refine ⟨remaining, next :: added, by simpa using step, lookups,
        List.nodup_cons.mpr ⟨fresh, nodup⟩, ?_⟩
      intro id
      by_cases same : id = next
      · subst same
        simp [found, List.count_cons_self, List.count_eq_zero.mpr absent]
      · rw [List.mem_cons, mem, lookup_insert_ite, if_neg same, List.mem_cons,
          List.count_cons_of_ne (Ne.symm same)]
        simp [same]
    · refine ⟨remaining, added, by simpa [zero] using step, lookups, nodup, ?_⟩
      intro id
      rw [mem, lookup_insert_ite]
      by_cases same : id = next
      · subst same
        rw [if_pos rfl, found, List.count_cons_self]
        simp only [Option.some.injEq, List.mem_cons_self, true_and, Nat.add_right_cancel_iff]
        refine ⟨fun both => both.2, fun equal => ⟨?_, equal⟩⟩
        exact List.count_pos_iff.mp (by omega)
      · rw [if_neg same, List.mem_cons, List.count_cons_of_ne (Ne.symm same)]
        simp [same]

/-! ## The outer loop -/

/-- The dependency occurrences of a node that have not been popped. -/
def pendingNeeds (order : List String) (node : NodeDefinition) : Nat :=
  node.needs.countP (· ∉ order)

theorem pendingNeeds_snoc (order : List String) (node : NodeDefinition) {id : String}
    (fresh : id ∉ order) :
    pendingNeeds order node = pendingNeeds (order ++ [id]) node + node.needs.count id := by
  unfold pendingNeeds
  induction node.needs with
  | nil => rfl
  | cons need rest ih =>
    rw [List.countP_cons, List.countP_cons, List.count_cons, ih]
    by_cases same : need = id
    · subst same
      simp [fresh]
      omega
    · simp only [same, beq_iff_eq, if_false, List.mem_append, List.mem_singleton, or_false]
      omega

/-- The state of the loop after `order` has been popped. -/
structure Draining (nodes : List NodeDefinition) (order queue : List String)
    (indegree : StringMap Nat) : Prop where
  distinct : (order ++ queue).Nodup
  known : ∀ id ∈ order ++ queue, id ∈ nodes.map (·.id)
  counters : ∀ node ∈ nodes, indegree.lookup node.id = some (pendingNeeds order node)
  released : ∀ node ∈ nodes, node.id ∈ order ++ queue ↔ pendingNeeds order node = 0
  closed : ∀ node ∈ nodes, ∀ front back, order = front ++ node.id :: back →
    ∀ need ∈ node.needs, need ∈ front

theorem Draining.length_le {nodes : List NodeDefinition} {order queue : List String}
    {indegree : StringMap Nat} (state : Draining nodes order queue indegree) :
    (order ++ queue).length ≤ nodes.length := by
  have bounded := (List.subperm_of_subset state.distinct state.known).length_le
  rwa [List.length_map] at bounded

theorem draining_start {nodes : List NodeDefinition} (sortable : Sortable nodes) :
    Draining nodes []
      ((nodes.filter fun node => ((initialIndegree nodes).lookup node.id).getD 0 = 0).map (·.id))
      (initialIndegree nodes) where
  distinct := by
    rw [List.nil_append]
    exact sortable.distinct.sublist (List.filter_sublist.map _)
  known := by
    intro id member
    obtain ⟨node, inside, rfl⟩ := List.mem_map.mp member
    exact List.mem_map_of_mem (List.mem_of_mem_filter inside)
  counters := by
    intro node member
    rw [lookup_initialIndegree sortable member]
    simp [pendingNeeds]
  released := by
    intro node member
    have empty : pendingNeeds [] node = node.needs.length := by simp [pendingNeeds]
    rw [List.nil_append, List.mem_map, empty]
    constructor
    · rintro ⟨other, inside, same⟩
      obtain ⟨present, zero⟩ := List.mem_filter.mp inside
      rw [sortable.node_inj present member same, lookup_initialIndegree sortable member] at zero
      exact of_decide_eq_true zero
    · intro zero
      refine ⟨node, List.mem_filter.mpr ⟨member, ?_⟩, rfl⟩
      rw [lookup_initialIndegree sortable member]
      exact decide_eq_true zero
  closed := by
    intro node member front back split
    exact absurd split (by simp)

theorem Draining.pop {nodes : List NodeDefinition} (sortable : Sortable nodes) {id : String}
    {order queue : List String} {indegree : StringMap Nat}
    (state : Draining nodes order (id :: queue) indegree) :
    ∃ remaining added,
      (((outgoingEdges nodes).lookup id).getD []).foldlM release (indegree, queue) =
        .ok (remaining, queue ++ added) ∧
      Draining nodes (order ++ [id]) (queue ++ added) remaining := by
  -- a popped node was queued once, so it is not in the order yet
  have fresh : id ∉ order := by
    have distinct := state.distinct
    rw [List.nodup_append] at distinct
    exact fun member => distinct.2.2 id member id List.mem_cons_self rfl
  have present : id ∈ order ++ id :: queue := by simp
  obtain ⟨popped, poppedMem, rfl⟩ := List.mem_map.mp (state.known id present)
  -- each occurrence among the successors is one that has not been popped, so no counter falls below zero
  have enough : ∀ next ∈ ((outgoingEdges nodes).lookup popped.id).getD [],
      ∃ value, indegree.lookup next = some value ∧
        (((outgoingEdges nodes).lookup popped.id).getD []).count next ≤ value := by
    intro next member
    obtain ⟨node, inside, rfl⟩ := List.mem_map.mp (mem_outgoingEdges sortable member)
    refine ⟨_, state.counters node inside, ?_⟩
    rw [count_outgoingEdges sortable inside, pendingNeeds_snoc order node fresh]
    omega
  obtain ⟨remaining, added, ran, lookups, nodup, mem⟩ :=
    foldlM_release _ indegree queue enough
  -- what is queued now was only waiting for the popped node
  have queued : ∀ node ∈ nodes, node.id ∈ added ↔
      popped.id ∈ node.needs ∧ pendingNeeds (order ++ [popped.id]) node = 0 := by
    intro node inside
    rw [mem, state.counters node inside, count_outgoingEdges sortable inside,
      pendingNeeds_snoc order node fresh, ← List.count_pos_iff, count_outgoingEdges sortable inside,
      ← List.count_pos_iff]
    simp only [Option.some.injEq]
    exact and_congr_right fun _ => by omega
  have addedKnown : ∀ next ∈ added, next ∈ nodes.map (·.id) :=
    fun next member => mem_outgoingEdges sortable ((mem next).mp member).1
  have rearranged : order ++ [popped.id] ++ (queue ++ added) = (order ++ popped.id :: queue) ++ added := by
    simp
  refine ⟨remaining, added, ran, ⟨?_, ?_, ?_, ?_, ?_⟩⟩
  · rw [rearranged, List.nodup_append]
    refine ⟨state.distinct, nodup, ?_⟩
    rintro old inside new member rfl
    obtain ⟨node, nodeMem, rfl⟩ := List.mem_map.mp (addedKnown old member)
    have zero := (state.released node nodeMem).mp inside
    obtain ⟨needed, _⟩ := (queued node nodeMem).mp member
    rw [pendingNeeds_snoc order node fresh] at zero
    have positive := List.count_pos_iff.mpr needed
    omega
  · rw [rearranged]
    intro next member
    rcases List.mem_append.mp member with old | new
    · exact state.known next old
    · exact addedKnown next new
  · intro node inside
    rw [lookups, state.counters node inside, count_outgoingEdges sortable inside,
      pendingNeeds_snoc order node fresh]
    simp
  · intro node inside
    rw [rearranged, List.mem_append, state.released node inside, queued node inside,
      pendingNeeds_snoc order node fresh, ← List.count_pos_iff]
    omega
  · intro node inside front back split need needed
    rcases List.eq_nil_or_concat back with rfl | ⟨back, last, rfl⟩
    · -- the node popped now: all its dependencies have been popped before
      obtain ⟨same, equal⟩ := List.append_inj' split rfl
      have zero := (state.released node inside).mp (by rw [← (List.cons.inj equal).1]; exact present)
      rw [← same]
      have all := List.countP_eq_zero.mp zero need needed
      simpa using all
    · have shorter : order = front ++ node.id :: back := by
        rw [List.concat_eq_append, ← List.cons_append, ← List.append_assoc] at split
        exact (List.append_inj' split rfl).1
      exact state.closed node inside front back shorter need needed

/-- The `while let` loop without a bound on its turns: it ends with an empty
queue, and no turn decrements a counter below zero. -/
inductive Drained (outgoing : StringMap (List String)) :
    List String → StringMap Nat → List String → List String → Prop where
  | stop (indegree : StringMap Nat) (order : List String) : Drained outgoing [] indegree order order
  | turn {id : String} {queue later order final : List String} {indegree remaining : StringMap Nat}
      (released : ((outgoing.lookup id).getD []).foldlM release (indegree, queue) = .ok (remaining, later))
      (rest : Drained outgoing later remaining (order ++ [id]) final) :
      Drained outgoing (id :: queue) indegree order final

/-- The bounded loop computes what the loop computes. -/
theorem Drained.drain_eq {outgoing : StringMap (List String)} {queue order final : List String}
    {indegree : StringMap Nat} (drained : Drained outgoing queue indegree order final) :
    order.length ≤ final.length ∧
      ∀ fuel, final.length ≤ order.length + fuel → drain outgoing fuel queue indegree order = .ok final := by
  induction drained with
  | stop indegree order => exact ⟨Nat.le_refl _, fun fuel _ => by cases fuel <;> rfl⟩
  | @turn id queue later order final indegree remaining released _ ih =>
    obtain ⟨grows, bounded⟩ := ih
    rw [List.length_append, List.length_singleton] at grows bounded
    refine ⟨by omega, fun fuel enough => ?_⟩
    cases fuel with
    | zero => omega
    | succ fuel =>
      simp only [drain, released]
      exact bounded fuel (by omega)

/-- The loop empties its queue: every turn pops another node. -/
theorem Draining.drained {nodes : List NodeDefinition} (sortable : Sortable nodes) (left : Nat)
    {queue order : List String} {indegree : StringMap Nat} (state : Draining nodes order queue indegree)
    (turns : nodes.length ≤ order.length + left) :
    ∃ final last, Drained (outgoingEdges nodes) queue indegree order final ∧ Draining nodes final [] last := by
  -- each turn pops another node, and there are no more nodes than turns left
  induction left generalizing queue indegree order with
  | zero =>
    have bound := state.length_le
    rw [List.length_append] at bound
    have empty : queue = [] := List.eq_nil_of_length_eq_zero (by omega)
    subst empty
    exact ⟨order, indegree, .stop _ _, state⟩
  | succ left ih =>
    cases queue with
    | nil => exact ⟨order, indegree, .stop _ _, state⟩
    | cons id queue =>
      obtain ⟨remaining, added, ran, next⟩ := state.pop sortable
      have more : nodes.length ≤ (order ++ [id]).length + left := by
        rw [List.length_append, List.length_singleton]
        omega
      obtain ⟨final, last, drained, ended⟩ := ih next more
      exact ⟨final, last, .turn ran drained, ended⟩

def roots (nodes : List NodeDefinition) : List String :=
  (nodes.filter fun node => ((initialIndegree nodes).lookup node.id).getD 0 = 0).map (·.id)

theorem topologicalOrder_drained {nodes : List NodeDefinition} (sortable : Sortable nodes) :
    ∃ final last, Drained (outgoingEdges nodes) (roots nodes) (initialIndegree nodes) [] final ∧
      Draining nodes final [] last ∧
      topologicalOrder nodes =
        if final.length ≠ nodes.length then .error "node dependency graph contains a cycle" else .ok final := by
  obtain ⟨final, last, drained, ended⟩ :=
    Draining.drained sortable nodes.length (draining_start sortable) (by simp)
  refine ⟨final, last, drained, ended, ?_⟩
  have bound : final.length ≤ nodes.length := by simpa using ended.length_le
  have turns := drained.drain_eq.2 (nodes.length + (nodes.map fun node => node.needs.length).sum) (by
    rw [List.length_nil]
    omega)
  unfold topologicalOrder
  simp only [turns]
  by_cases short : final.length ≠ nodes.length
  · simp only [bind, Except.bind, if_pos short]
    rfl
  · simp only [bind, Except.bind, if_neg short]
    rfl

/-- A returned order lists every node once, dependencies first. -/
theorem topologicalOrder_sound {nodes : List NodeDefinition} (sortable : Sortable nodes)
    {order : List String} (returned : topologicalOrder nodes = .ok order) :
    order.Perm (nodes.map (·.id)) ∧
      ∀ node ∈ nodes, ∀ front back, order = front ++ node.id :: back →
        ∀ need ∈ node.needs, need ∈ front := by
  obtain ⟨final, last, -, ended, unfolded⟩ := topologicalOrder_drained sortable
  rw [unfolded] at returned
  split at returned
  · cases returned
  · rename_i full
    cases returned
    have nodup : order.Nodup := by simpa using ended.distinct
    have sub : ∀ id ∈ order, id ∈ nodes.map (·.id) := fun id member => ended.known id (by simpa using member)
    refine ⟨(List.subperm_of_subset nodup sub).perm_of_length_le ?_, ended.closed⟩
    rw [List.length_map]
    exact Nat.le_of_eq (not_not.mp full).symm

/-! ## Accepted definitions -/

theorem validateNodes_ok {nodes : List NodeDefinition} {seen all : List String}
    (checked : validateNodes seen nodes = .ok all) :
    (nodes.map (·.id)).Nodup ∧ (∀ node ∈ nodes, node.id ∉ seen ∧ isValidId node.id = true) ∧
      ∀ id, id ∈ all ↔ id ∈ nodes.map (·.id) ∨ id ∈ seen := by
  induction nodes generalizing seen with
  | nil =>
    cases checked
    simp
  | cons node rest ih =>
    simp only [validateNodes, bind, Except.bind] at checked
    split at checked
    · cases checked
    · rename_i valid
      split at checked
      · cases checked
      · rename_i fresh
        obtain ⟨distinct, each, mem⟩ := ih checked
        have validId : isValidId node.id = true := by
          by_contra invalid
          rw [Bool.not_eq_true] at invalid
          simp [validateNode, bind, Except.bind, invalid, throw, throwThe, MonadExceptOf.throw] at valid
        refine ⟨List.nodup_cons.mpr ⟨?_, distinct⟩, ?_, ?_⟩
        · intro later
          obtain ⟨other, member, same⟩ := List.mem_map.mp later
          exact (each other member).1 (by rw [same]; exact List.mem_cons_self)
        · intro other member
          rcases List.mem_cons.mp member with rfl | later
          · exact ⟨fresh, validId⟩
          · exact ⟨fun inside => (each other later).1 (List.mem_cons_of_mem _ inside), (each other later).2⟩
        · intro id
          rw [mem, List.map_cons, List.mem_cons, List.mem_cons]
          tauto

private theorem forM_ok {A : Type} {check : A → Except String Unit} {items : List A}
    (checked : items.forM check = .ok ()) : ∀ item ∈ items, check item = .ok () := by
  induction items with
  | nil => simp
  | cons head rest ih =>
    simp only [List.forM, bind, Except.bind] at checked
    split at checked
    · cases checked
    · rename_i here
      intro item member
      rcases List.mem_cons.mp member with rfl | later
      · exact here
      · exact ih checked item later

theorem validateDependencies_ok {seen : List String} {nodes : List NodeDefinition}
    (checked : validateDependencies seen nodes = .ok ()) :
    ∀ node ∈ nodes, ∀ dep ∈ node.needs, dep ∈ seen := by
  intro node member dep needed
  have passed := forM_ok (forM_ok checked node member) dep needed
  by_contra unknown
  simp [unknown] at passed

theorem JobDefinition.validate_ok {definition : JobDefinition}
    (checked : definition.validate = .ok ()) :
    Sortable definition.nodes ∧ ∀ node ∈ definition.nodes, isValidId node.id = true := by
  simp only [JobDefinition.validate, bind, Except.bind, throw, throwThe, MonadExceptOf.throw] at checked
  repeat' split at checked
  all_goals try cases checked
  rename_i _ _ _ _ _ seen known _ _ linked _ _ _
  obtain ⟨distinct, valid, mem⟩ := validateNodes_ok known
  refine ⟨⟨distinct, ?_⟩, fun node member => (valid node member).2⟩
  intro node member dep needed
  simpa using (mem dep).mp (validateDependencies_ok linked node member dep needed)

theorem JobDefinition.resolveNode_ok {defaults : JobDefaults} {node : NodeDefinition}
    {resolved : ResolvedNodeDefinition} (returned : resolveNode defaults node = .ok resolved) :
    resolved.id = node.id ∧ resolved.dependsOn = node.needs := by
  unfold resolveNode at returned
  split at returned
  · cases returned
    exact ⟨rfl, rfl⟩
  · cases returned

theorem JobDefinition.resolveNodes_ok {defaults : JobDefaults} {byId : StringMap NodeDefinition}
    {order : List String} {resolved : List ResolvedNodeDefinition}
    (returned : resolveNodes defaults byId order = .ok resolved) :
    List.Forall₂ (fun id node => ∃ source, byId.lookup id = some source ∧
      resolveNode defaults source = .ok node) order resolved := by
  induction order generalizing resolved with
  | nil =>
    cases returned
    exact .nil
  | cons id rest ih =>
    unfold resolveNodes at returned
    cases found : byId.lookup id with
    | none => simp [found, throw, throwThe, MonadExceptOf.throw] at returned
    | some source =>
      simp only [found, bind, Except.bind] at returned
      split at returned
      · cases returned
      · rename_i node here
        split at returned
        · cases returned
        · rename_i nodes later
          cases returned
          exact .cons ⟨source, found, here⟩ (ih later)

theorem JobDefinition.resolve_ok {definition : JobDefinition} {resolved : ResolvedJobDefinition}
    (accepted : definition.resolve = .ok resolved) :
    definition.validate = .ok () ∧ ∃ order, topologicalOrder definition.nodes = .ok order ∧
      resolveNodes (definition.defaults.getD {}) (nodesById definition.nodes) order =
        .ok resolved.nodes := by
  simp only [JobDefinition.resolve, bind, Except.bind] at accepted
  split at accepted
  · cases accepted
  · rename_i valid
    split at accepted
    · cases accepted
    · rename_i order sorted
      split at accepted
      · cases accepted
      · rename_i nodes each
        cases accepted
        exact ⟨valid, order, sorted, each⟩

private theorem forall₂_trace {R : String → ResolvedNodeDefinition → Prop} {order : List String}
    {nodes : List ResolvedNodeDefinition} (related : List.Forall₂ R order nodes)
    (agree : ∀ key node, key ∈ order → R key node → node.id = key) :
    nodes.map (·.id) = order ∧ ∀ node ∈ nodes, node.id ∈ order ∧ R node.id node := by
  induction related with
  | nil => simp
  | @cons key node rest nodes here _ ih =>
    have same := agree key node List.mem_cons_self here
    subst same
    obtain ⟨ids, each⟩ := ih fun key node member => agree key node (List.mem_cons_of_mem _ member)
    refine ⟨by rw [List.map_cons, ids], ?_⟩
    intro other member
    rcases List.mem_cons.mp member with rfl | later
    · exact ⟨List.mem_cons_self, here⟩
    · exact ⟨List.mem_cons_of_mem _ (each other later).1, (each other later).2⟩

theorem JobDefinition.resolve_ordered {definition : JobDefinition} {resolved : ResolvedJobDefinition}
    (accepted : definition.resolve = .ok resolved) :
    Precedence (·.id) (·.dependsOn) resolved.nodes ∧
      ∀ node ∈ resolved.nodes, isValidId node.id = true := by
  obtain ⟨valid, order, sorted, each⟩ := resolve_ok accepted
  obtain ⟨sortable, validIds⟩ := validate_ok valid
  obtain ⟨perm, closed⟩ := topologicalOrder_sound sortable sorted
  have paired := resolveNodes_ok each
  -- a resolved node has the id and the dependencies of the node it was made from
  have source : ∀ key node, key ∈ order →
      (∃ source, (nodesById definition.nodes).lookup key = some source ∧
        resolveNode (definition.defaults.getD {}) source = .ok node) →
      ∃ source ∈ definition.nodes, source.id = key ∧ node.id = key ∧ node.dependsOn = source.needs := by
    rintro key node member ⟨source, found, made⟩
    obtain ⟨original, inside, rfl⟩ := List.mem_map.mp (perm.mem_iff.mp member)
    rw [lookup_nodesById sortable inside, Option.some.injEq] at found
    subst found
    exact ⟨_, inside, rfl, resolveNode_ok made⟩
  obtain ⟨ids, traced⟩ := forall₂_trace paired fun key node member made =>
    let ⟨_, _, _, same, _⟩ := source key node member made
    same
  have original : ∀ node ∈ resolved.nodes, ∃ source ∈ definition.nodes, source.id = node.id ∧
      node.dependsOn = source.needs := by
    intro node member
    obtain ⟨listed, made⟩ := traced node member
    obtain ⟨source, inside, same, _, needs⟩ := source node.id node listed made
    exact ⟨source, inside, same, needs⟩
  refine ⟨⟨?_, ?_⟩, ?_⟩
  · rw [ids]
    exact perm.nodup_iff.mpr sortable.distinct
  · intro front node back split need needed
    obtain ⟨source, inside, same, needs⟩ := original node (by rw [split]; simp)
    rw [needs] at needed
    refine closed source inside (front.map (·.id)) (back.map (·.id)) ?_ need needed
    rw [← ids, split, same, List.map_append, List.map_cons]
  · intro node member
    obtain ⟨source, inside, same, _⟩ := original node member
    rw [← same]
    exact validIds source inside

end PostJen.Core
