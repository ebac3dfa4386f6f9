import PostJen.Server.Runner
import PostJen.Core.TopologicalOrder

/-! The bookkeeping of `execute_run`, without the database.

The three maps of the loop put every node into one phase: fresh, active or
ended. A step of the loop moves one node forward and leaves the others where
they are, and a node only starts after its dependencies ended in success.
-/

set_option autoImplicit false

open PostJen.Foundations PostJen.Core

namespace PostJen.Server

/-- What the preparation of a run keeps of a node. -/
def dependencies (nodes : List ResolvedNodeDefinition) : List (String × List String) :=
  nodes.map fun node => (node.id, node.dependsOn)

/-- The nodes of an accepted definition, up to their environments. -/
def Accepted (nodes : List ResolvedNodeDefinition) : Prop :=
  ∃ (definition : JobDefinition) (resolved : ResolvedJobDefinition), definition.resolve = .ok resolved ∧
    dependencies nodes = dependencies resolved.nodes

namespace Accepted

variable {nodes others : List ResolvedNodeDefinition}

theorem congr (accepted : Accepted nodes) (same : dependencies others = dependencies nodes) :
    Accepted others := by
  obtain ⟨definition, resolved, resolves, kept⟩ := accepted
  exact ⟨definition, resolved, resolves, same.trans kept⟩

theorem order (accepted : Accepted nodes) : Precedence (·.id) (·.dependsOn) nodes := by
  obtain ⟨definition, resolved, resolves, kept⟩ := accepted
  exact (JobDefinition.resolve_ordered resolves).1.congr kept

theorem named (accepted : Accepted nodes) : ∀ node ∈ nodes, node.id ≠ "" := by
  obtain ⟨definition, resolved, resolves, kept⟩ := accepted
  intro node member empty
  have listed : (node.id, node.dependsOn) ∈ dependencies resolved.nodes := by
    rw [← kept]
    exact List.mem_map.mpr ⟨node, member, rfl⟩
  obtain ⟨original, inside, equal⟩ := List.mem_map.mp listed
  have invalid := (JobDefinition.resolve_ordered resolves).2 original inside
  rw [(Prod.mk.inj equal).1, empty] at invalid
  cases invalid

end Accepted

inductive Phase where
  | fresh
  | assigned
  | active
  | ended (status : NodeStatus)
  deriving DecidableEq

namespace Execution

/-- Where the loop's variables place a node; newly queued nodes are active. -/
def phase (x : Execution) (newlyQueued : List (String × Nat)) (key : String) : Phase :=
  match x.results.lookup key with
  | some status => .ended status
  | none =>
      if (x.runningNodes.lookup key).isSome ∨ key ∈ newlyQueued.map Prod.fst then .active else .fresh

theorem phase_ended {x : Execution} {newlyQueued : List (String × Nat)} {key : String}
    {status : NodeStatus} :
    x.phase newlyQueued key = .ended status ↔ x.results.lookup key = some status := by
  unfold phase
  cases x.results.lookup key with
  | none =>
    dsimp only
    split <;> simp
  | some other => simp

theorem phase_active {x : Execution} {newlyQueued : List (String × Nat)} {key : String}
    (unsettled : x.results.lookup key = none)
    (active : (x.runningNodes.lookup key).isSome ∨ key ∈ newlyQueued.map Prod.fst) :
    x.phase newlyQueued key = .active := by
  unfold phase
  rw [unsettled]
  exact if_pos active

theorem phase_fresh {x : Execution} {newlyQueued : List (String × Nat)} {key : String}
    (unsettled : x.results.lookup key = none) (idle : x.runningNodes.lookup key = none)
    (unqueued : key ∉ newlyQueued.map Prod.fst) : x.phase newlyQueued key = .fresh := by
  simp [phase, unsettled, idle, unqueued]

theorem phase_eq_fresh {x : Execution} {newlyQueued : List (String × Nat)} {key : String}
    (fresh : x.phase newlyQueued key = .fresh) :
    x.results.lookup key = none ∧ x.runningNodes.lookup key = none ∧
      key ∉ newlyQueued.map Prod.fst := by
  unfold phase at fresh
  cases settled : x.results.lookup key with
  | some status => simp [settled] at fresh
  | none =>
    simp only [settled] at fresh
    split at fresh
    · cases fresh
    · rename_i inactive
      rw [not_or, Option.not_isSome_iff_eq_none] at inactive
      exact ⟨rfl, inactive⟩

/-! ## What the loop does to the phases -/

section
variable (x : Execution) (newlyQueued : List (String × Nat)) (key other : String)

theorem phase_record (status : NodeStatus) :
    (x.record key status).phase newlyQueued other =
      if other = key then .ended status else x.phase newlyQueued other := by
  unfold phase record
  simp only [lookup_insert_ite]
  by_cases same : other = key <;> simp [same]

theorem phase_queue (id : Nat) (unsettled : x.results.lookup key = none) :
    x.phase (newlyQueued ++ [(key, id)]) other =
      if other = key then .active else x.phase newlyQueued other := by
  unfold phase
  by_cases same : other = key
  · subst same
    simp [unsettled]
  · simp only [List.map_append, List.mem_append, List.map_cons, List.map_nil, List.mem_singleton,
      same, or_false, if_false]

private theorem lookup_launch (entries : List (String × Nat)) (running : StringMap Nat) :
    ((entries.foldl (fun running entry => running.insert entry.1 entry.2) running).lookup other).isSome ↔
      (running.lookup other).isSome ∨ other ∈ entries.map Prod.fst := by
  induction entries generalizing running with
  | nil => simp
  | cons entry rest ih =>
    rw [List.foldl_cons, ih, lookup_insert_ite, List.map_cons, List.mem_cons]
    by_cases same : other = entry.1 <;> simp [same]

theorem phase_launch : (x.launch newlyQueued).phase [] other = x.phase newlyQueued other := by
  unfold phase launch
  simp only [lookup_launch, List.map_nil, List.not_mem_nil, or_false]

theorem phase_complete (outcome : NodeExecutionOutcome) :
    (x.complete key outcome).phase newlyQueued other =
      if other = key then .ended outcome.status else x.phase newlyQueued other := by
  unfold phase complete
  simp only [lookup_insert_ite, lookup_erase_ite]
  by_cases same : other = key <;> simp only [same, if_true, if_false]

end

/-! ## What the branches of a pass test -/

theorem blockedBy_none {x : Execution} {node : ResolvedNodeDefinition} (free : x.blockedBy node = none)
    {dep : String} (needed : dep ∈ node.dependsOn) {status : NodeStatus}
    (found : x.results.lookup dep = some status) : status = .success := by
  have passed := List.findSome?_eq_none_iff.mp free dep needed
  rw [found] at passed
  by_contra failed
  simp [failed] at passed

theorem waitsOn_iff {x : Execution} {node : ResolvedNodeDefinition} :
    x.waitsOn node = true ↔ ∃ dep ∈ node.dependsOn, x.results.lookup dep = none := by
  simp [waitsOn, List.any_eq_true]

theorem ready {x : Execution} {node : ResolvedNodeDefinition} (free : x.blockedBy node = none)
    (waits : ¬x.waitsOn node = true) :
    ∀ dep ∈ node.dependsOn, x.results.lookup dep = some .success := by
  intro dep needed
  cases found : x.results.lookup dep with
  | none => exact absurd (waitsOn_iff.mpr ⟨dep, needed, found⟩) waits
  | some status => rw [blockedBy_none free needed found]

/-! ## The loop invariant -/

/-- The maps of the loop fit together, and started nodes had their dependencies. -/
structure Sound (x : Execution) (newlyQueued : List (String × Nat)) : Prop where
  accepted : Accepted x.nodes
  numbered : ∀ node ∈ x.nodes, ∃ id, x.nodeIds.lookup node.id = some id
  injective : ∀ key other id, x.nodeIds.lookup key = some id → x.nodeIds.lookup other = some id →
    key = other
  running : ∀ key id, x.runningNodes.lookup key = some id →
    x.nodeIds.lookup key = some id ∧ key ∈ x.nodes.map (·.id) ∧ x.results.lookup key = none
  queued : ∀ entry ∈ newlyQueued, x.nodeIds.lookup entry.1 = some entry.2 ∧
    entry.1 ∈ x.nodes.map (·.id) ∧ x.results.lookup entry.1 = none
  terminal : ∀ key status, x.results.lookup key = some status → status.terminal = true
  started : ∀ node ∈ x.nodes, x.phase newlyQueued node.id ≠ .fresh →
    x.phase newlyQueued node.id ≠ .ended .skipped →
    ∀ dep ∈ node.dependsOn, x.results.lookup dep = some .success

/-- A visited node has been placed, or still waits for a dependency. -/
def Visited (x : Execution) (newlyQueued : List (String × Nat)) (front : List ResolvedNodeDefinition) :
    Prop :=
  ∀ node ∈ front, x.phase newlyQueued node.id ≠ .fresh ∨
    ∃ dep ∈ node.dependsOn, x.results.lookup dep = none

namespace Sound

variable {x : Execution} {newlyQueued : List (String × Nat)} {node : ResolvedNodeDefinition}

theorem order (sound : Sound x newlyQueued) : Precedence (·.id) (·.dependsOn) x.nodes :=
  sound.accepted.order

theorem start {queued : QueuedRun} {nodes : List ResolvedNodeDefinition} {nodeIds : StringMap Nat}
    (accepted : Accepted nodes) (numbered : ∀ node ∈ nodes, ∃ id, nodeIds.lookup node.id = some id)
    (injective : ∀ key other id, nodeIds.lookup key = some id → nodeIds.lookup other = some id →
      key = other) :
    Sound ⟨queued, nodes, nodeIds, ∅, ∅, false, false⟩ [] where
  accepted := accepted
  numbered := numbered
  injective := injective
  running := by simp
  queued := by simp
  terminal := by simp
  started := by
    intro node _ started
    exact absurd (by simp [phase]) started

theorem flags (sound : Sound x newlyQueued) (stop canceling : Bool) :
    Sound { x with stopScheduling := stop, canceling } newlyQueued :=
  ⟨sound.accepted, sound.numbered, sound.injective, sound.running, sound.queued,
    sound.terminal, sound.started⟩

theorem record (sound : Sound x newlyQueued) (fresh : x.phase newlyQueued node.id = .fresh)
    {status : NodeStatus} (terminal : status.terminal = true)
    (ready : status ≠ .skipped → ∀ dep ∈ node.dependsOn, x.results.lookup dep = some .success)
    (member : node ∈ x.nodes) : Sound (x.record node.id status) newlyQueued := by
  obtain ⟨unsettled, idle, unqueued⟩ := phase_eq_fresh fresh
  have keeps : ∀ key value, x.results.lookup key = some value →
      (x.record node.id status).results.lookup key = some value := by
    intro key value found
    have ne : key ≠ node.id := by
      rintro rfl
      cases unsettled.symm.trans found
    simp only [Execution.record, lookup_insert_ite, if_neg ne, found]
  refine ⟨sound.accepted, sound.numbered, sound.injective, ?_, ?_, ?_, ?_⟩
  · intro key id found
    obtain ⟨known, listed, free⟩ := sound.running key id found
    have ne : key ≠ node.id := by
      rintro rfl
      cases idle.symm.trans found
    exact ⟨known, listed, by simp only [Execution.record, lookup_insert_ite, if_neg ne, free]⟩
  · intro entry queued
    obtain ⟨known, listed, free⟩ := sound.queued entry queued
    have ne : entry.1 ≠ node.id :=
      fun same => unqueued (by rw [← same]; exact List.mem_map_of_mem queued)
    exact ⟨known, listed, by simp only [Execution.record, lookup_insert_ite, if_neg ne, free]⟩
  · intro key value found
    simp only [Execution.record, lookup_insert_ite] at found
    split at found
    · cases found
      exact terminal
    · exact sound.terminal key value found
  · intro other present unfresh unskipped dep needed
    rw [phase_record] at unfresh unskipped
    by_cases same : other.id = node.id
    · rw [if_pos same] at unskipped
      obtain rfl : other = node := sound.order.key_inj present member same
      exact keeps _ _ (ready (fun skipped => unskipped (by rw [skipped])) dep needed)
    · rw [if_neg same] at unfresh unskipped
      exact keeps _ _ (sound.started other present unfresh unskipped dep needed)

theorem queue (sound : Sound x newlyQueued) (fresh : x.phase newlyQueued node.id = .fresh)
    (ready : ∀ dep ∈ node.dependsOn, x.results.lookup dep = some .success)
    (member : node ∈ x.nodes) {id : Nat} (known : x.nodeIds.lookup node.id = some id) :
    Sound x (newlyQueued ++ [(node.id, id)]) := by
  obtain ⟨unsettled, _, _⟩ := phase_eq_fresh fresh
  refine ⟨sound.accepted, sound.numbered, sound.injective, sound.running, ?_,
    sound.terminal, ?_⟩
  · intro entry queued
    rcases List.mem_append.mp queued with old | new
    · exact sound.queued entry old
    · rw [List.mem_singleton.mp new]
      exact ⟨known, List.mem_map_of_mem member, unsettled⟩
  · intro other present unfresh unskipped dep needed
    rw [phase_queue x newlyQueued node.id other.id id unsettled] at unfresh unskipped
    by_cases same : other.id = node.id
    · obtain rfl : other = node := sound.order.key_inj present member same
      exact ready dep needed
    · rw [if_neg same] at unfresh unskipped
      exact sound.started other present unfresh unskipped dep needed

private theorem lookup_launched {entries : List (String × Nat)} {running : StringMap Nat} {key : String}
    {id : Nat}
    (found : (entries.foldl (fun running entry => running.insert entry.1 entry.2) running).lookup key =
      some id) : running.lookup key = some id ∨ (key, id) ∈ entries := by
  induction entries generalizing running with
  | nil => exact .inl found
  | cons entry rest ih =>
    rcases ih found with before | later
    · rw [lookup_insert_ite] at before
      split at before
      · rename_i same
        cases before
        subst same
        exact .inr List.mem_cons_self
      · exact .inl before
    · exact .inr (List.mem_cons_of_mem _ later)

theorem launch (sound : Sound x newlyQueued) : Sound (x.launch newlyQueued) [] := by
  refine ⟨sound.accepted, sound.numbered, sound.injective, ?_, by simp, sound.terminal, ?_⟩
  · intro key id found
    rcases lookup_launched found with before | queued
    · exact sound.running key id before
    · exact sound.queued (key, id) queued
  · intro node member
    rw [phase_launch]
    exact sound.started node member

theorem complete (sound : Sound x []) {key : String} {outcome : NodeExecutionOutcome}
    (terminal : outcome.status.terminal = true)
    (ended : (∃ id, x.runningNodes.lookup key = some id) ∨ key ∉ x.nodes.map (·.id)) :
    Sound (x.complete key outcome) [] := by
  -- the completed key had no result before, so no result that a start relied on is overwritten
  have keeps : ∀ node ∈ x.nodes, ∀ dep ∈ node.dependsOn, ∀ value, x.results.lookup dep = some value →
      (x.complete key outcome).results.lookup dep = some value := by
    intro node member dep needed value found
    have ne : dep ≠ key := by
      rintro rfl
      rcases ended with ⟨id, running⟩ | unlisted
      · rw [(sound.running dep id running).2.2] at found
        cases found
      · obtain ⟨other, present, same⟩ := sound.order.needed member needed
        exact unlisted (List.mem_map.mpr ⟨other, present, same⟩)
    simp only [Execution.complete, lookup_insert_ite, if_neg ne, found]
  refine ⟨sound.accepted, sound.numbered, sound.injective, ?_, by simp, ?_, ?_⟩
  · intro other id found
    simp only [Execution.complete, lookup_erase_ite] at found
    split at found
    · cases found
    · rename_i ne
      obtain ⟨known, listed, free⟩ := sound.running other id found
      exact ⟨known, listed, by simp only [Execution.complete, lookup_insert_ite, if_neg ne, free]⟩
  · intro other value found
    simp only [Execution.complete, lookup_insert_ite] at found
    split at found
    · cases found
      exact terminal
    · exact sound.terminal other value found
  · intro node member unfresh unskipped dep needed
    rw [phase_complete] at unfresh unskipped
    refine keeps node member dep needed _ ?_
    by_cases same : node.id = key
    · rcases ended with ⟨id, running⟩ | unlisted
      · have unsettled := (sound.running key id running).2.2
        have active : x.phase [] node.id = .active := by
          rw [same]
          exact phase_active unsettled (.inl (by rw [running]; rfl))
        exact sound.started node member (by rw [active]; simp) (by rw [active]; simp) dep needed
      · exact absurd (List.mem_map.mpr ⟨node, member, same⟩) unlisted
    · rw [if_neg same] at unfresh unskipped
      exact sound.started node member unfresh unskipped dep needed

private theorem waits_elsewhere (sound : Sound x newlyQueued) {front todo : List ResolvedNodeDefinition}
    (split : x.nodes = front ++ node :: todo) {other : ResolvedNodeDefinition} (inside : other ∈ front)
    {dep : String} (needed : dep ∈ other.dependsOn) : dep ≠ node.id := by
  rintro rfl
  obtain ⟨before, after, cut⟩ := List.append_of_mem inside
  have here : x.nodes = before ++ other :: (after ++ node :: todo) := by rw [split, cut]; simp
  have listed : node.id ∈ front.map (·.id) := by
    rw [cut, List.map_append]
    exact List.mem_append_left _ (sound.order.earlier before other _ here _ needed)
  exact sound.order.key_notin_front split listed

theorem visited_record (sound : Sound x newlyQueued) {front todo : List ResolvedNodeDefinition}
    (split : x.nodes = front ++ node :: todo) (visited : Visited x newlyQueued front)
    (status : NodeStatus) : Visited (x.record node.id status) newlyQueued (front ++ [node]) := by
  intro other inside
  rw [phase_record]
  rcases List.mem_append.mp inside with old | new
  · rcases visited other old with placed | ⟨dep, needed, missing⟩
    · left
      split
      · simp
      · exact placed
    · have ne := waits_elsewhere sound split old needed
      exact .inr ⟨dep, needed, by simp only [Execution.record, lookup_insert_ite, if_neg ne, missing]⟩
  · rw [List.mem_singleton.mp new]
    simp

theorem visited_queue {front : List ResolvedNodeDefinition} (visited : Visited x newlyQueued front)
    (unsettled : x.results.lookup node.id = none) (id : Nat) :
    Visited x (newlyQueued ++ [(node.id, id)]) (front ++ [node]) := by
  intro other inside
  rw [phase_queue x newlyQueued node.id other.id id unsettled]
  rcases List.mem_append.mp inside with old | new
  · rcases visited other old with placed | waiting
    · left
      split
      · simp
      · exact placed
    · exact .inr waiting
  · rw [List.mem_singleton.mp new]
    simp

theorem visited_same {front : List ResolvedNodeDefinition} (visited : Visited x newlyQueued front)
    (placed : x.phase newlyQueued node.id ≠ .fresh ∨ ∃ dep ∈ node.dependsOn, x.results.lookup dep = none) :
    Visited x newlyQueued (front ++ [node]) := by
  intro other inside
  rcases List.mem_append.mp inside with old | new
  · exact visited other old
  · rw [List.mem_singleton.mp new]
    exact placed

/-- With nothing running after a pass over all nodes, every node has a result. -/
theorem settled (sound : Sound x []) (visited : Visited x [] x.nodes)
    (empty : ∀ key, x.runningNodes.lookup key = none) :
    ∀ node ∈ x.nodes, ∃ status, x.results.lookup node.id = some status := by
  refine sound.order.induction fun node member ih => ?_
  rcases visited node member with placed | ⟨dep, needed, missing⟩
  · cases found : x.results.lookup node.id with
    | some status => exact ⟨status, rfl⟩
    | none => exact absurd (phase_fresh found (empty _) (by simp)) placed
  · obtain ⟨other, present, same⟩ := sound.order.needed member needed
    obtain ⟨status, found⟩ := ih other present (by rw [same]; exact needed)
    rw [same, missing] at found
    cases found

/-- Behind a node that started, every ancestor ended in success. -/
theorem ancestors (sound : Sound x newlyQueued) {first last : ResolvedNodeDefinition}
    (chain : Ancestor (·.id) (·.dependsOn) x.nodes first last)
    (ready : ∀ dep ∈ last.dependsOn, x.results.lookup dep = some .success) :
    x.results.lookup first.id = some .success := by
  refine chain.inherit (motive := fun node => x.results.lookup node.id = some .success)
    (fun item edge => ready _ edge.2.2) ?_
  rintro one two ⟨-, member, needed⟩ succeeded
  have ended : x.phase newlyQueued two.id = .ended .success := phase_ended.mpr succeeded
  exact sound.started two member (by rw [ended]; simp) (by rw [ended]; simp) one.id needed

end Sound

end Execution

end PostJen.Server
