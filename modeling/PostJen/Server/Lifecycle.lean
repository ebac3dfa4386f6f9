import PostJen.Server.Execution
import PostJen.Server.Rules

/-! The life of a node run under the scheduler.

A regime says what holds of a row in each phase of its node and what the other
tasks may do to it meanwhile. Whatever the regime, `execute_run` moves the rows
of its nodes through the phases: it writes a row only to advance it, and it
queues a node only after reading success for every dependency.
-/

set_option autoImplicit false

open PostJen.Foundations PostJen.Core

namespace PostJen.Server

/-- The updates by which the scheduler moves a row from phase to phase. -/
inductive Advance : Phase → NodeChange → Phase → Prop where
  | assign (agentId : String) : Advance .fresh (.assign agentId) .assigned
  | skip (reason : String) : Advance .fresh (.skip reason) (.ended .skipped)
  | queue : Advance .assigned (.status .queued none none 0) .active
  | unmatched : Advance .fresh (.status .failed (some "no matching agent available") none 0)
      (.ended .failed)

structure Owner where
  runId : Nat
  nodeId : String

structure Regime (S : Type) where
  db : S → Db
  exec : (op : Op) → S → op.Reply → S → Prop
  others : S → S → Prop
  holds : Owner → Phase → S → Nat → Prop

namespace Regime

variable {S : Type}

structure Valid (R : Regime S) : Prop where
  refl : ∀ s, R.others s s
  trans : ∀ a b c, R.others a b → R.others b c → R.others a c
  grows : ∀ before after, R.others before after →
    (R.db before).nodeRuns.next ≤ (R.db after).nodeRuns.next
  serial : ∀ op before reply after, R.exec op before reply after →
    (R.db before).nodeRuns.next ≤ (R.db after).nodeRuns.next
  stable : ∀ owner phase id before after, R.others before after → R.holds owner phase before id →
    R.holds owner phase after id
  frame : ∀ owner phase id op before reply after, R.exec op before reply after →
    (∀ change, op ≠ .write (.updateNode id change)) → R.holds owner phase before id →
    R.holds owner phase after id
  loaded : ∀ path before (definition : ResolvedJobDefinition) after,
    R.exec (.load path) before (.ok definition) after →
    ∃ source : JobDefinition, source.resolve = .ok definition
  inserted : ∀ node before (id : Nat) after, R.exec (.write (.insertNode node)) before (.ok id) after →
    id = (R.db before).nodeRuns.next ∧ (R.db after).nodeRuns.next = id + 1 ∧
      R.holds ⟨node.jobRunId, node.nodeId⟩ .fresh after id
  advance : ∀ owner phase change next id before (result : Nat) after, Advance phase change next →
    R.exec (.write (.updateNode id change)) before (.ok result) after → R.holds owner phase before id →
    R.holds owner next after id
  read : ∀ owner id before (status : NodeStatus) after,
    R.exec (.select (.nodeStatus id)) before (.ok status) after →
    status.reported = true → R.holds owner .active before id → R.holds owner (.ended status) after id

/-- The rows of the nodes are where the loop's variables place them. -/
def Phased (R : Regime S) (x : Execution) (newlyQueued : List (String × Nat)) (s : S) : Prop :=
  ∀ node ∈ x.nodes, ∀ id, x.nodeIds.lookup node.id = some id →
    R.holds ⟨x.run.id, node.id⟩ (x.phase newlyQueued node.id) s id

def PhasedBut (R : Regime S) (x : Execution) (newlyQueued : List (String × Nat)) (key : String)
    (s : S) : Prop :=
  ∀ node ∈ x.nodes, node.id ≠ key → ∀ id, x.nodeIds.lookup node.id = some id →
    R.holds ⟨x.run.id, node.id⟩ (x.phase newlyQueued node.id) s id

structure Starts (R : Regime S) (x : Execution) (newlyQueued : List (String × Nat))
    (node : ResolvedNodeDefinition) (id : Nat) (s : S) : Prop where
  sound : x.Sound newlyQueued
  member : node ∈ x.nodes
  known : x.nodeIds.lookup node.id = some id
  fresh : x.phase newlyQueued node.id = .fresh
  ready : ∀ dep ∈ node.dependsOn, x.results.lookup dep = some .success
  going : x.stopScheduling = false ∧ x.canceling = false
  phased : R.PhasedBut x newlyQueued node.id s

/-- The scheduler updates a row only to advance it, and queues one only in the
pass that starts its node. -/
def promise (R : Regime S) (point : Point) (op : Op) (before _after : S) : Prop :=
  ∀ id change, op = .write (.updateNode id change) →
    ∃ owner phase next, Advance phase change next ∧ R.holds owner phase before id ∧
      (next = .active → ∃ x newlyQueued node todo, point = .pass x newlyQueued (node :: todo) ∧
        owner = ⟨x.run.id, node.id⟩ ∧ R.Starts x newlyQueued node id before)

def discipline (R : Regime S) (point : Point) : Discipline Sig S where
  exec := R.exec
  rely := R.others
  guarantee := R.promise point

variable {R : Regime S} {point : Point} {x : Execution} {newlyQueued : List (String × Nat)}
  {node : ResolvedNodeDefinition} {A : Type} {s : S}

theorem promise_quiet {op : Op} (quiet : Quiet op) (before after : S) :
    R.promise point op before after :=
  fun id change same => absurd same (quiet id change)

theorem kept_holds (valid : R.Valid) (owner : Owner) (phase : Phase) (id : Nat) :
    (R.discipline point).Kept Quiet fun s => R.holds owner phase s id where
  stable := fun before after moved => valid.stable owner phase id before after moved
  frame := fun op before reply after quiet ran =>
    valid.frame owner phase id op before reply after ran (quiet id)

theorem kept_phased (point : Point) (valid : R.Valid) :
    (R.discipline point).Kept Quiet (R.Phased x newlyQueued) :=
  .all fun _ => .all fun _ => .all fun _ => .all fun _ => kept_holds valid _ _ _

theorem kept_phasedBut (valid : R.Valid) {key : String} :
    (R.discipline point).Kept Quiet (R.PhasedBut x newlyQueued key) :=
  .all fun _ => .all fun _ => .all fun _ => .all fun _ => .all fun _ => kept_holds valid _ _ _

/-! ## Statements -/

section
variable {E : Type} [FromSql E] {assertion : S → Prop} {failed : E → S → Prop}

theorem holds_fetch (kept : (R.discipline point).Kept Quiet assertion) (now : assertion s)
    {query : Select} {post : query.Row → S → Prop} (next : ∀ row s, assertion s → post row s)
    (fails : ∀ why s, failed why s) :
    (fetch query).Holds (R.discipline point) post failed s := by
  have quiet : Quiet (.select query) := fun _ _ same => by cases same
  refine Proc.holds_quiet kept quiet (promise_quiet quiet) now fun reply s holds => ?_
  cases reply with
  | ok row => exact next row s holds
  | error why => exact fails _ s

theorem holds_run (kept : (R.discipline point).Kept Quiet assertion) (now : assertion s)
    {write : Write} (quiet : Quiet (.write write)) {post : Unit → S → Prop}
    (next : ∀ s, assertion s → post () s) (fails : ∀ why s, failed why s) :
    (run write).Holds (R.discipline point) post failed s := by
  refine (Proc.holds_bind _ _ _).mpr ?_
  refine Proc.holds_quiet kept quiet (promise_quiet quiet) now fun reply s holds => ?_
  cases reply with
  | ok result => exact next s holds
  | error why => exact fails _ s

theorem holds_update {id : Nat} {change : NodeChange} (valid : R.Valid) {rest : S → Prop}
    {owner : Owner} {phase next : Phase} (advance : Advance phase change next)
    (stable : (R.discipline point).Stable rest)
    (frame : ∀ before reply after, R.exec (.write (.updateNode id change)) before reply after →
      rest before → rest after)
    (here : R.holds owner phase s id) (there : rest s)
    (starts : ∀ s, rest s → next = .active → ∃ x newlyQueued node todo,
      point = .pass x newlyQueued (node :: todo) ∧ owner = ⟨x.run.id, node.id⟩ ∧
        R.Starts x newlyQueued node id s)
    {post : Unit → S → Prop} (done : ∀ s, R.holds owner next s id → rest s → post () s)
    (fails : ∀ why s, failed why s) :
    (run (.updateNode id change)).Holds (R.discipline point) post failed s := by
  refine (Proc.holds_bind _ _ _).mpr ?_
  intro before moved reply after ran
  have here := valid.stable owner phase id s before moved here
  have there := stable s before moved there
  refine ⟨?_, ?_⟩
  · intro other change' same
    cases same
    exact ⟨owner, phase, next, advance, here, starts before there⟩
  · cases reply with
    | ok result =>
      exact done after (valid.advance owner phase change next id before result after advance ran here)
        (frame before _ after ran there)
    | error why => exact fails _ after

end

/-! ## One node of a pass -/

theorem phased_but (phased : R.Phased x newlyQueued s) (key : String) :
    R.PhasedBut x newlyQueued key s :=
  fun node member _ => phased node member

theorem frame_phasedBut (valid : R.Valid) (sound : x.Sound newlyQueued) {key : String} {id : Nat}
    (known : x.nodeIds.lookup key = some id) {change : NodeChange} {before after : S}
    {reply : (Op.write (.updateNode id change)).Reply}
    (ran : R.exec (.write (.updateNode id change)) before reply after)
    (phased : R.PhasedBut x newlyQueued key before) : R.PhasedBut x newlyQueued key after := by
  intro other member ne otherId found
  refine valid.frame _ _ _ _ before reply after ran ?_ (phased other member ne otherId found)
  rintro change' same
  cases same
  exact ne (sound.injective _ _ id found known)

theorem phased_record (phased : R.PhasedBut x newlyQueued node.id s) {id : Nat}
    (known : x.nodeIds.lookup node.id = some id) {status : NodeStatus}
    (ended : R.holds ⟨x.run.id, node.id⟩ (.ended status) s id) :
    R.Phased (x.record node.id status) newlyQueued s := by
  intro other member otherId found
  rw [Execution.phase_record]
  by_cases same : other.id = node.id
  · rw [if_pos same]
    have equal : some otherId = some id := by rw [← found, ← known, ← same]; rfl
    cases equal
    rw [same]
    exact ended
  · rw [if_neg same]
    exact phased other member same otherId found

theorem phased_queue (phased : R.PhasedBut x newlyQueued node.id s) {id : Nat}
    (known : x.nodeIds.lookup node.id = some id) (unsettled : x.results.lookup node.id = none)
    (active : R.holds ⟨x.run.id, node.id⟩ .active s id) : R.Phased x (newlyQueued ++ [(node.id, id)]) s := by
  intro other member otherId found
  rw [Execution.phase_queue x newlyQueued node.id other.id id unsettled]
  by_cases same : other.id = node.id
  · rw [if_pos same]
    rw [same, known] at found
    cases found
    rw [same]
    exact active
  · rw [if_neg same]
    exact phased other member same otherId found

theorem holds_nodeRunId {key : String} {id : Nat} (known : x.nodeIds.lookup key = some id)
    {next : Nat → Proc Sig AnyError A} {post : A → S → Prop} {failed : AnyError → S → Prop}
    (holds : (next id).Holds (R.discipline point) post failed s) :
    (x.nodeRunId key >>= next).Holds (R.discipline point) post failed s := by
  unfold Execution.nodeRunId
  rw [known]
  exact holds

theorem holds_markNodeSkipped (valid : R.Valid) (sound : x.Sound newlyQueued) (member : node ∈ x.nodes)
    (fresh : x.phase newlyQueued node.id = .fresh) (reason : String)
    (phased : R.Phased x newlyQueued s) :
    (x.markNodeSkipped node reason).Holds (R.discipline point)
      (fun skipped s => skipped = x.record node.id .skipped ∧ R.Phased skipped newlyQueued s)
      (fun _ _ => True) s := by
  obtain ⟨id, known⟩ := sound.numbered node member
  have here := phased node member id known
  rw [fresh] at here
  refine holds_nodeRunId known ((Proc.holds_bind _ _ _).mpr ?_)
  refine holds_update valid (.skip reason) (kept_phasedBut valid).stable
    (fun _ _ _ ran => frame_phasedBut valid sound known ran) here (phased_but phased node.id)
    (fun _ _ active => by cases active) (fun s ended others => ?_) fun _ _ => trivial
  refine (Proc.holds_bind _ _ _).mpr ?_
  exact holds_run (kept_phased _ valid) (phased_record others known ended) (quiet_event _)
    (fun s phased => ⟨rfl, phased⟩) fun _ _ => trivial

theorem holds_assignToAgent (ext : External) (valid : R.Valid) (sound : x.Sound newlyQueued) {id : Nat}
    (known : x.nodeIds.lookup node.id = some id) (here : R.holds ⟨x.run.id, node.id⟩ .fresh s id)
    (phased : R.PhasedBut x newlyQueued node.id s) :
    (assignToAgent ext id node).Holds (R.discipline point)
      (fun assigned s => R.PhasedBut x newlyQueued node.id s ∧
        R.holds ⟨x.run.id, node.id⟩ (if assigned then .assigned else .fresh) s id) (fun _ _ => True) s := by
  have assign : ∀ agentId s, R.holds ⟨x.run.id, node.id⟩ .fresh s id → R.PhasedBut x newlyQueued node.id s →
      (do run (.updateNode id (.assign agentId)); return true : Proc Sig AnyError Bool).Holds
        (R.discipline point) (fun assigned s => R.PhasedBut x newlyQueued node.id s ∧
          R.holds ⟨x.run.id, node.id⟩ (if assigned then .assigned else .fresh) s id) (fun _ _ => True) s := by
    intro agentId s here phased
    refine (Proc.holds_bind _ _ _).mpr ?_
    exact holds_update valid (.assign agentId) (kept_phasedBut valid).stable
      (fun _ _ _ ran => frame_phasedBut valid sound known ran) here phased
      (fun _ _ active => by cases active) (fun s assigned others => ⟨others, assigned⟩) fun _ _ => trivial
  unfold assignToAgent
  cases node.target with
  | none => exact assign _ s here phased
  | some target =>
    refine (Proc.holds_bind _ _ _).mpr ?_
    refine holds_fetch ((kept_holds valid _ .fresh id).and (kept_phasedBut valid)) ⟨here, phased⟩
      (fun agents s both => ?_) fun _ _ => trivial
    split
    · exact assign _ s both.1 both.2
    · exact ⟨both.2, both.1⟩

theorem holds_startNode (ext : External) (valid : R.Valid) {todo : List ResolvedNodeDefinition}
    (sound : x.Sound newlyQueued) (member : node ∈ x.nodes)
    (fresh : x.phase newlyQueued node.id = .fresh)
    (ready : ∀ dep ∈ node.dependsOn, x.results.lookup dep = some .success)
    (going : x.stopScheduling = false ∧ x.canceling = false) (phased : R.Phased x newlyQueued s) :
    (x.startNode ext newlyQueued node).Holds (R.discipline (.pass x newlyQueued (node :: todo)))
      (fun result s => (result.1.Sound result.2 ∧ R.Phased result.1 result.2 s) ∧
        ((∃ id, result = (x, newlyQueued ++ [(node.id, id)])) ∨
          result = ({ x.record node.id .failed with stopScheduling := true }, newlyQueued)))
      (fun _ _ => True) s := by
  obtain ⟨id, known⟩ := sound.numbered node member
  obtain ⟨unsettled, _, _⟩ := Execution.phase_eq_fresh fresh
  have here := phased node member id known
  rw [fresh] at here
  refine holds_nodeRunId known ((Proc.holds_bind _ _ _).mpr ?_)
  refine (holds_assignToAgent ext valid sound known here (phased_but phased node.id)).mono ?_
    fun _ _ _ => trivial
  rintro assigned s ⟨others, here⟩
  cases assigned with
  | true =>
    refine (Proc.holds_bind _ _ _).mpr ((Proc.holds_bind _ _ _).mpr ?_)
    refine holds_update valid .queue (kept_phasedBut valid).stable
      (fun _ _ _ ran => frame_phasedBut valid sound known ran) here others
      (fun s others _ => ⟨x, newlyQueued, node, todo, rfl, rfl,
        ⟨sound, member, known, fresh, ready, going, others⟩⟩) (fun s active others => ?_) fun _ _ => trivial
    exact holds_run (kept_phased _ valid) (phased_queue others known unsettled active) (quiet_event _)
      (fun s phased => ⟨⟨sound.queue fresh ready member known, phased⟩, .inl ⟨id, rfl⟩⟩) fun _ _ => trivial
  | false =>
    refine (Proc.holds_bind _ _ _).mpr ((Proc.holds_bind _ _ _).mpr ?_)
    refine holds_update valid .unmatched (kept_phasedBut valid).stable
      (fun _ _ _ ran => frame_phasedBut valid sound known ran) here others
      (fun _ _ active => by cases active) (fun s ended others => ?_) fun _ _ => trivial
    have recorded : (x.record node.id .failed).Sound newlyQueued :=
      sound.record fresh rfl (fun _ => ready) member
    exact holds_run (kept_phased _ valid) (phased_record others known ended) (quiet_event _)
      (fun s phased => ⟨⟨recorded.flags true _, phased⟩, .inr rfl⟩) fun _ _ => trivial

/-! ## A pass -/

structure Passing (R : Regime S) (x : Execution) (newlyQueued : List (String × Nat))
    (todo : List ResolvedNodeDefinition) (s : S) : Prop where
  sound : x.Sound newlyQueued
  phased : R.Phased x newlyQueued s
  visited : ∃ front, x.nodes = front ++ todo ∧ x.Visited newlyQueued front ∧
    ∀ entry ∈ newlyQueued, entry.1 ∈ front.map (·.id)

theorem holds_scheduleNode (ext : External) (valid : R.Valid) {todo : List ResolvedNodeDefinition}
    (passing : R.Passing x newlyQueued (node :: todo) s) :
    (x.scheduleNode ext newlyQueued node).Holds (R.discipline (.pass x newlyQueued (node :: todo)))
      (fun result s => R.Passing result.1 result.2 todo s) (fun _ _ => True) s := by
  obtain ⟨sound, phased, front, split, visited, inFront⟩ := passing
  have member : node ∈ x.nodes := by rw [split]; simp
  have moved : x.nodes = (front ++ [node]) ++ todo := by rw [split]; simp
  have still : ∀ entry ∈ newlyQueued, entry.1 ∈ (front ++ [node]).map (·.id) := by
    intro entry queued
    rw [List.map_append]
    exact List.mem_append_left _ (inFront entry queued)
  have unqueued : node.id ∉ newlyQueued.map Prod.fst := by
    intro queued
    obtain ⟨entry, inside, same⟩ := List.mem_map.mp queued
    exact sound.order.key_notin_front split (same ▸ inFront entry inside)
  have unchanged : (x.phase newlyQueued node.id ≠ .fresh ∨
      ∃ dep ∈ node.dependsOn, x.results.lookup dep = none) → R.Passing x newlyQueued todo s :=
    fun placed => ⟨sound, phased, front ++ [node], moved, Execution.Sound.visited_same visited placed, still⟩
  -- three of the branches skip the node
  have skip : ∀ reason, x.phase newlyQueued node.id = .fresh →
      (x.markNodeSkipped node reason >>= fun x => pure (x, newlyQueued)).Holds
        (R.discipline (.pass x newlyQueued (node :: todo)))
        (fun result s => R.Passing result.1 result.2 todo s) (fun _ _ => True) s := by
    intro reason fresh
    refine (Proc.holds_bind _ _ _).mpr
      ((holds_markNodeSkipped valid sound member fresh reason phased).mono ?_ fun _ _ _ => trivial)
    rintro _ s ⟨rfl, phased⟩
    exact ⟨sound.record fresh rfl (fun ne => absurd rfl ne) member, phased, front ++ [node], moved,
      sound.visited_record split visited _, still⟩
  unfold Execution.scheduleNode
  split
  · -- already settled or running
    rename_i placed
    refine unchanged (.inl fun fresh => ?_)
    obtain ⟨unsettled, idle, _⟩ := Execution.phase_eq_fresh fresh
    simp [unsettled, idle] at placed
  · rename_i unplaced
    simp only [Bool.or_eq_true, not_or, Option.not_isSome_iff_eq_none] at unplaced
    have fresh := Execution.phase_fresh unplaced.1 unplaced.2 unqueued
    split
    -- a dependency ended without success
    · exact skip _ fresh
    · rename_i free
      split
      -- a dependency has not ended, so the node is left for a later pass
      · rename_i waits
        exact unchanged (.inr (Execution.waitsOn_iff.mp waits))
      · rename_i waits
        have ready := Execution.ready free waits
        split
        -- scheduling has stopped
        · exact skip _ fresh
        · rename_i going
          split
          -- the run is being canceled
          · exact skip _ fresh
          · rename_i canceling
            refine (holds_startNode ext valid sound member fresh ready ⟨by simpa using going, by
              simpa using canceling⟩ phased).mono ?_ fun _ _ _ => trivial
            rintro result s ⟨⟨sound', phased'⟩, ⟨id, rfl⟩ | rfl⟩
            · refine ⟨sound', phased', front ++ [node], moved,
                Execution.Sound.visited_queue visited unplaced.1 id, ?_⟩
              intro entry queued
              rcases List.mem_append.mp queued with old | new
              · exact still entry old
              · rw [List.mem_singleton.mp new]
                simp
            · exact ⟨sound', phased', front ++ [node], moved,
                sound.visited_record split visited _, still⟩

/-! ## The preparation of a run -/

/-- The rows inserted so far are fresh and numbered apart. -/
structure Prepared (R : Regime S) (runId : Nat) (nodeIds : StringMap Nat) (s : S) : Prop where
  injective : ∀ key other id, nodeIds.lookup key = some id → nodeIds.lookup other = some id → key = other
  old : ∀ key id, nodeIds.lookup key = some id → id < (R.db s).nodeRuns.next
  fresh : ∀ key id, nodeIds.lookup key = some id → R.holds ⟨runId, key⟩ .fresh s id

theorem kept_prepared (point : Point) (valid : R.Valid) (runId : Nat) (nodeIds : StringMap Nat) :
    (R.discipline point).Kept Quiet (R.Prepared runId nodeIds) where
  stable := fun before after moved prepared =>
    ⟨prepared.injective,
      fun key id known => (prepared.old key id known).trans_le (valid.grows before after moved),
      fun key id known => valid.stable _ _ _ before after moved (prepared.fresh key id known)⟩
  frame := fun op before reply after quiet ran prepared =>
    ⟨prepared.injective,
      fun key id known => (prepared.old key id known).trans_le (valid.serial op before reply after ran),
      fun key id known =>
        valid.frame _ _ _ op before reply after ran (quiet id) (prepared.fresh key id known)⟩

theorem Prepared.insert {runId : Nat} {nodeIds : StringMap Nat} (prepared : R.Prepared runId nodeIds s)
    {id : Nat} (next : (R.db s).nodeRuns.next = id + 1)
    (later : ∀ key old, nodeIds.lookup key = some old → old < id) {key : String}
    (fresh : R.holds ⟨runId, key⟩ .fresh s id) : R.Prepared runId (nodeIds.insert key id) s := by
  refine ⟨?_, ?_, ?_⟩
  · intro one two same found found'
    rw [lookup_insert_ite] at found found'
    split at found <;> split at found'
    · rename_i left right
      rw [left, right]
    · cases found
      exact absurd (later two _ found') (Nat.lt_irrefl _)
    · cases found'
      exact absurd (later one _ found) (Nat.lt_irrefl _)
    · exact prepared.injective one two same found found'
  · intro other old found
    rw [lookup_insert_ite] at found
    split at found
    · cases found
      omega
    · have := later other old found
      omega
  · intro other old found
    rw [lookup_insert_ite] at found
    split at found
    · rename_i same
      cases found
      rw [same]
      exact fresh
    · exact prepared.fresh other old found

theorem holds_ensureNodes (ext : External) (valid : R.Valid) (runId : Nat)
    (nodes : List ResolvedNodeDefinition) (nodeIds : StringMap Nat) (prepared : R.Prepared runId nodeIds s) :
    (ensureNodes ext runId nodes nodeIds).Holds (R.discipline point)
      (fun all s => R.Prepared runId all s ∧
        ∀ key, key ∈ nodes.map (·.id) ∨ (∃ id, nodeIds.lookup key = some id) →
          ∃ id, all.lookup key = some id) (fun _ _ => True) s := by
  induction nodes generalizing nodeIds s with
  | nil => exact ⟨prepared, by simp⟩
  | cons node rest ih =>
    unfold ensureNodes
    split
    · trivial
    · intro before moved reply after ran
      have quiet : Quiet (.write (.insertNode (newNodeRun ext runId node))) :=
        fun _ _ same => by cases same
      have prepared := (kept_prepared point valid runId nodeIds).stable _ _ moved prepared
      refine ⟨promise_quiet quiet before after, ?_⟩
      cases reply with
      | error why => trivial
      | ok id =>
        obtain ⟨isNext, next, fresh⟩ := valid.inserted _ before id after ran
        have later : ∀ key old, nodeIds.lookup key = some old → old < id := by
          intro key old found
          rw [isNext]
          exact prepared.old key old found
        have inserted := ((kept_prepared point valid runId nodeIds).frame _ _ _ _ quiet ran
          prepared).insert next later fresh
        refine (ih (nodeIds.insert node.id id) inserted).mono ?_ fun _ _ _ => trivial
        rintro all s ⟨prepared, covers⟩
        refine ⟨prepared, fun key listed => covers key ?_⟩
        rw [lookup_insert_ite]
        by_cases same : key = node.id
        · exact .inr ⟨id, if_pos same⟩
        · rw [if_neg same]
          rcases listed with listed | known
          · rw [List.map_cons, List.mem_cons] at listed
            exact .inl (listed.resolve_left same)
          · exact .inr known

theorem dependencies_withParams (ext : External) (paramsJson : Option String)
    (nodes : List ResolvedNodeDefinition) :
    dependencies (withParams ext paramsJson nodes) = dependencies nodes := by
  unfold withParams dependencies
  cases paramsJson with
  | none => rfl
  | some json =>
    rw [List.map_map]
    rfl

theorem holds_loadForRun (valid : R.Valid) (queued : QueuedRun) :
    (loadForRun queued).Holds (R.discipline point) (fun definition _ => Accepted definition.nodes)
      (fun _ _ => True) s := by
  intro before moved reply after ran
  refine ⟨promise_quiet (fun _ _ same => by cases same) before after, ?_⟩
  cases reply with
  | error why => trivial
  | ok definition =>
    obtain ⟨source, accepted⟩ := valid.loaded _ before definition after ran
    dsimp only
    split
    · trivial
    · exact ⟨source, definition, accepted, rfl⟩

/-- The loop has not visited any node yet, or has just waited. -/
structure Looping (R : Regime S) (x : Execution) (s : S) : Prop where
  sound : x.Sound []
  phased : R.Phased x [] s

theorem kept_looping (point : Point) (valid : R.Valid) : (R.discipline point).Kept Quiet (R.Looping x) where
  stable := fun before after moved looping =>
    ⟨looping.sound, (kept_phased point valid).stable before after moved looping.phased⟩
  frame := fun op before reply after quiet ran looping =>
    ⟨looping.sound, (kept_phased point valid).frame op before reply after quiet ran looping.phased⟩

theorem holds_transitionJob {assertion : S → Prop} (kept : (R.discipline point).Kept Quiet assertion) (now : assertion s)
    {runId : Nat} {fromStatus toStatus : JobStatus} {message : Option String} :
    (transitionJob runId fromStatus toStatus message).Holds (R.discipline point)
      (fun _ => assertion) (fun _ _ => True) s := by
  refine (Proc.holds_bind _ _ _).mpr ?_
  exact holds_run kept now (quiet_updateJob _ _)
    (fun s holds => holds_run kept holds (quiet_event _) (fun _ holds => holds) fun _ _ => trivial)
    fun _ _ => trivial

theorem holds_prepareRun (ext : External) (settings : Settings) (valid : R.Valid) (queued : QueuedRun) :
    (prepareRun ext settings queued).Holds (R.discipline point) (fun x s => R.Looping x s)
      (fun _ _ => True) s := by
  refine (Proc.holds_bind _ _ _).mpr ((holds_loadForRun valid queued).mono ?_ fun _ _ _ => trivial)
  intro definition s accepted
  refine (Proc.holds_bind _ _ _).mpr (holds_fetch (.const True) trivial (fun paramsJson s _ => ?_)
    fun _ _ => trivial)
  refine (Proc.holds_bind _ _ _).mpr ?_
  have within := within_withSecrets (fun _ => quiet_read rfl) ext settings
    (withParams ext paramsJson definition.nodes)
  have stable : (R.discipline point).Stable fun _ => True := fun _ _ _ _ => trivial
  refine (within.holds stable (fun op before reply after quiet _ _ =>
    ⟨promise_quiet quiet before after, trivial⟩) trivial).mono ?_ fun _ _ _ => trivial
  rintro nodes s ⟨same, -⟩
  rw [dependencies_withParams] at same
  have accepted := accepted.congr same
  refine (Proc.holds_bind _ _ _).mpr ?_
  refine (holds_ensureNodes ext valid queued.id nodes ∅ ⟨by simp, by simp, by simp⟩).mono ?_
    fun _ _ _ => trivial
  rintro nodeIds s ⟨prepared, covers⟩
  have sound : Execution.Sound ⟨queued, nodes, nodeIds, ∅, ∅, false, false⟩ [] :=
    .start accepted (fun node member => covers node.id (.inl (List.mem_map_of_mem member))) prepared.injective
  have phased : R.Phased ⟨queued, nodes, nodeIds, ∅, ∅, false, false⟩ [] s := by
    intro node _ id known
    exact prepared.fresh node.id id known
  refine (Proc.holds_bind _ _ _).mpr ?_
  exact holds_transitionJob (kept_looping _ valid) ⟨sound, phased⟩

/-! ## Waiting -/

theorem phased_complete {key : String} {outcome : NodeExecutionOutcome}
    (phased : R.PhasedBut x [] key s)
    (ended : ∀ id, x.nodeIds.lookup key = some id → R.holds ⟨x.run.id, key⟩ (.ended outcome.status) s id) :
    R.Phased (x.complete key outcome) [] s := by
  intro node member id found
  rw [Execution.phase_complete]
  by_cases same : node.id = key
  · rw [if_pos same, same]
    exact ended id (by rw [← same]; exact found)
  · rw [if_neg same]
    exact phased node member same id found

theorem holds_pollNode (valid : R.Valid) (key : String) {id : Nat} (looping : R.Looping x s)
    (active : R.holds ⟨x.run.id, key⟩ .active s id) :
    (Execution.pollNode id).Holds (R.discipline point)
      (fun outcome s => match outcome with
        | none => R.Looping x s
        | some outcome => outcome.status.reported = true ∧ R.PhasedBut x [] key s ∧
            R.holds ⟨x.run.id, key⟩ (.ended outcome.status) s id) (fun _ _ => True) s := by
  refine (Proc.holds_bind _ _ _).mpr ?_
  intro before moved reply after ran
  have quiet : Quiet (.select (.nodeStatus id)) := quiet_read rfl
  have looping := (kept_looping point valid).stable _ _ moved looping
  have active := valid.stable _ _ _ _ _ moved active
  have later := (kept_looping point valid).frame _ _ _ _ quiet ran looping
  refine ⟨promise_quiet quiet before after, ?_⟩
  cases reply with
  | error why => trivial
  | ok status =>
    have read := fun reported => valid.read _ id before status after ran reported active
    cases status with
    | success => exact ⟨rfl, phased_but later.phased key, read rfl⟩
    | failed =>
      refine (Proc.holds_bind _ _ _).mpr ?_
      exact holds_fetch ((kept_phasedBut valid).and (kept_holds valid _ _ id))
        ⟨phased_but later.phased key, read rfl⟩ (fun reason s both => ⟨rfl, both⟩) fun _ _ => trivial
    | timedOut => exact ⟨rfl, phased_but later.phased key, read rfl⟩
    | canceled => exact ⟨rfl, phased_but later.phased key, read rfl⟩
    | _ => exact later

/-! ## Control points -/

/-- What holds of the scheduler at its control points. -/
def assertion (R : Regime S) : Point → S → Prop
  | .idle, _ | .schedulerTick, _ | .executeRun _, _ => True
  | .scheduling x, s | .waiting x, s | .polling x _, s => R.Looping x s
  | .pass x newlyQueued todo, s => R.Passing x newlyQueued todo s
  | .finalizing x, s =>
      R.Looping x s ∧ ∀ node ∈ x.nodes, ∃ status, x.results.lookup node.id = some status
  | _, _ => False

theorem stable_assertion (point : Point) (valid : R.Valid) (here : Point) :
    (R.discipline point).Stable (R.assertion here) := by
  intro before after moved holds
  have looping : ∀ x, R.Looping x before → R.Looping x after :=
    fun x => (kept_looping point valid).stable before after moved
  cases here with
  | scheduling x => exact looping x holds
  | waiting x => exact looping x holds
  | polling x todo => exact looping x holds
  | pass x newlyQueued todo =>
    exact ⟨holds.sound, (kept_phased point valid).stable before after moved holds.phased,
      holds.visited⟩
  | finalizing x => exact ⟨looping x holds.1, holds.2⟩
  | _ => exact holds

theorem holds_recover {runId : Nat} {body : Proc Sig AnyError Point}
    (holds : body.Holds (R.discipline point) R.assertion (fun _ _ => True) s) :
    (recover runId body).Holds (R.discipline point) R.assertion (fun why _ => why.elim) s := by
  refine (Proc.holds_bind _ _ _).mpr ((Proc.holds_attempt _ _).mpr (holds.mono ?_ ?_))
  · exact fun next s there => there
  · intro why s _
    refine (Proc.holds_bind _ _ _).mpr ((Proc.holds_attempt _ _).mpr ?_)
    refine (Proc.holds_bind _ _ _).mpr (holds_run (.const True) trivial (quiet_updateJob _ _)
      (fun s _ => ?_) fun _ _ => trivial)
    exact holds_run (.const True) trivial (quiet_event _) (fun _ _ => trivial) fun _ _ => trivial

theorem holds_block (ext : External) (settings : Settings) (valid : R.Valid) (point : Point) (s : S)
    (here : R.assertion point s) :
    (block ext settings point).Holds (R.discipline point) R.assertion (fun why _ => why.elim) s := by
  cases point with
  | idle => trivial
  | schedulerTick =>
    refine (Proc.holds_bind _ _ _).mpr ((Proc.holds_attempt _ _).mpr ?_)
    refine (Proc.holds_bind _ _ _).mpr (holds_fetch (.const True) trivial (fun queued s _ => ?_)
      fun _ _ => trivial)
    cases queued <;> trivial
  | executeRun queued =>
    exact holds_recover ((Proc.holds_bind _ _ _).mpr (holds_prepareRun ext settings valid queued))
  | scheduling x =>
    refine holds_recover ((Proc.holds_bind _ _ _).mpr ((Proc.holds_bind _ _ _).mpr
      ((Proc.holds_bind _ _ _).mpr ?_)))
    refine holds_fetch (kept_looping _ valid) here (fun status s looping => ?_) fun _ _ => trivial
    exact ⟨looping.sound.flags _ _, looping.phased, [], rfl, by simp [Execution.Visited], by simp⟩
  | pass x newlyQueued todo =>
    cases todo with
    | nil =>
      obtain ⟨sound, phased, front, split, visited, -⟩ := here
      -- after the pass the queued nodes join the running ones
      have looping : R.Looping (x.launch newlyQueued) s := by
        refine ⟨sound.launch, fun node member id known => ?_⟩
        rw [Execution.phase_launch]
        exact phased node member id known
      unfold block
      dsimp only
      split
      · rename_i empty
        refine ⟨looping, looping.sound.settled ?_ fun key => ?_⟩
        · intro node member
          rw [Execution.phase_launch]
          exact visited node (by rw [← List.append_nil front, ← split]; exact member)
        · rw [AList.lookup_eq_none, AList.mem_keys, AList.keys, empty]
          simp
      · exact looping
    | cons node todo =>
      exact holds_recover ((Proc.holds_bind _ _ _).mpr (holds_scheduleNode ext valid here))
  | waiting x =>
    have quiet : Quiet (.order x.runningNodes.keys) := quiet_read rfl
    exact Proc.holds_quiet (kept_looping _ valid) quiet (promise_quiet quiet) here
      fun _ _ looping => looping
  | polling x todo =>
    cases todo with
    | nil =>
      refine holds_recover ((Proc.holds_bind _ _ _).mpr ((Proc.holds_bind _ _ _).mpr ?_))
      refine holds_fetch (kept_looping _ valid) here (fun status s looping => ?_) fun _ _ => trivial
      -- no node has ended; a cancellation completes the sentinel, which is no node's id
      have sentinel : "" ∉ x.nodes.map (·.id) := by
        intro listed
        obtain ⟨node, member, empty⟩ := List.mem_map.mp listed
        exact looping.sound.accepted.named node member empty
      generalize decide (status = JobStatus.cancelRequested) = canceled
      cases canceled with
      | true =>
        refine ⟨looping.sound.complete rfl (.inr sentinel), ?_⟩
        intro node member id known
        rw [Execution.phase_complete, if_neg (looping.sound.accepted.named node member)]
        exact looping.phased node member id known
      | false => exact looping
    | cons key todo =>
      refine holds_recover ?_
      unfold pollPoint
      cases found : x.runningNodes.lookup key with
      | none => exact here
      | some id =>
        -- a running node is active, and its row has ended when the wait completes it
        obtain ⟨known, listed, unsettled⟩ := here.sound.running key id found
        obtain ⟨node, member, rfl⟩ := List.mem_map.mp listed
        have active := here.phased node member id known
        rw [Execution.phase_active unsettled (.inl (by rw [found]; rfl))] at active
        refine (Proc.holds_bind _ _ _).mpr ((holds_pollNode valid node.id here active).mono ?_
          fun _ _ _ => trivial)
        intro outcome s
        cases outcome with
        | none => exact fun looping => looping
        | some outcome =>
          rintro ⟨reported, phased, ended⟩
          refine ⟨here.sound.complete (NodeStatus.terminal_of_reported reported) (.inl ⟨id, found⟩),
            phased_complete phased fun other known' => ?_⟩
          rw [known] at known'
          cases known'
          exact ended
  | finalizing x =>
    refine holds_recover ((Proc.holds_bind _ _ _).mpr ((Proc.holds_bind _ _ _).mpr ?_))
    refine holds_fetch (.const True) trivial (fun status s _ => ?_) fun _ _ => trivial
    exact holds_transitionJob (.const True) trivial
  | _ => exact here.elim

/-! ## Regimes over the whole server -/

section
variable {ext : External} {settings : Settings} {start : Config} {admits : Config → Label → Prop}
  {view : List Label → Config → S}

/-- The server is run by the scheduler and by others, who respect the regime. -/
structure Governs (R : Regime S) (ext : External) (settings : Settings) (start : Config)
    (admits : Config → Label → Prop) (view : List Label → Config → S) : Prop where
  valid : R.Valid
  idle : ∀ slot, start.threads slot = enter ext settings .idle
  scheduler : ∀ history c choice after (op : Op) (reply : op.Reply),
    (system ext settings).Path admits start history c → admits c (.exec .scheduler choice) →
    Server.step ext settings c (.exec .scheduler choice) = some after →
    c.pending .scheduler = some op → op.run ext choice c.state = some (reply, after.state) →
    R.exec op (view history c) reply (view (.exec .scheduler choice :: history) after)
  others : ∀ history c label after, (system ext settings).Path admits start history c → admits c label →
    Server.step ext settings c label = some after → (∀ choice, label ≠ .exec .scheduler choice) →
    R.others (view history c) (view (label :: history) after)

def outline (R : Regime S) (view : List Label → Config → S) : Outline ext settings start admits S where
  view := view
  exec slot _ op before reply after :=
    if slot = .scheduler then R.exec op before reply after else R.others before after
  rely slot before after := slot = .scheduler → R.others before after
  guarantee slot point op before after :=
    if slot = .scheduler then R.promise point op before after else R.others before after
  assertion slot point s := slot = .scheduler → R.assertion point s

theorem Governs.outlined (governs : R.Governs ext settings start admits view) :
    (R.outline view : Outline ext settings start admits S).Valid where
  refl := fun slot s _ => governs.valid.refl s
  trans := fun slot a b c first second isScheduler =>
    governs.valid.trans a b c (first isScheduler) (second isScheduler)
  stable := by
    rintro slot point before after moved holds rfl
    exact stable_assertion .idle governs.valid point before after (moved rfl) (holds rfl)
  blocks := by
    intro slot point s holds
    -- only the scheduler's block is followed; every other one may do what it likes
    by_cases isScheduler : slot = .scheduler
    · subst isScheduler
      simpa [Outline.discipline, outline, Regime.discipline] using
        holds_block ext settings governs.valid point s (holds rfl)
    · refine Proc.holds_trivial _ s (fun op before reply after ran => ?_)
        (fun _ _ equal => absurd equal isScheduler) fun why _ => why.elim
      simpa only [Outline.discipline, outline, if_neg isScheduler] using ran
  runs := by
    intro history c slot choice after op rest reply run admitted moved next ran
    by_cases isScheduler : slot = .scheduler
    · subst isScheduler
      simpa [outline] using governs.scheduler history c choice after op reply run admitted moved
        (pending_eq_some.mpr ⟨rest, next⟩) ran
    · simp only [outline, if_neg isScheduler]
      refine governs.others history c _ after run admitted moved fun other same => ?_
      cases same
      exact isScheduler rfl
  suffers := by
    rintro slot other point op before after ne guarantee rfl
    simpa only [outline, if_neg ne.symm] using guarantee
  quiet := by
    rintro history c label after run admitted moved quiet slot -
    refine governs.others history c label after run admitted moved fun choice same => ?_
    subst same
    cases quiet
  boot := by
    rintro history c hostname after - - - - slot rfl
    trivial
  idle := fun slot s _ => trivial
  received := fun n request s same => by cases same
  spawned := fun n task s _ => ⟨by rintro ⟨⟩, by rintro ⟨⟩⟩

theorem Governs.at_point (governs : R.Governs ext settings start admits view) {history : List Label}
    {c : Config} (run : (system ext settings).Path admits start history c) {point : Point}
    (ended : (c.threads .scheduler).code = .done point) : R.assertion point (view history c) :=
  ((governs.outlined.sound governs.idle run) .scheduler).at_point ended rfl

theorem Governs.promised (governs : R.Governs ext settings start admits view) {history : List Label}
    {c after : Config} (run : (system ext settings).Path admits start history c) {choice : Choice}
    {op : Op} (admitted : admits c (.exec .scheduler choice))
    (moved : Server.step ext settings c (.exec .scheduler choice) = some after)
    (next : c.pending .scheduler = some op) :
    R.promise (c.threads .scheduler).point op (view history c)
      (view (.exec .scheduler choice :: history) after) := by
  obtain ⟨op', rest, reply, code, next', ran, -⟩ := step_exec moved
  cases next.symm.trans next'
  have holds := governs.outlined.sound governs.idle run
  have promised := (governs.outlined.guaranteed holds run admitted moved code ran).1
  simpa [outline] using promised

end

end Regime

end PostJen.Server
