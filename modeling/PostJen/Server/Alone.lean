import PostJen.Server.Driving

/-! The scheduler when nobody else moves.

Executed alone, its blocks are functions of the state. A loop that begins with
a cancellation skips every node that it can decide and ends the run.
-/

set_option autoImplicit false

open PostJen.Foundations PostJen.Core

namespace PostJen.Server

/-- An operation that succeeds, with the first answer of a query. -/
def Op.alone (ext : External) (op : Op) (s : State) : Option (op.Reply × State) := op.run ext (.answer 0) s

variable {ext : External} {settings : Settings}

/-! ## Schedules -/

section
variable {admits : Config → Label → Prop} {c : Config} {point : Point} {s : State}

def Unhindered (admits : Config → Label → Prop) : Prop :=
  ∀ c : Config, c.Placed → admits c (.exec .scheduler (.answer 0)) ∧ admits c (.resume .scheduler)

theorem solo_reaches (free : Unhindered admits) (placed : c.Placed) {program : Proc Sig Empty Point}
    (code : (c.threads .scheduler).code = program) (ended : program.solo (Op.alone ext) c.state = some (point, s)) :
    ∃ later, (system ext settings).Reaches admits c later ∧ later.Placed ∧ later.state = s ∧
      (later.threads .scheduler).code = .done point := by
  induction program generalizing c with
  | done other =>
    cases ended
    exact ⟨c, .refl c, placed, rfl, code⟩
  | halt why => exact why.elim
  | call op rest ih =>
    obtain ⟨⟨reply, middle⟩, ran, ended⟩ := Option.bind_eq_some_iff.mp ended
    have ran : op.run ext (.answer 0) c.state = some (reply, middle) := ran
    have moved : step ext settings c (.exec .scheduler (.answer 0)) = some
        (Config.put ⟨middle, c.threads⟩ .scheduler ⟨(c.threads .scheduler).point, rest reply⟩) := by
      simp only [step, code, ran, Option.map_some]
    obtain ⟨later, reached, rest⟩ := ih reply (placed_step placed (step_moved moved))
      (by rw [Config.put_self]) ended
    exact ⟨later, .trans (.snoc (.refl c) (free c placed).1 moved) reached, rest⟩

theorem enter_reaches (free : Unhindered admits) (placed : c.Placed) {first : Point}
    (code : (c.threads .scheduler).code = .done first)
    (ended : (block ext settings first).solo (Op.alone ext) c.state = some (point, s)) :
    ∃ later, (system ext settings).Reaches admits c later ∧ later.Placed ∧ later.state = s ∧
      (later.threads .scheduler).code = .done point := by
  have moved : step ext settings c (.resume .scheduler) = some (c.put .scheduler (enter ext settings first)) := by
    simp only [step, code]
  obtain ⟨later, reached, rest⟩ := solo_reaches free (placed_step placed (step_moved moved))
    (by rw [Config.put_self]; rfl) ended
  exact ⟨later, .trans (.snoc (.refl c) (free c placed).2 moved) reached, rest⟩

end

/-! ## Statements -/

section
variable {E : Type} [FromSql E] {s : State}

theorem solo_fetch {query : Select} {row : query.Row} (answers : query.answers s.db = [row]) :
    (fetch query : Proc Sig E query.Row).solo (Op.alone ext) s = some (row, s) :=
  fetch_solo (run_select answers)

theorem solo_run {write : Write} {affected : Nat} {db : Db} (applied : write.apply s.now s.db = .ok (affected, db)) :
    (run write : Proc Sig E Unit).solo (Op.alone ext) s = some ((), { s with db }) :=
  run_solo (run_write applied)

variable (ext E s)

theorem solo_event {event : NewEvent} (run : s.db.hasRun event.jobRunId = true)
    (node : event.nodeRunId.all s.db.hasNode = true) :
    ∃ s', (Server.run (.event event) : Proc Sig E Unit).solo (Op.alone ext) s = some ((), s') ∧
      s'.db.nodeRuns = s.db.nodeRuns ∧ s'.db.jobRuns = s.db.jobRuns := by
  have applied : (Write.event event).apply s.now s.db =
      .ok (s.db.runEvents.next, { s.db with runEvents := s.db.runEvents.insert (event.row s.now) }) := by
    simp only [Write.apply, run, node, Bool.not_true, Bool.or_self, Bool.false_eq_true, if_false]
  exact ⟨_, solo_run applied, rfl, rfl⟩

theorem solo_updateNode (id : Nat) (change : NodeChange) :
    ∃ s', (Server.run (.updateNode id change) : Proc Sig E Unit).solo (Op.alone ext) s = some ((), s') ∧
      s'.db.nodeRuns = s.db.nodeRuns.updateAt id (change.apply s.now) ∧ s'.db.jobRuns = s.db.jobRuns :=
  ⟨_, solo_run rfl, rfl, rfl⟩

theorem solo_updateJob (id : Nat) (change : JobChange) :
    ∃ s', (Server.run (.updateJob id change) : Proc Sig E Unit).solo (Op.alone ext) s = some ((), s') ∧
      s'.db.jobRuns = s.db.jobRuns.updateAt id (change.apply s.now) :=
  ⟨_, solo_run rfl, rfl⟩

variable {ext s}

theorem solo_recover {runId : Nat} {body : Proc Sig AnyError Point} {point : Point} {s' : State}
    (ended : body.solo (Op.alone ext) s = some (point, s')) :
    (recover runId body).solo (Op.alone ext) s = some (point, s') :=
  Proc.solo_bind (Proc.solo_attempt ended)

end

/-! ## A canceled run -/

/-- The loop cancels its run, and the rows that it needs are there. -/
structure Execution.Canceling (x : Execution) (s : State) : Prop where
  canceling : x.canceling = true
  settled : x.runningNodes = ∅
  skipped : ∀ key status, x.results.lookup key = some status → status = .skipped
  row : ∃ run, s.db.jobRuns.find x.run.id = some run ∧ run.status = .cancelRequested
  rows : ∀ node ∈ x.nodes, ∃ id, x.nodeIds.lookup node.id = some id ∧ s.db.hasNode id = true

namespace Alone

variable {x : Execution} {node : ResolvedNodeDefinition} {s : State}

theorem hasRun (cancels : x.Canceling s) : s.db.hasRun x.run.id = true := by
  obtain ⟨run, found, -⟩ := cancels.row
  rw [Db.hasRun, found]
  rfl

variable (ext) in
theorem markNodeSkipped (cancels : x.Canceling s) (member : node ∈ x.nodes) (reason : String) :
    ∃ s', (x.markNodeSkipped node reason).solo (Op.alone ext) s = some (x.record node.id .skipped, s') ∧
      (x.record node.id .skipped).Canceling s' := by
  obtain ⟨id, known, there⟩ := cancels.rows node member
  obtain ⟨middle, skipped, nodes, runs⟩ := solo_updateNode ext AnyError s id (.skip reason)
  have owned : middle.db.hasRun x.run.id = true := by
    rw [Db.hasRun, runs]
    exact hasRun cancels
  obtain ⟨s', inserted, nodes', runs'⟩ := solo_event ext AnyError middle
    (show middle.db.hasRun (NewEvent.jobRunId ⟨x.run.id, some id, .node, _, _, some reason⟩) = true from owned)
    (hasNode_updateAt nodes there)
  refine ⟨s', ?_, cancels.canceling, cancels.settled, ?_, ?_, ?_⟩
  · unfold Execution.markNodeSkipped Execution.nodeRunId
    rw [known]
    exact (Proc.solo_bind skipped).trans (Proc.solo_bind inserted)
  · intro key status result
    simp only [Execution.record, lookup_insert_ite] at result
    split at result
    · cases result
      rfl
    · exact cancels.skipped key status result
  · obtain ⟨run, found, status⟩ := cancels.row
    exact ⟨run, by rw [runs', runs]; exact found, status⟩
  · intro other inside
    obtain ⟨id', known', there'⟩ := cancels.rows other inside
    exact ⟨id', known', hasNode_updateAt (nodes'.trans nodes) there'⟩

variable (ext) in
theorem scheduleNode (cancels : x.Canceling s) (member : node ∈ x.nodes) :
    ∃ x' s', (x.scheduleNode ext [] node).solo (Op.alone ext) s = some ((x', []), s') ∧ x'.Canceling s' ∧
      x'.run = x.run ∧ x'.nodes = x.nodes := by
  have skips : ∀ reason, ∃ x' s', (x.markNodeSkipped node reason >>= fun x => pure (x, [])).solo
      (Op.alone ext) s = some ((x', ([] : List (String × Nat))), s') ∧ x'.Canceling s' ∧ x'.run = x.run ∧
      x'.nodes = x.nodes := by
    intro reason
    obtain ⟨s', ended, cancels'⟩ := markNodeSkipped ext cancels member reason
    exact ⟨_, s', Proc.solo_bind ended, cancels', rfl, rfl⟩
  unfold Execution.scheduleNode
  split
  · exact ⟨x, s, rfl, cancels, rfl, rfl⟩
  · split
    · exact skips _
    · split
      · exact ⟨x, s, rfl, cancels, rfl, rfl⟩
      · split
        · exact skips _
        · rw [if_pos cancels.canceling]
          exact skips _

theorem determineJobStatus (cancels : x.Canceling s) : determineJobStatus x.results x.canceling = .canceled := by
  have absent : ∀ status, status ≠ .skipped → status ∉ x.results.entries.map (·.2) := by
    intro status ne member
    obtain ⟨⟨key, result⟩, inside, rfl⟩ := List.mem_map.mp member
    exact ne (cancels.skipped key result (AList.mem_lookup_iff.mpr inside))
  unfold Server.determineJobStatus
  dsimp only
  rw [if_neg (absent _ (by simp)), if_neg (absent _ (by simp)), cancels.canceling]
  rfl

variable (ext settings) in
theorem finalizeJob (cancels : x.Canceling s) :
    ∃ s', (block ext settings (.finalizing x)).solo (Op.alone ext) s = some (.schedulerTick, s') ∧
      ∃ run, s'.db.jobRuns.find x.run.id = some run ∧ run.status = .canceled := by
  obtain ⟨run, found, -⟩ := cancels.row
  have read : (fetch (.jobStatus x.run.id) : Proc Sig AnyError JobStatus).solo (Op.alone ext) s =
      some (run.status, s) := by
    refine solo_fetch ?_
    simp only [Select.answers, found, Option.map_some, Option.toList_some]
  obtain ⟨middle, updated, runs⟩ := solo_updateJob ext AnyError s x.run.id
    (.finished .canceled (finalReason .canceled))
  have there : middle.db.jobRuns.find x.run.id =
      some ((JobChange.finished .canceled (finalReason .canceled)).apply s.now run) := by
    rw [runs, Serial.find_updateAt_self, found, Option.map_some]
  have owned : middle.db.hasRun x.run.id = true := by
    rw [Db.hasRun, there]
    rfl
  obtain ⟨s', inserted, -, runs'⟩ := solo_event ext AnyError middle
    (show middle.db.hasRun (NewEvent.jobRunId ⟨x.run.id, none, .job, _, _, _⟩) = true from owned) rfl
  refine ⟨s', solo_recover ?_, _, by rw [runs', there], rfl⟩
  rw [determineJobStatus cancels]
  exact Proc.solo_bind ((Proc.solo_bind read).trans ((Proc.solo_bind updated).trans inserted))

/-! ## Schedules of a canceled run -/

variable {admits : Config → Label → Prop} {c : Config}

theorem pass_reaches (free : Unhindered admits) (placed : c.Placed) {todo : List ResolvedNodeDefinition}
    (code : (c.threads .scheduler).code = .done (.pass x [] todo)) (inside : ∀ node ∈ todo, node ∈ x.nodes)
    (cancels : x.Canceling c.state) :
    ∃ later x', (system ext settings).Reaches admits c later ∧ later.Placed ∧ x'.run = x.run ∧
      (later.threads .scheduler).code = .done (.finalizing x') ∧ x'.Canceling later.state := by
  induction todo generalizing c x with
  | nil =>
    -- a canceled run has no running node left, so the pass ends in the finalization
    have ended : (block ext settings (.pass x [] [])).solo (Op.alone ext) c.state =
        some (.finalizing (x.launch []), c.state) := by
      unfold block
      dsimp only
      rw [if_pos (show (x.launch []).runningNodes.entries = [] by
        show x.runningNodes.entries = []
        rw [cancels.settled]
        rfl)]
      rfl
    obtain ⟨later, reached, placed, same, code⟩ := enter_reaches free placed code ended
    exact ⟨later, x.launch [], reached, placed, rfl, code, by rw [same]; exact cancels⟩
  | cons node todo ih =>
    obtain ⟨x', s', ended, cancels', sameRun, sameNodes⟩ :=
      scheduleNode ext cancels (inside node List.mem_cons_self)
    have ended : (block ext settings (.pass x [] (node :: todo))).solo (Op.alone ext) c.state =
        some (.pass x' [] todo, s') := solo_recover (Proc.solo_bind ended)
    obtain ⟨middle, reached, placed, same, code⟩ := enter_reaches free placed code ended
    obtain ⟨later, x'', further, rest⟩ := ih placed code
      (fun node member => by rw [sameNodes]; exact inside node (List.mem_cons_of_mem _ member))
      (by rw [same]; exact cancels')
    rw [sameRun] at rest
    exact ⟨later, x'', reached.trans further, rest⟩

theorem loop_reaches (free : Unhindered admits) (placed : c.Placed)
    (code : (c.threads .scheduler).code = .done (.scheduling x))
    (cancels : Execution.Canceling { x with canceling := true } c.state) :
    ∃ later, (system ext settings).Reaches admits c later ∧
      ∃ run, later.state.db.jobRuns.find x.run.id = some run ∧ run.status = .canceled := by
  obtain ⟨run, found, status⟩ := cancels.row
  have read : (fetch (.jobStatus x.run.id) : Proc Sig AnyError JobStatus).solo (Op.alone ext) c.state =
      some (.cancelRequested, c.state) := by
    refine solo_fetch ?_
    simp only [Select.answers, found, status, Option.map_some, Option.toList_some]
  have observed : x.observeCancel.solo (Op.alone ext) c.state = some ({ x with canceling := true }, c.state) := by
    refine (Proc.solo_bind ((Proc.solo_bind read).trans rfl)).trans ?_
    rw [decide_eq_true rfl, Bool.or_true]
    rfl
  have ended : (block ext settings (.scheduling x)).solo (Op.alone ext) c.state =
      some (.pass { x with canceling := true } [] x.nodes, c.state) :=
    solo_recover (Proc.solo_bind observed)
  obtain ⟨first, reached, placed, same, code⟩ := enter_reaches free placed code ended
  obtain ⟨second, x', reached', placed, sameRun, code, cancels'⟩ := pass_reaches free placed code
    (fun node member => member) (by rw [same]; exact cancels)
  obtain ⟨s', ended, canceled⟩ := finalizeJob ext settings cancels'
  obtain ⟨last, reached'', -, same, -⟩ := enter_reaches free placed code ended
  refine ⟨last, (reached.trans reached').trans reached'', ?_⟩
  rw [sameRun] at canceled
  rw [same]
  exact canceled

end Alone

end PostJen.Server
