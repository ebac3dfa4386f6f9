import PostJen.Foundations.Liveness
import PostJen.Server.Closing
import PostJen.Server.Journal
import PostJen.Server.NodeLife
import PostJen.Server.Queueing

/-! A task that is polled for ever executes block after block.

Each block comes to its end, and where it leads depends on the answers that its
statements met on the way. For the blocks of `execute_run` this says when the
scheduler leaves a run, when a wait ends and when the queue is served.
-/

set_option autoImplicit false

open PostJen.Foundations PostJen.Core Filter

namespace PostJen.Server

/-! ## One task along an infinite run -/

def Label.acts (slot : Slot) : Label → Prop
  | .exec turn _ | .resume turn => turn = slot
  | _ => False

section
variable {ext : External} {settings : Settings} {start : Config} (σ : (system ext settings).Trace start) (slot : Slot)

/-- The task has just entered the block of a control point. -/
def Stands (n : Nat) (point : Point) : Prop := (σ.config n).threads slot = enter ext settings point

def Does (n : Nat) (op : Op) (reply : op.Reply) : Prop :=
  ∃ choice rest, σ.label n = .exec slot choice ∧ ((σ.config n).threads slot).code = .call op rest ∧
    op.run ext choice (σ.config n).state = some (reply, (σ.config (n + 1)).state)

def Meets (hits : (op : Op) → op.Reply → Prop) (n m : Nat) : Prop :=
  ∃ k, n ≤ k ∧ k < m ∧ ∃ op reply, Does σ slot k op reply ∧ hits op reply

/-- The task is polled for ever, and nothing makes it start anew. -/
structure Attended (since : Nat) : Prop where
  recurs : ∃ᶠ n in atTop, (σ.label n).acts slot
  unbroken : ∀ n, since ≤ n → ∀ point, ¬Entry (σ.label n) slot point

end

theorem acts_step {ext : External} {settings : Settings} {c after : Config} {label : Label} {slot : Slot}
    (moved : step ext settings c label = some after) (acts : label.acts slot) :
    (∃ choice op rest reply, label = .exec slot choice ∧ (c.threads slot).code = .call op rest ∧
      op.run ext choice c.state = some (reply, after.state) ∧
      after.threads slot = ⟨(c.threads slot).point, rest reply⟩) ∨
    ∃ point, (c.threads slot).code = .done point ∧ after.threads slot = enter ext settings point := by
  cases step_moved moved with
  | @exec turn choice op rest reply state next ran =>
    cases acts
    exact .inl ⟨choice, op, rest, reply, rfl, next, ran, Config.put_self _ _ _⟩
  | @resume turn point ended =>
    cases acts
    exact .inr ⟨point, ended, Config.put_self _ _ _⟩
  | _ => cases acts

namespace Attended

variable {ext : External} {settings : Settings} {start : Config} {σ : (system ext settings).Trace start} {slot : Slot}
  {since n : Nat}

theorem turn (attended : Attended σ slot since) (later : since ≤ n) :
    ∃ m, n ≤ m ∧ (σ.config m).threads slot = (σ.config n).threads slot ∧ (σ.label m).acts slot := by
  generalize here : (σ.config n).threads slot = thread
  -- steps of other tasks leave the code of this one as it is
  have lasts : ∀ k, since ≤ k ∧ (σ.config k).threads slot = thread → ¬(σ.label k).acts slot →
      since ≤ k + 1 ∧ (σ.config (k + 1)).threads slot = thread := by
    rintro k ⟨later, here⟩ rests
    refine ⟨Nat.le_succ_of_le later, ?_⟩
    have stepped := thread_step (σ.moves k) slot
    have unbroken := attended.unbroken k later
    generalize (σ.config (k + 1)).threads slot = after at stepped ⊢
    generalize σ.label k = label at stepped rests unbroken
    cases stepped with
    | same => exact here
    | exec | resume => exact absurd rfl rests
    | entered entry => exact absurd entry (unbroken _)
  obtain ⟨m, last, ⟨-, there⟩, acts⟩ := LeadsTo.lasting lasts attended.recurs n ⟨later, here⟩
  exact ⟨m, last, there, acts⟩

theorem executes (attended : Attended σ slot since) (later : since ≤ n) {op : Op}
    {rest : op.Reply → Proc Sig Empty Point} (next : ((σ.config n).threads slot).code = .call op rest) :
    ∃ m reply, n ≤ m ∧ Does σ slot m op reply ∧
      (σ.config (m + 1)).threads slot = ⟨((σ.config n).threads slot).point, rest reply⟩ := by
  obtain ⟨m, last, same, acts⟩ := attended.turn later
  rw [← same] at next ⊢
  rcases acts_step (σ.moves m) acts with ⟨choice, op', rest', reply, label, code, ran, after⟩ | ⟨point, ended, -⟩
  · cases next.symm.trans code
    exact ⟨m, reply, last, ⟨choice, rest, label, next, ran⟩, after⟩
  · cases next.symm.trans ended

theorem resumes (attended : Attended σ slot since) (later : since ≤ n) {point : Point}
    (ended : ((σ.config n).threads slot).code = .done point) :
    ∃ m, n ≤ m ∧ (σ.config m).threads slot = (σ.config n).threads slot ∧ Stands σ slot (m + 1) point := by
  obtain ⟨m, last, same, acts⟩ := attended.turn later
  refine ⟨m, last, same, ?_⟩
  rw [← same] at ended
  rcases acts_step (σ.moves m) acts with ⟨choice, op, rest, reply, label, code, -⟩ | ⟨point', ended', after⟩
  · cases ended.symm.trans code
  · cases ended.symm.trans ended'
    exact after

theorem drains (attended : Attended σ slot since) (later : since ≤ n) :
    ∃ m next, n ≤ m ∧ (σ.config m).threads slot = ⟨((σ.config n).threads slot).point, .done next⟩ ∧
      ∀ hits ends, ((σ.config n).threads slot).code.Until hits ends (fun why => why.elim) →
        ends next ∨ Meets σ slot hits n m := by
  generalize here : (σ.config n).threads slot = thread
  obtain ⟨point, code⟩ := thread
  -- what is left of the block after an answer is a part of it
  induction code generalizing n with
  | done next => exact ⟨n, next, Nat.le_refl n, here, fun _ _ ended => .inl ended⟩
  | halt why => exact why.elim
  | call op rest ih =>
    have suspended : ((σ.config n).threads slot).code = .call op rest := by rw [here]
    obtain ⟨m, reply, last, does, after⟩ := attended.executes later suspended
    rw [here] at after
    obtain ⟨k, next, rest', ended, until'⟩ := ih reply (Nat.le_trans later (Nat.le_succ_of_le last)) after
    refine ⟨k, next, by omega, ended, fun hits ends untilHere => ?_⟩
    rcases untilHere reply with hit | continues
    · exact .inr ⟨m, last, by omega, op, reply, does, hit⟩
    · exact (until' hits ends continues).imp_right fun ⟨j, first, rest⟩ => ⟨j, by omega, rest⟩

theorem leaves (attended : Attended σ slot since) (later : since ≤ n) :
    ∃ m next, n ≤ m ∧ (σ.config m).threads slot = ⟨((σ.config n).threads slot).point, .done next⟩ ∧
      Stands σ slot (m + 1) next ∧
      ∀ hits ends, ((σ.config n).threads slot).code.Until hits ends (fun why => why.elim) →
        ends next ∨ Meets σ slot hits n m := by
  obtain ⟨m, next, last, ended, outcome⟩ := attended.drains later
  have arrived : ((σ.config m).threads slot).code = .done next := by rw [ended]
  obtain ⟨k, last', same, stands⟩ := attended.resumes (Nat.le_trans later last) arrived
  rw [ended] at same
  refine ⟨k, next, Nat.le_trans last last', same, stands, fun hits ends until' => ?_⟩
  exact (outcome hits ends until').imp_right fun ⟨j, first, before, rest⟩ => ⟨j, first, by omega, rest⟩

end Attended

/-! ## Where the blocks of `execute_run` lead -/

/-- The UPDATEs after which a run has ended. -/
def Op.closes (runId : Nat) : (op : Op) → op.Reply → Prop
  | .write (.updateJob id (.finished toStatus _)), _ => id = runId ∧ toStatus.terminal = true
  | .write (.updateJob id (.failBeforeStart _)), _ => id = runId
  | _, _ => False

/-- The status of a node is not read, or is one that the wait passes over. -/
def Op.overlooks (nodeRunId : Nat) : (op : Op) → op.Reply → Prop
  | .select (.nodeStatus id), reply => id = nodeRunId ∧ ∀ status, reply = .ok status → status.reported = false
  | _, _ => False

/-- The order of a hash map misses or invents a key. -/
def Op.disorders : (op : Op) → op.Reply → Prop
  | .order keys, reply => ¬List.Perm (reply : List String) keys
  | _, _ => False

def Op.misses (runId : Nat) : (op : Op) → op.Reply → Prop
  | .select .nextQueuedRun, reply => ∀ queued : QueuedRun, reply = .ok (some queued) → queued.id ≠ runId
  | _, _ => False

section
variable {ext : External} {settings : Settings} {hits : (op : Op) → op.Reply → Prop} {ends : Point → Prop}

variable (ext settings)

/-- The scheduler leaves a run only after an UPDATE that ends it. -/
theorem until_closes {point : Point} {runId : Nat} (drives : point.drives = some runId) :
    (block ext settings point).Until (Op.closes runId) (fun next => next ≠ .schedulerTick) fun why => why.elim := by
  have minor : ∀ op : Op, op.minor = true → True := fun _ _ => trivial
  -- only the handling of an error leads to the queue, and it ends the run
  have settle : ∀ {body : Proc Sig AnyError Point}, body.Within (fun _ => True) (fun next => next ≠ .schedulerTick) →
      (recover runId body).Until (Op.closes runId) (fun next => next ≠ .schedulerTick) fun why => why.elim :=
    fun within => until_recover (.inl fun _ _ => rfl) (within.until fun _ => trivial)
  cases point with
  | executeRun queued =>
    cases drives
    exact until_prepared ext settings queued fun _ _ => rfl
  | scheduling x =>
    cases drives
    refine settle ((x.within_observeCancel (reads_of minor)).bind ?_)
    rintro y -
    exact fun same => by cases same
  | pass x newlyQueued todo =>
    cases drives
    cases todo with
    | nil =>
      unfold block
      dsimp only
      split <;> exact fun same => by cases same
    | cons node todo =>
      refine settle ((x.within_scheduleNode minor ext newlyQueued node (fun _ _ => trivial) (fun _ _ => trivial)
        (fun _ => trivial) fun _ _ => trivial).bind ?_)
      rintro result -
      exact fun same => by cases same
  | waiting x => exact fun reply => .inr fun same => by cases same
  | polling x todo =>
    cases drives
    cases todo with
    | nil =>
      refine settle ((within_isCancelRequested (reads_of minor) _).bind fun canceled _ => ?_)
      cases canceled <;> exact fun same => by cases same
    | cons key todo =>
      refine settle ?_
      unfold pollPoint
      split
      · exact fun same => by cases same
      · refine (Execution.within_pollNode (reads_of minor) _).bind fun outcome _ => ?_
        cases outcome <;> exact fun same => by cases same
  | finalizing x =>
    cases drives
    have closes : (finalizeJob x.run.id (determineJobStatus x.results x.canceling)).Until (Op.closes x.run.id)
        (fun _ => False) fun _ => True := by
      refine Proc.Until.bind ((within_fetch (reads_of minor) _ rfl).until fun _ => trivial) fun current _ => ?_
      unfold transitionJob
      rw [transitionChange_terminal (determineJobStatus_terminal _ _)]
      exact fun reply => .inl ⟨rfl, determineJobStatus_terminal _ _⟩
    exact until_recover (.inl fun _ _ => rfl) (closes.bind fun _ never => never.elim)
  | _ => cases drives

theorem until_waits (x : Execution) (newlyQueued : List (String × Nat)) :
    (block ext settings (.pass x newlyQueued [])).Until hits
      (fun next => next = .finalizing (x.launch newlyQueued) ∨
        next = .waiting (x.launch newlyQueued) ∧ (x.launch newlyQueued).runningNodes.entries ≠ [])
      fun why => why.elim := by
  unfold block
  dsimp only
  split
  · exact .inl rfl
  · rename_i waits
    exact .inr ⟨rfl, waits⟩

theorem until_ordered (x : Execution) :
    (block ext settings (.waiting x)).Until Op.disorders
      (fun next => ∃ keys, next = .polling x keys ∧ keys.Perm x.runningNodes.keys) fun why => why.elim := by
  intro (keys : List String)
  by_cases order : keys.Perm x.runningNodes.keys
  · exact .inr ⟨keys, rfl, order⟩
  · exact .inl order

theorem until_running (x : Execution) (key : String) (todo : List String) :
    (block ext settings (.polling x (key :: todo))).Until hits
      (fun next => (∃ id, x.runningNodes.lookup key = some id) ∨ ∀ y, next ≠ .scheduling y) fun why => why.elim := by
  cases running : x.runningNodes.lookup key with
  | some id =>
    have whole : (block ext settings (.polling x (key :: todo))).Until hits (fun _ => True) fun why => why.elim :=
      Proc.until_true _ fun why => why.elim
    exact whole.mono (fun _ _ => .inl ⟨id, rfl⟩) fun why => why.elim
  | none =>
    refine until_recover (.inr (.inr fun y same => by cases same)) ?_
    unfold pollPoint
    rw [running]
    exact .inr fun y same => by cases same

theorem until_reported (x : Execution) {key : String} {id : Nat} (running : x.runningNodes.lookup key = some id)
    (todo : List String) :
    (block ext settings (.polling x (key :: todo))).Until (Op.overlooks id)
      (fun next => next = .schedulerTick ∨ ∃ outcome, next = .scheduling (x.complete key outcome))
      fun why => why.elim := by
  refine until_recover (.inr (.inl rfl)) ?_
  unfold pollPoint
  rw [running]
  have reads : ∀ op : Op, op.reads = true → True := fun _ _ => trivial
  have reading : (fetch (.nodeStatus id) : Proc Sig AnyError NodeStatus).Until (Op.overlooks id)
      (fun status => status.reported = true) fun _ => True := by
    rintro (why | status)
    · exact .inl ⟨rfl, fun _ same => by cases same⟩
    · cases reported : status.reported with
      | true => exact .inr reported
      | false =>
        refine .inl ⟨rfl, ?_⟩
        rintro _ ⟨⟩
        exact reported
  have polling : (Execution.pollNode id).Until (Op.overlooks id) (fun outcome => outcome.isSome = true)
      fun _ => True := by
    refine reading.bind fun status reported => ?_
    cases status with
    | failed => exact Proc.Until.bind ((within_fetch reads _ rfl).until fun _ => trivial) fun _ _ => rfl
    | success | timedOut | canceled => rfl
    | _ => cases reported
  refine polling.bind fun outcome found => ?_
  cases outcome with
  | none => cases found
  | some outcome => exact .inr ⟨outcome, rfl⟩

theorem until_picks (runId : Nat) :
    (block ext settings .schedulerTick).Until (Op.misses runId)
      (fun next => ∃ queued : QueuedRun, queued.id = runId ∧ next = .executeRun queued) fun why => why.elim := by
  have answered : pickRun.Until (Op.misses runId)
      (fun next => ∃ queued : QueuedRun, queued.id = runId ∧ next = .executeRun queued) fun _ => False := by
    rintro (why | (none | queued))
    · exact .inl fun _ same => by cases same
    · exact .inl fun _ same => by cases same
    · by_cases same : queued.id = runId
      · exact .inr ⟨queued, same, rfl⟩
      · refine .inl ?_
        rintro _ ⟨⟩
        exact same
  have attempted : (pickRun.attempt : Proc Sig Empty (Except AnyError Point)).Until (Op.misses runId)
      (fun outcome => ∃ queued : QueuedRun, queued.id = runId ∧ outcome = .ok (.executeRun queued))
      fun why => why.elim := by
    refine Proc.Until.attempt (answered.mono ?_ fun _ never => never.elim)
    rintro next ⟨queued, same, rfl⟩
    exact ⟨queued, same, rfl⟩
  refine attempted.bind ?_
  rintro outcome ⟨queued, same, rfl⟩
  exact ⟨queued, same, rfl⟩

end

/-! ## Node runs that have been queued -/

def NodeRun.begun (node : NodeRun) : Bool := node.status = .queued || node.status = .running || node.status.reported

def Db.Begun (db : Db) (id : Nat) : Prop := ∃ node, db.nodeRuns.find id = some node ∧ node.begun = true

def Db.Busy (db : Db) (id : Nat) : Prop :=
  ∃ node, db.nodeRuns.find id = some node ∧ (node.status = .queued ∨ node.status = .running)

theorem NodeRun.begun_reported {node : NodeRun} (reported : node.status.reported = true) : node.begun = true := by
  rw [NodeRun.begun, reported, Bool.or_true]

theorem Db.Begun.reported {db : Db} {id : Nat} (begun : db.Begun id) (idle : ¬db.Busy id) :
    ∃ node, db.nodeRuns.find id = some node ∧ node.status.reported = true := by
  obtain ⟨node, found, begun⟩ := begun
  simp only [NodeRun.begun, Bool.or_eq_true, decide_eq_true_eq] at begun
  exact ⟨node, found, begun.resolve_left fun busy => idle ⟨node, found, busy⟩⟩

theorem update_begun {slot : Slot} {point : Point} {id : Nat} {change : NodeChange} {now : Timestamp} {node : NodeRun}
    (other : slot ≠ .scheduler) (hosted : slot.hosts point = true) (updates : point.Updates id change)
    (begun : node.begun = true) : (change.apply now node).begun = true := by
  cases updates with
  | pick =>
    simp only [NodeChange.apply]
    split
    · rfl
    · exact begun
  | poll | lose => rfl
  | finish task status exitCode reason reported => exact NodeRun.begun_reported reported
  | report headers payload status exitCode reason reported => exact NodeRun.begun_reported reported
  | _ => cases slot <;> first | exact absurd rfl other | cases hosted

def starting : RowRegime where
  fact
    | .active, node => node.begun = true
    | _, _ => True
  may before after := before.begun = true → after.begun = true

theorem starting_valid : starting.Valid where
  refl := fun _ begun => begun
  trans := fun _ _ _ one two begun => two (one begun)
  stable := by
    intro phase before after may fact
    cases phase with
    | active => exact may fact
    | _ => trivial
  fresh := fun _ _ => trivial
  advance := by
    intro phase change next now node advance fact
    cases advance with
    | queue => rfl
    | _ => trivial
  read := fun _ _ _ => trivial

section
variable {ext : External} {settings : Settings} {start c after : Config} {label : Label}
  (idle : ∀ slot, start.threads slot = enter ext settings .idle)
include idle

theorem starting_governs : (starting.regime ext).Governs ext settings start everything fun _ c => c.state := by
  refine starting_valid.governs idle ?_
  intro history c slot choice after id node change run _ moved other next found found' begun
  have placed := reached_placed idle run.reaches
  exact update_begun other (placed slot).1 (placed.updates next) begun

theorem step_begun {history : List Label} (run : (system ext settings).Path everything start history c)
    (moved : step ext settings c label = some after) {id : Nat} (begun : c.state.db.Begun id) :
    after.state.db.Begun id := by
  obtain ⟨node, found, begun⟩ := begun
  obtain ⟨node', found', changed⟩ := nodeStep moved found
  refine ⟨node', found', ?_⟩
  cases changed with
  | same => exact begun
  | update slot choice change executed next =>
    subst executed
    by_cases isScheduler : slot = .scheduler
    · subst isScheduler
      obtain ⟨owner, phase, later, advance, ⟨row, here, -, -, fact⟩, -⟩ :=
        (claiming_governs idle).promised run trivial moved next id change rfl
      cases found.symm.trans here
      cases advance with
      | assign agentId => exact begun
      | skip reason =>
        -- only a fresh node is skipped, and its row is still pending
        rw [NodeRun.begun, fact.1] at begun
        cases begun
      | queue | unmatched => rfl
    · have placed := reached_placed idle run.reaches
      exact update_begun isScheduler (placed slot).1 (placed.updates next) begun

end

theorem looping_begun {ext : External} {x : Execution} {s : State} (looping : (starting.regime ext).Looping x s)
    {key : String} {id : Nat} (running : x.runningNodes.lookup key = some id) : s.db.Begun id := by
  obtain ⟨known, listed, unsettled⟩ := looping.sound.running key id running
  obtain ⟨node, member, rfl⟩ := List.mem_map.mp listed
  have active := looping.phased node member id known
  rw [Execution.phase_active unsettled (.inl (by rw [running]; rfl))] at active
  obtain ⟨row, found, -, -, begun⟩ := active
  exact ⟨row, found, begun⟩

end PostJen.Server
