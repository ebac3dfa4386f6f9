import PostJen.Server.DependencySafety

/-! Whether a failure stops the next scheduling pass.

The wait reports one finished node. When that node succeeded while another row
of the run has already failed, the pass that follows does not know about the
failure and starts whatever has become ready.
-/

set_option autoImplicit false

open PostJen.Foundations PostJen.Core

namespace PostJen.Server

/-- The wait for a node returns and the loop goes on with `x`. -/
def WaitReturns (x : Execution) (before : Config) (label : Label) (after : Config) : Prop :=
  (∃ choice, label = .exec .scheduler choice) ∧
    (∃ y todo, (before.threads .scheduler).point = .polling y todo) ∧
    (after.threads .scheduler).code = .done (.scheduling x)

/-- Between a wait and the end of the pass that follows it. -/
def continuesPass (c : Config) : Label → Bool
  | .exec .scheduler _ =>
      match (c.threads .scheduler).point with
      | .scheduling _ | .pass _ _ _ => true
      | _ => false
  | .resume .scheduler =>
      match c.ended .scheduler with
      | some (.scheduling _) | some (.pass _ _ _) => true
      | _ => false
  | .boot _ => false
  | _ => true

def Db.hasFailed (db : Db) (runId : Nat) : Bool :=
  db.nodeRuns.rows.any fun row =>
    row.2.jobRunId = runId && (row.2.status = .failed || row.2.status = .timedOut)

/-- No pass queues a node of a run in which a node had failed or timed out when
the preceding wait returned. -/
def FailStop (ext : External) (settings : Settings) (admits : Config → Label → Prop) (start : Config) : Prop :=
  ∀ before label returned x c label' after id row,
    (system ext settings).Reaches admits start before → admits before label →
    step ext settings before label = some returned → WaitReturns x before label returned →
    (system ext settings).Reaches (fun c label => admits c label ∧ continuesPass c label = true) returned c →
    admits c label' → step ext settings c label' = some after → Queues id c label' after →
    c.state.db.nodeRuns.find id = some row → row.jobRunId = x.run.id →
    returned.state.db.hasFailed x.run.id = false

/-- Once `key` has ended in success, a pass starts the node. -/
def Execution.readyAfter (x : Execution) (key : String) (node : ResolvedNodeDefinition) : Bool :=
  node.id ≠ key && (x.results.lookup node.id).isNone && (x.runningNodes.lookup node.id).isNone &&
    node.dependsOn.all fun dep => dep = key || x.results.lookup dep = some .success

/-- The wait does not read success while a failed row of the run is waiting to
be read and a node becomes ready. -/
def readsFailureFirst (c : Config) : Label → Bool
  | .exec .scheduler (.answer _) =>
      match (c.threads .scheduler).point, c.pending .scheduler with
      | .polling x (key :: _), some (.select (.nodeStatus id)) =>
          x.stopScheduling || x.canceling || !(c.state.db.nodeRuns.find id).any (·.status = .success) ||
            !x.nodes.any (x.readyAfter key) || !c.state.db.hasFailed x.run.id
      | _, _ => true
  | _ => true

variable {ext : External} {settings : Settings} {start : Config} {admits : Config → Label → Prop}
  {c after : Config} {label : Label}

/-! ## The statement at which the wait returns -/

def Stopping (next : Point) : Prop := ∀ x, next = .scheduling x → x.stopScheduling = true

theorem stopping_recover {runId : Nat} {body : Proc Sig AnyError Point}
    (within : body.Within (fun _ => True) Stopping) : (recover runId body).Within (fun _ => True) Stopping :=
  within_recover (fun _ _ => trivial) (fun _ => trivial) (fun _ same => by cases same) within

theorem stopping_failed (runId : Nat) (why : AnyError) :
    (recover runId (.halt why)).Within (fun _ => True) Stopping :=
  stopping_recover (Proc.within_halt why)

private def polled (x : Execution) (key : String) (todo : List String) :
    Option NodeExecutionOutcome → Proc Sig AnyError Point
  | some outcome => .done (.scheduling (x.complete key outcome))
  | none => .done (.polling x todo)

private theorem block_polling {x : Execution} {key : String} {todo : List String} {id : Nat}
    (found : x.runningNodes.lookup key = some id) :
    block ext settings (.polling x (key :: todo)) =
      recover x.run.id (Execution.pollNode id >>= polled x key todo) := by
  show recover x.run.id (pollPoint x key todo) = _
  unfold pollPoint
  rw [found]
  refine congrArg (recover x.run.id) (congrArg (Bind.bind (Execution.pollNode id)) (funext fun outcome => ?_))
  cases outcome <;> rfl

private theorem block_missing {x : Execution} {key : String} {todo : List String}
    (missing : x.runningNodes.lookup key = none) :
    block ext settings (.polling x (key :: todo)) = .done (.polling x todo) := by
  show recover x.run.id (pollPoint x key todo) = _
  unfold pollPoint
  rw [missing]
  rfl

variable (ext settings) in
theorem poll_reply {x : Execution} {key : String} {todo : List String} {id : Nat}
    (found : x.runningNodes.lookup key = some id) :
    ∃ rest : (Except SqlError NodeStatus) → Proc Sig Empty Point,
      block ext settings (.polling x (key :: todo)) = .call (.select (.nodeStatus id)) rest ∧
      ∀ reply, (reply = .ok .success ∧ rest reply = .done (.scheduling (x.complete key (.success none)))) ∨
        (rest reply).Within (fun _ => True) Stopping := by
  refine ⟨_, block_polling found, fun reply => ?_⟩
  cases reply with
  | error why => exact .inr (stopping_failed x.run.id _)
  | ok status =>
    have ends : ∀ outcome : NodeExecutionOutcome, (x.complete key outcome).stopScheduling = true →
        Stopping (.scheduling (x.complete key outcome)) := by
      rintro outcome stopped _ ⟨⟩
      exact stopped
    have waits : Stopping (.polling x todo) := fun _ same => by cases same
    cases status with
    | success => exact .inl ⟨rfl, rfl⟩
    | failed =>
      have failed : (fetch (.nodeFailureReason id) >>= fun reason =>
          pure (some (.failed ((reason : Option String).getD "execution failed"))) :
            Proc Sig AnyError (Option NodeExecutionOutcome)).Within (fun _ => True)
              fun outcome => ∃ reason, outcome = some (.failed reason) := by
        refine (within_fetch (fun _ _ => trivial) _ rfl).bind fun reason _ => ?_
        exact ⟨(reason : Option String).getD "execution failed", rfl⟩
      refine .inr (stopping_recover (failed.bind ?_))
      rintro _ ⟨reason, rfl⟩
      exact ends _ (by simp [Execution.complete, NodeExecutionOutcome.failed])
    | timedOut => exact .inr (ends _ (by simp [Execution.complete, NodeExecutionOutcome.timedOut]))
    | canceled => exact .inr (ends _ (by simp [Execution.complete, NodeExecutionOutcome.canceled]))
    | _ => exact .inr waits

variable (ext settings) in
theorem cancel_stopping (x : Execution) :
    (block ext settings (.polling x [])).Within (fun _ => True) Stopping := by
  refine stopping_recover ((within_isCancelRequested (fun _ _ => trivial) x.run.id).bind fun canceled _ => ?_)
  cases canceled
  · exact fun _ same => by cases same
  · rintro _ ⟨⟩
    simp [Execution.complete, NodeExecutionOutcome.canceled]

def Suspended (ext : External) (settings : Settings) (thread : Thread Sig Point) : Prop :=
  ∀ x todo, thread.point = .polling x todo →
    thread.code = block ext settings (.polling x todo) ∨ (∃ next, thread.code = .done next) ∨
      thread.code.Within (fun _ => True) Stopping

theorem suspended_step (suspended : Suspended ext settings (c.threads .scheduler))
    (moved : step ext settings c label = some after) :
    Suspended ext settings (after.threads .scheduler) := by
  have stepped := scheduler_step moved
  generalize after.threads .scheduler = thread at stepped
  cases stepped with
  | same => exact suspended
  | @exec choice op rest reply _ next ran =>
    intro x todo point
    -- at its first statement the block reads a row, or with none left asks for a cancellation
    rcases suspended x todo point with fresh | ⟨reached, ended⟩ | within
    · rw [next] at fresh
      cases todo with
      | nil =>
        have within := cancel_stopping ext settings x
        rw [← fresh] at within
        exact .inr (.inr (within.2 reply))
      | cons key todo =>
        cases found : x.runningNodes.lookup key with
        | none =>
          rw [block_missing found] at fresh
          cases fresh
        | some id =>
          obtain ⟨rest', same, replies⟩ := poll_reply ext settings found
          rw [same] at fresh
          cases fresh
          rcases replies reply with ⟨-, ended⟩ | within
          · exact .inr (.inl ⟨_, ended⟩)
          · exact .inr (.inr within)
    · rw [next] at ended
      cases ended
    · rw [next] at within
      exact .inr (.inr (within.2 reply))
  | resume ended =>
    rintro x todo point
    exact .inl (by rw [← point]; rfl)
  | boot => rintro x todo ⟨⟩

theorem reached_suspended (idle : ∀ slot, start.threads slot = enter ext settings .idle)
    (run : (system ext settings).Reaches admits start c) :
    Suspended ext settings (c.threads .scheduler) := by
  have first : Suspended ext settings (start.threads .scheduler) := by
    rw [idle]
    rintro x todo ⟨⟩
  exact run.invariant (fun c => Suspended ext settings (c.threads .scheduler)) first
    fun _ _ _ suspended _ moved => suspended_step suspended moved

/-- A wait that returns without telling the loop to stop has just read success. -/
theorem return_success {x y : Execution} {todo : List String} {choice : Choice} {returned : Config}
    (suspended : Suspended ext settings (c.threads .scheduler))
    (moved : step ext settings c (.exec .scheduler choice) = some returned)
    (polls : (c.threads .scheduler).point = .polling y todo)
    (returns : (returned.threads .scheduler).code = .done (.scheduling x))
    (unstopped : x.stopScheduling = false) :
    returned.state = c.state ∧ ∃ key rest id row index, todo = key :: rest ∧ choice = .answer index ∧
      c.pending .scheduler = some (.select (.nodeStatus id)) ∧
      c.state.db.nodeRuns.find id = some row ∧ row.status = .success ∧
      x = y.complete key (.success none) := by
  obtain ⟨op, rest, reply, code, next, ran, threads⟩ := step_exec moved
  rw [threads, Config.put_self] at returns
  dsimp only at returns
  -- without a stop the wait only returns from the read of a row that succeeded
  rcases suspended y todo polls with fresh | ⟨reached, ended⟩ | within
  · rw [code] at fresh
    cases todo with
    | nil =>
      have within := cancel_stopping ext settings y
      rw [← fresh] at within
      have stops := within.2 reply
      rw [returns] at stops
      rw [stops x rfl] at unstopped
      cases unstopped
    | cons key todo =>
      cases found : y.runningNodes.lookup key with
      | none =>
        rw [block_missing found] at fresh
        cases fresh
      | some id =>
        obtain ⟨rest', same, replies⟩ := poll_reply ext settings found
        rw [same] at fresh
        cases fresh
        rcases replies reply with ⟨rfl, ended⟩ | within
        · cases returns.symm.trans ended
          obtain ⟨unchanged, row, there, read⟩ := exec_nodeStatus ⟨choice, ran⟩
          cases choice with
          | answer index => exact ⟨unchanged, key, todo, id, row, index, rfl, rfl, next, there, read, rfl⟩
          | fail text => simp [Op.run] at ran
          | _ => cases ran
        · rw [returns] at within
          rw [within x rfl] at unstopped
          cases unstopped
  · rw [code] at ended
    cases ended
  · rw [code] at within
    have stops := within.2 reply
    rw [returns] at stops
    rw [stops x rfl] at unstopped
    cases unstopped

/-! ## The pass after a wait -/

def Execution.Startable (x : Execution) (node : ResolvedNodeDefinition) : Prop :=
  x.results.lookup node.id = none ∧ x.runningNodes.lookup node.id = none ∧
    ∀ dep ∈ node.dependsOn, x.results.lookup dep = some .success

/-- What a pass cannot undo: it starts nothing that could not start before. -/
structure Execution.Continues (x y : Execution) : Prop where
  run : y.run = x.run
  nodes : y.nodes = x.nodes
  going : y.stopScheduling = false → x.stopScheduling = false
  uncanceled : y.canceling = false → x.canceling = false
  startable : ∀ node, y.Startable node → x.Startable node

namespace Execution.Continues

theorem refl (x : Execution) : x.Continues x :=
  ⟨rfl, rfl, fun going => going, fun going => going, fun _ startable => startable⟩

theorem trans {x y z : Execution} (first : x.Continues y) (second : y.Continues z) : x.Continues z :=
  ⟨second.run.trans first.run, second.nodes.trans first.nodes, fun going => first.going (second.going going),
    fun going => first.uncanceled (second.uncanceled going),
    fun node startable => first.startable node (second.startable node startable)⟩

theorem observe (x : Execution) (canceled : Bool) :
    x.Continues { x with canceling := x.canceling || canceled } := by
  refine ⟨rfl, rfl, fun going => going, fun going => ?_, fun _ startable => startable⟩
  exact (Bool.or_eq_false_iff.mp going).1

theorem record (x : Execution) (key : String) {status : NodeStatus} (unsuccessful : status ≠ .success) :
    x.Continues (x.record key status) := by
  refine ⟨rfl, rfl, fun going => going, fun going => going, fun node startable => ?_⟩
  obtain ⟨unsettled, idle, ready⟩ := startable
  simp only [Execution.record, lookup_insert_ite] at unsettled ready
  refine ⟨?_, idle, fun dep needed => ?_⟩
  · split at unsettled
    · cases unsettled
    · exact unsettled
  · have found := ready dep needed
    split at found
    · cases found
      exact absurd rfl unsuccessful
    · exact found

theorem visit {x x' : Execution} {newlyQueued newlyQueued' : List (String × Nat)}
    {node : ResolvedNodeDefinition} (visits : x.Visit newlyQueued node x' newlyQueued') : x.Continues x' := by
  cases visits with
  | keep => exact .refl x
  | skip => exact record x node.id (by simp)
  | queue id known => exact .refl x
  | fail =>
    have unsuccessful : NodeStatus.failed ≠ .success := by simp
    obtain ⟨run, nodes, -, uncanceled, startable⟩ := record x node.id unsuccessful
    exact ⟨run, nodes, (fun going => by cases going), uncanceled, startable⟩

end Execution.Continues

def InPass (x : Execution) (c : Config) : Prop :=
  (c.threads .scheduler).code = .done (.scheduling x) ∨
    ∃ y, x.Continues y ∧ ((c.threads .scheduler).point = .scheduling y ∨
      ∃ newlyQueued todo, (c.threads .scheduler).point = .pass y newlyQueued todo)

theorem inPass_step {x : Execution} (placed : c.Placed) (inPass : InPass x c)
    (continues : continuesPass c label = true) (moved : step ext settings c label = some after) :
    InPass x after := by
  have stepped := scheduler_step moved
  unfold InPass
  generalize after.threads .scheduler = thread at stepped
  cases stepped with
  | same => exact inPass
  | exec next ran =>
    rcases inPass with ended | here
    · rw [next] at ended
      cases ended
    · exact .inr here
  | @resume point _ ended =>
    -- what continues the pass is another node of it, or its beginning
    have allowed : (∃ y, point = .scheduling y) ∨ ∃ y newlyQueued todo, point = .pass y newlyQueued todo := by
      simp only [continuesPass, ended_eq_some.mpr ended] at continues
      split at continues
      · rename_i same
        cases same
        exact .inl ⟨_, rfl⟩
      · rename_i same
        cases same
        exact .inr ⟨_, _, _, rfl⟩
      · cases continues
    rcases inPass with returned | ⟨y, carried, here⟩
    · cases returned.symm.trans ended
      exact .inr ⟨x, .refl x, .inl rfl⟩
    · have leads := (placed.follows ended).2 rfl
      rcases here with here | ⟨newlyQueued, todo, here⟩
      · rw [here] at leads
        cases leads with
        | observe _ canceled => exact .inr ⟨_, carried.trans (.observe y canceled), .inr ⟨_, _, rfl⟩⟩
        | abandon => rcases allowed with ⟨_, impossible⟩ | ⟨_, _, _, impossible⟩ <;> cases impossible
      · rw [here] at leads
        cases leads with
        | visit _ y' _ newlyQueued' node todo' visits =>
          exact .inr ⟨y', carried.trans (.visit visits), .inr ⟨_, _, rfl⟩⟩
        | _ => rcases allowed with ⟨_, impossible⟩ | ⟨_, _, _, impossible⟩ <;> cases impossible
  | boot => cases continues

/-! ## The law -/

theorem ready_of_startable {x : Execution} {key : String} {node : ResolvedNodeDefinition}
    (startable : (x.complete key (.success none)).Startable node) : x.readyAfter key node = true := by
  obtain ⟨unsettled, idle, ready⟩ := startable
  simp only [Execution.complete, lookup_insert_ite, lookup_erase_ite] at unsettled idle ready
  by_cases same : node.id = key
  · rw [if_pos same] at unsettled
    cases unsettled
  · rw [if_neg same] at unsettled idle
    simp only [Execution.readyAfter, unsettled, idle, Option.isNone_none, Bool.and_true, Bool.and_eq_true,
      decide_eq_true_eq, List.all_eq_true, Bool.or_eq_true]
    refine ⟨same, fun dep needed => ?_⟩
    have found := ready dep needed
    split at found
    · rename_i equal
      exact .inl equal
    · exact .inr found

/-- A run stops at the first failure if the wait never reads success while the
failure is there to be read. -/
theorem fail_stop (ext : External) (settings : Settings) (files : String → Option String) (clock : Nat) :
    FailStop ext settings (fun c label => readsFailureFirst c label = true)
      (Config.initial ext settings files clock) := by
  intro before label returned x c label' after id row reached timely moved waits passed _ moved' queues found owned
  have idle := Config.initial_idle ext settings files clock
  obtain ⟨⟨choice, rfl⟩, ⟨y, todo, polls⟩, returns⟩ := waits
  have reachedReturn := reached.snoc timely moved
  have reachedQueue := reachedReturn.trans (passed.mono fun _ _ admitted => admitted.1)
  -- the UPDATE that queues a node belongs to the pass that follows the wait
  have inPass : c.Placed ∧ InPass x c := by
    have first : returned.Placed ∧ InPass x returned := ⟨reached_placed idle reachedReturn, .inl returns⟩
    refine passed.invariant (fun c => c.Placed ∧ InPass x c) first ?_
    rintro c label after ⟨placed, inPass⟩ ⟨-, continues⟩ moved
    exact ⟨placed_step placed (step_moved moved), inPass_step placed inPass continues moved⟩
  have unrestricted : (system ext settings).Reaches everything _ c :=
    reachedQueue.mono fun _ _ _ => trivial
  obtain ⟨history, run⟩ := unrestricted.path
  obtain ⟨⟨choice', rfl⟩, z, newlyQueued, node, rest, point, ⟨row', found', ownedRun, -, -⟩, starts⟩ :=
    promised_queue (claiming_governs idle) run moved' queues
  cases found.symm.trans found'
  have carried : x.Continues z := by
    rcases inPass.2 with ended | ⟨next, carried, here | ⟨_, _, here⟩⟩
    · obtain ⟨op, _, _, code, -⟩ := step_exec moved'
      cases ended.symm.trans code
    · cases here.symm.trans point
    · cases here.symm.trans point
      exact carried
  -- a pass starts nothing that could not start when the wait returned
  have unstopped := carried.going starts.going.1
  obtain ⟨unsettled, inactive, -⟩ := Execution.phase_eq_fresh starts.fresh
  have startable := carried.startable node ⟨unsettled, inactive, starts.ready⟩
  -- so the wait has read a success that made the node ready, which the condition excludes
  obtain ⟨unchanged, key, others, polledId, polledRow, index, rfl, rfl, next, there, read, rfl⟩ :=
    return_success (reached_suspended idle reached) moved polls returns unstopped
  rw [unchanged]
  have member : node ∈ y.nodes := by
    have listed := starts.member
    rw [carried.nodes] at listed
    exact listed
  have ready : y.nodes.any (y.readyAfter key) = true :=
    List.any_eq_true.mpr ⟨node, member, ready_of_startable startable⟩
  have going : y.stopScheduling = false := (Bool.or_eq_false_iff.mp unstopped).1
  have uncanceled : y.canceling = false :=
    (Bool.or_eq_false_iff.mp (carried.uncanceled starts.going.2)).1
  simp only [readsFailureFirst, polls, next, there, Option.any_some, read, decide_true, ready, going,
    uncanceled, Bool.not_true, Bool.or_self, Bool.false_or, Bool.not_eq_true'] at timely
  exact timely

/-- Both roots of the fork have ended, lint in failure, and build is polled first. -/
def Sample.mixedEnds : List Label :=
  Sample.forkQueued ++ [.exec .scheduler (.answer 1), .resume .scheduler] ++
    Sample.workLocally 0 (Sample.exited 0) ++ Sample.workLocally 1 (Sample.exited 1)

def Sample.deployPass : List Label :=
  Sample.block 0 ++ Sample.block 1 ++ Sample.block 0 ++ Sample.block 0 ++ Sample.turns .scheduler 1

def Point.polls : Point → Bool
  | .polling _ _ => true
  | _ => false

theorem Point.polls_eq {point : Point} (polls : point.polls = true) : ∃ x todo, point = .polling x todo := by
  cases point <;> cases polls
  exact ⟨_, _, rfl⟩

theorem fail_stop_mixed_ends : ¬FailStop Sample.ext Sample.settings everything Sample.initial := by
  intro claim
  have passed : ((Sample.run (fun _ _ => true) Sample.mixedEnds).any fun before =>
      (step Sample.ext Sample.settings before (.exec .scheduler (.answer 0))).any fun returned =>
        (before.threads .scheduler).point.polls && (returned.ended .scheduler).any fun point =>
          (Sample.looped point).any fun x =>
            ((system Sample.ext Sample.settings).follow continuesPass returned Sample.deployPass).any fun c =>
              (step Sample.ext Sample.settings c (.exec .scheduler (.answer 0))).any fun after =>
                (c.state.db.nodeRuns.find 3).any (fun row => row.status = .pending && row.jobRunId = x.run.id) &&
                  (after.state.db.nodeRuns.find 3).any (·.status = .queued) &&
                  returned.state.db.hasFailed x.run.id) = true := by decide +kernel
  obtain ⟨before, followed, passed⟩ := (Option.any_eq_true _ _).mp passed
  obtain ⟨returned, moved, passed⟩ := (Option.any_eq_true _ _).mp passed
  obtain ⟨polls, passed⟩ := Bool.and_eq_true_iff.mp passed
  obtain ⟨point, ended, passed⟩ := (Option.any_eq_true _ _).mp passed
  obtain ⟨x, found, passed⟩ := (Option.any_eq_true _ _).mp passed
  rw [Sample.looped_eq found] at ended
  have polls := Point.polls_eq polls
  obtain ⟨c, continued, passed⟩ := (Option.any_eq_true _ _).mp passed
  obtain ⟨after, queued, passed⟩ := (Option.any_eq_true _ _).mp passed
  obtain ⟨both, failed⟩ := Bool.and_eq_true_iff.mp passed
  obtain ⟨pending, isQueued⟩ := Bool.and_eq_true_iff.mp both
  obtain ⟨row, found, here⟩ := (Option.any_eq_true _ _).mp pending
  obtain ⟨row', found', here'⟩ := (Option.any_eq_true _ _).mp isQueued
  simp only [Bool.and_eq_true, decide_eq_true_eq] at here here'
  have reached := Sample.reached_freely followed
  have pass : (system Sample.ext Sample.settings).Reaches
      (fun c label => everything c label ∧ continuesPass c label = true) returned c :=
    (system Sample.ext Sample.settings).follow_reaches (fun _ _ continues => ⟨trivial, continues⟩) continued
  have none := claim before _ returned x c _ after 3 row reached trivial moved
    ⟨⟨_, rfl⟩, polls, ended_eq_some.mp ended⟩ pass trivial queued
    ⟨row, row', found, here.1, found', here'⟩ found here.2
  rw [none] at failed
  cases failed

end PostJen.Server
