import PostJen.Server.Scheduler
import PostJen.Foundations.Runs

/-! The server as one transition system.

A slot holds one task of the runtime: the scheduler, the local worker, the
monitor, the cron loop, a spawned local task or an HTTP request. A task is
suspended before its next operation; a label lets one operation happen, moves
one task past a control point, or changes the environment.
-/

set_option autoImplicit false

open PostJen.Foundations PostJen.Core

namespace PostJen.Server

/-! ## Control points -/

inductive Point where
  | idle
  | schedulerTick
  | executeRun (run : QueuedRun)
  | scheduling (x : Execution)
  | pass (x : Execution) (newlyQueued : List (String × Nat)) (todo : List ResolvedNodeDefinition)
  | waiting (x : Execution)
  | polling (x : Execution) (todo : List String)
  | finalizing (x : Execution)
  | workerTick
  | pickedLocal (task : Task)
  | localTask (task : Task)
  | monitorTick
  | sweep (todo : List OfflineNodeRun)
  | cronTick
  | cron (now : Nat) (todo : List CronJob)
  | received (request : Request)
  | picked (task : Task) (outputs : List ResolvedNodeOutput)
  | responded (response : Except ApiError Response)

/-- Log an error and go on at a point. -/
def otherwise (point : Point) (body : Proc Sig AnyError Point) : Proc Sig Empty Point := do
  match ← body.attempt with
  | .ok next => return next
  | .error _ => return point

/-- `process_next_run` around `execute_run`: an error fails the run. -/
def recover (runId : Nat) (body : Proc Sig AnyError Point) : Proc Sig Empty Point := do
  match ← body.attempt with
  | .ok next => return next
  | .error why =>
      let _ ← (failRunBeforeStart runId why.chain).attempt
      return .schedulerTick

def respond (body : Proc Sig ApiError Answer) : Proc Sig Empty Point := do
  match ← body.attempt with
  | .ok (.response response) => return .responded (.ok response)
  | .ok (.picked task outputs) => return .picked task outputs
  | .error why => return .responded (.error why)

def pickRun : Proc Sig AnyError Point := do
  let queued ← fetch .nextQueuedRun
  match (queued : Option QueuedRun) with
  | none => return .schedulerTick
  | some queued => return .executeRun queued

def pollPoint (x : Execution) (nodeId : String) (todo : List String) : Proc Sig AnyError Point :=
  match x.runningNodes.lookup nodeId with
  | none => .done (.polling x todo)
  | some nodeRunId => do
      match ← Execution.pollNode nodeRunId with
      | some outcome => return .scheduling (x.complete nodeId outcome)
      | none => return .polling x todo

def cancelPoint (x : Execution) : Proc Sig AnyError Point := do
  if ← isCancelRequested x.run.id then
    return .scheduling (x.complete "" .canceled)
  else return .waiting x

def workerPoint : Proc Sig AnyError Point := do
  match ← pickLocalTask with
  | none => return .workerTick
  | some task => return .pickedLocal task

/-- The procedure that runs from a control point to the next. -/
def block (ext : External) (settings : Settings) : Point → Proc Sig Empty Point
  | .idle => .done .idle
  | .schedulerTick => otherwise .schedulerTick pickRun
  | .executeRun queued => recover queued.id do
      return .scheduling (← prepareRun ext settings queued)
  | .scheduling x => recover x.run.id do
      let x ← x.observeCancel
      return .pass x [] x.nodes
  | .pass x newlyQueued [] =>
      let x := x.launch newlyQueued
      if x.runningNodes.entries = [] then .done (.finalizing x) else .done (.waiting x)
  | .pass x newlyQueued (node :: todo) => recover x.run.id do
      let (x, newlyQueued) ← x.scheduleNode ext newlyQueued node
      return .pass x newlyQueued todo
  | .waiting x => .call (.order x.runningNodes.keys) fun keys => .done (.polling x keys)
  | .polling x [] => recover x.run.id (cancelPoint x)
  | .polling x (nodeId :: todo) => recover x.run.id (pollPoint x nodeId todo)
  | .finalizing x => recover x.run.id do
      finalizeJob x.run.id (determineJobStatus x.results x.canceling)
      return .schedulerTick
  | .workerTick => otherwise .workerTick workerPoint
  | .pickedLocal task => .done (.pickedLocal task)
  | .localTask task => otherwise .idle do
      executeLocalTask ext settings task
      return .idle
  | .monitorTick => otherwise .monitorTick do
      return .sweep (← checkAgentHeartbeats)
  | .sweep [] => .done .monitorTick
  | .sweep (node :: todo) => otherwise .monitorTick do
      sweepNode node
      return .sweep todo
  | .cronTick => otherwise .cronTick do
      let (jobs, now) ← cronJobs
      return .cron now jobs
  | .cron _ [] => .done .cronTick
  | .cron now (job :: todo) => otherwise .cronTick do
      triggerCronJob ext now job
      return .cron now todo
  | .received request => respond (handle ext settings request)
  | .picked task outputs => respond (answerTask task outputs)
  | .responded response => .done (.responded response)

/-! ## Configurations -/

inductive Slot where
  | scheduler
  | localWorker
  | monitor
  | cron
  | localTask (n : Nat)
  | request (n : Nat)
  deriving DecidableEq

structure Config where
  state : State
  threads : Slot → Thread Sig Point

inductive Label where
  | exec (slot : Slot) (choice : Choice)
  | resume (slot : Slot)
  | spawn (n : Nat)
  | receive (n : Nat) (request : Request)
  | drop (n : Nat)
  | clock (now : Nat)
  | edit (path : String) (contents : Option String)
  | boot (hostname : String)

section
variable (ext : External) (settings : Settings)

def enter (point : Point) : Thread Sig Point := ⟨point, block ext settings point⟩

def Slot.home : Slot → Point
  | .scheduler => .schedulerTick
  | .localWorker => .workerTick
  | .monitor => .monitorTick
  | .cron => .cronTick
  | .localTask _ => .idle
  | .request _ => .idle

def Config.put (c : Config) (slot : Slot) (thread : Thread Sig Point) : Config :=
  { c with threads := Function.update c.threads slot thread }

/-- The INSERT of `register_local_agent`, which precedes every task. -/
def registerLocalAgent (hostname : String) : Write :=
  .agents (.registerLocal hostname (ext.sha256Hex localAgentId))

def step (c : Config) : Label → Option Config
  | .exec slot choice =>
      match (c.threads slot).code with
      | .call op rest => (op.run ext choice c.state).map fun (reply, state) =>
          Config.put ⟨state, c.threads⟩ slot ⟨(c.threads slot).point, rest reply⟩
      | _ => none
  | .resume slot =>
      match (c.threads slot).code with
      | .done point => some (c.put slot (enter ext settings point))
      | _ => none
  | .spawn n =>
      match (c.threads .localWorker).code, (c.threads (.localTask n)).code with
      | .done (.pickedLocal task), .done .idle =>
          some ((c.put .localWorker (enter ext settings .workerTick)).put (.localTask n)
            (enter ext settings (.localTask task)))
      | _, _ => none
  | .receive n request =>
      match (c.threads (.request n)).code with
      | .done .idle => some (c.put (.request n) (enter ext settings (.received request)))
      | _ => none
  | .drop n => some (c.put (.request n) (enter ext settings .idle))
  | .clock now => some { c with state := { c.state with clock := now } }
  | .edit path contents =>
      some { c with state := { c.state with files := Function.update c.state.files path contents } }
  | .boot hostname =>
      match (registerLocalAgent ext hostname).apply c.state.now c.state.db with
      | .ok (_, db) => some ⟨{ c.state with db }, fun slot => enter ext settings slot.home⟩
      | .error _ => none

def system : Machine Config Label := ⟨step ext settings⟩

def everything (_ : Config) (_ : Label) : Prop := True

def Config.initial (files : String → Option String) (clock : Nat) : Config where
  state := ⟨.empty, files, fun _ => none, clock⟩
  threads := fun _ => enter ext settings .idle

theorem Config.initial_idle (files : String → Option String) (clock : Nat) (slot : Slot) :
    (Config.initial ext settings files clock).threads slot = enter ext settings .idle := rfl

end

end PostJen.Server
