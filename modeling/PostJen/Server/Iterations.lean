import PostJen.Server.Journal
import PostJen.Server.Sample

/-! How often the loop of `execute_run` goes round.

A wait that returns the outcome of a node retires that node, so the nodes
without a result bound the iterations. A wait that sees a cancellation returns
a key of no node and retires nothing.
-/

set_option autoImplicit false

open PostJen.Foundations PostJen.Core

namespace PostJen.Server

/-- From one iteration to the next, a running node gets a terminal result and leaves the map. -/
def Retires (x y : Execution) : Prop :=
  ∃ key status, (x.runningNodes.lookup key).isSome ∧ status.terminal = true ∧
    y.results = x.results.insert key status ∧ y.runningNodes = x.runningNodes.erase key

/-- Every iteration that waits retires a node, and there are at most `n + 1` of them. -/
structure Progresses (ext : External) (settings : Settings) (admits : Config → Label → Prop) (start : Config) :
    Prop where
  retires : ∀ c x todo y, (system ext settings).Reaches admits start c →
    (c.threads .scheduler).point = .polling x todo → (c.threads .scheduler).code = .done (.scheduling y) → Retires x y
  /-- an iteration begins -/
  begins : ∀ history c x, (system ext settings).Path admits start history c →
    (c.threads .scheduler).code = .done (.scheduling x) →
    (journal ext settings start history).rounds < x.nodes.length + 1
  /-- the loop ends -/
  ends : ∀ history c x, (system ext settings).Path admits start history c →
    (c.threads .scheduler).code = .done (.finalizing x) →
    (journal ext settings start history).rounds ≤ x.nodes.length + 1

def waitsUndisturbed (c : Config) : Label → Bool
  | .exec .scheduler (.answer _) =>
      match (c.threads .scheduler).point, c.pending .scheduler with
      | .polling _ [], some (.select (.jobStatus id)) =>
          !(c.state.db.jobRuns.find id).any (·.status = .cancelRequested)
      | _, _ => true
  | _ => true

variable {ext : External} {settings : Settings} {start c after : Config} {admits : Config → Label → Prop}
  {history : List Label}

variable (ext settings) in
theorem within_polling (x : Execution) (todo : List String) :
    (block ext settings (.polling x todo)).Within (fun _ => True) fun next =>
      ∀ y, next = .scheduling y → Retires x y ∨ y = x.complete "" .canceled := by
  have reads : ∀ op : Op, op.reads = true → True := fun _ _ => trivial
  have fails : ∀ reason : String, True := fun _ => trivial
  have home : ∀ y, Point.schedulerTick = .scheduling y → Retires x y ∨ y = x.complete "" .canceled := by
    rintro y ⟨⟩
  cases todo with
  | nil =>
    refine within_recover (fun _ _ => trivial) fails home ((within_isCancelRequested reads x.run.id).bind
      fun canceled _ => ?_)
    cases canceled
    · rintro _ ⟨⟩
    · rintro _ ⟨⟩
      exact .inr rfl
  | cons key todo =>
    refine within_recover (fun _ _ => trivial) fails home ?_
    unfold pollPoint
    cases found : x.runningNodes.lookup key with
    | none => rintro _ ⟨⟩
    | some id =>
      refine (Execution.within_pollNode reads id).bind fun outcome reported => ?_
      cases outcome with
      | none => rintro _ ⟨⟩
      | some outcome =>
        rintro _ ⟨⟩
        refine .inl ⟨key, outcome.status, by rw [found]; rfl, ?_, rfl, rfl⟩
        exact NodeStatus.terminal_of_reported (reported outcome rfl)

theorem undisturbed_interrupts
    (run : (system ext settings).Path (fun c label => waitsUndisturbed c label = true) start history c) :
    (journal ext settings start history).interrupts = 0 := by
  induction run with
  | nil => rfl
  | @cons history before after label run admitted moved ih =>
    have moved : step ext settings before label = some after := moved
    by_cases own : ∃ choice, label = .exec .scheduler choice
    · obtain ⟨choice, rfl⟩ := own
      obtain ⟨op, rest, reply, code, next, ran, -⟩ := step_exec moved
      rw [journal_exec run code ran]
      -- an interrupt is only entered when a wait sees a cancellation, which no step of this run does
      by_cases looks : (∃ x, (before.threads .scheduler).point = .polling x []) ∧ ∃ id, op = .select (.jobStatus id)
      · obtain ⟨⟨x, point⟩, id, rfl⟩ := looks
        rw [point]
        cases reply with
        | error why => exact ih
        | ok status =>
          obtain ⟨-, row, found, rfl⟩ := exec_jobStatus ⟨choice, ran⟩
          have unseen : row.status ≠ .cancelRequested := by
            cases choice with
            | answer index =>
              rintro canceled
              simp [waitsUndisturbed, point, next, found, canceled] at admitted
            | fail text => simp [Op.run] at ran
            | _ => cases ran
          simp only [Journal.hear, Journal.seesCancel, decide_eq_false unseen, Bool.false_eq_true, if_false]
          exact ih
      · rcases Journal.hear_interrupts (journal ext settings start history) reply
          (fun x id point same => looks ⟨⟨x, point⟩, id, same⟩) with same | blank
        · exact same.trans ih
        · rw [blank]
          rfl
    · rw [journal_other run fun choice same => own ⟨choice, same⟩]
      exact ih

theorem iterations_progress (ext : External) (settings : Settings) (files : String → Option String) (clock : Nat) :
    Progresses ext settings (fun c label => waitsUndisturbed c label = true)
      (Config.initial ext settings files clock) := by
  have idle := Config.initial_idle ext settings files clock
  refine ⟨?_, ?_, ?_⟩
  · intro c x todo y reached point ended
    have within : (block ext settings (c.threads .scheduler).point).Within (fun _ => True) fun next =>
        ∀ y, next = .scheduling y → Retires x y ∨ y = x.complete "" .canceled := by
      rw [point]
      exact within_polling ext settings x todo
    have leads := reached_confined idle reached .scheduler within
    rw [ended] at leads
    rcases leads y rfl with retires | rfl
    · exact retires
    · -- the sentinel's key would have to belong to a node
      obtain ⟨history, run⟩ := reached.path
      obtain ⟨looping, told, -⟩ := journal_told idle run ended
      rcases told.keyed "" .canceled (by simp [Execution.complete, NodeExecutionOutcome.canceled]) with listed | seen
      · obtain ⟨node, member, empty⟩ := List.mem_map.mp listed
        exact absurd empty (looping.sound.accepted.named node member)
      · exact absurd (undisturbed_interrupts run) seen
  · intro history c x run ended
    obtain ⟨-, -, bound⟩ := journal_told idle run ended
    have calm := undisturbed_interrupts run
    omega
  · intro history c x run ended
    obtain ⟨-, -, bound⟩ := journal_told idle run ended
    have calm := undisturbed_interrupts run
    omega

/-- From a wait with both roots of the fork in the queue to the head of the loop, in a canceled run. -/
def Sample.disturbedWait : List Label := block 1 ++ block 1 ++ block 1 ++ turns .scheduler 1

def Sample.idleRound : List Label :=
  [.resume .scheduler] ++ block 1 ++ block 0 ++ block 0 ++ block 0 ++ block 0 ++ disturbedWait

def Sample.spinning : List Label :=
  forkQueued ++ serve 2 (.cancelRun 1) 2 ++ disturbedWait ++ idleRound ++ idleRound ++ idleRound

/-- While the fork's roots wait for a worker, a canceled run of three nodes begins a fifth iteration. -/
theorem iterations_progress_canceled : ¬Progresses Sample.ext Sample.settings everything Sample.initial := by
  intro claim
  have passed : ((Sample.run (fun _ _ => true) Sample.spinning).any fun c =>
      (c.ended .scheduler).any fun point => (Sample.looped point).any fun x =>
        x.nodes.length = 3 && (journal Sample.ext Sample.settings Sample.initial Sample.spinning.reverse).rounds = 4)
      = true := by decide +kernel
  obtain ⟨c, followed, passed⟩ := (Option.any_eq_true _ _).mp passed
  obtain ⟨point, ended, passed⟩ := (Option.any_eq_true _ _).mp passed
  obtain ⟨x, found, passed⟩ := (Option.any_eq_true _ _).mp passed
  cases Sample.looped_eq found
  obtain ⟨three, four⟩ := Bool.and_eq_true_iff.mp passed
  have begins := claim.begins _ c x (Sample.path_freely followed) (ended_eq_some.mp ended)
  rw [of_decide_eq_true three, of_decide_eq_true four] at begins
  exact absurd begins (Nat.lt_irrefl 4)

end PostJen.Server
