import PostJen.Server.Rules

/-! The blocks of `execute_run` and the row of the run they drive.

Between its preparation and its end the loop executes no statement on
`job_runs`. An error on the way leads to `fail_run_before_start`.
-/

set_option autoImplicit false

open PostJen.Foundations PostJen.Core

namespace PostJen.Server

def Calm : Op → Prop
  | .write (.updateJob _ _) | .transact _ => False
  | _ => True

theorem calm_minor {op : Op} (minor : op.minor = true) : Calm op := by
  cases op with
  | write write => cases write <;> trivial
  | transact _ => cases minor
  | _ => trivial

def Point.looping : Point → Option Nat
  | .scheduling x | .pass x _ _ | .waiting x | .polling x _ | .finalizing x => some x.run.id
  | _ => none

/-- The updates of job runs, each with the block that executes it. -/
inductive Point.Revises : Point → Nat → JobChange → Prop where
  | start (queued : QueuedRun) : Revises (.executeRun queued) queued.id (.running .queued)
  | finish (x : Execution) (message : Option String) : Revises (.finalizing x) x.run.id
      (.finished (determineJobStatus x.results x.canceling) message)
  | fail (point : Point) (runId : Nat) (reason : String) (driving : point.drives = some runId) :
      Revises point runId (.failBeforeStart reason)

theorem Point.makes_revises {point : Point} {id : Nat} {change : JobChange}
    (made : point.makes (.updateJob id change) = true) : point.Revises id change := by
  cases change with
  | failBeforeStart reason => exact .fail point id reason (by cases point <;> simpa [makes] using made)
  | running fromStatus =>
    cases point with
    | executeRun queued =>
      simp only [makes, Bool.and_eq_true, decide_eq_true_eq] at made
      obtain ⟨rfl, rfl⟩ := made
      exact .start queued
    | _ => cases made
  | finished toStatus message =>
    cases point with
    | finalizing x =>
      simp only [makes, Bool.and_eq_true, decide_eq_true_eq] at made
      obtain ⟨rfl, rfl⟩ := made
      exact .finish x message
    | _ => cases made
  | _ => cases point <;> cases made

theorem hosts_driving {slot : Slot} {point : Point} {runId : Nat} (hosted : slot.hosts point = true)
    (driving : point.drives = some runId) : slot = .scheduler := by
  cases point <;> cases driving <;> cases slot <;> first | rfl | cases hosted

theorem revises_scheduler {c : Config} {slot : Slot} {id : Nat} {change : JobChange} (placed : c.Placed)
    (next : c.pending slot = some (.write (.updateJob id change))) :
    slot = .scheduler ∧ (c.threads slot).point.Revises id change := by
  have revises := Point.makes_revises (placed.pending next)
  have hosted := (placed slot).1
  refine ⟨?_, revises⟩
  generalize (c.threads slot).point = point at revises hosted
  cases revises with
  | fail _ _ _ driving => exact hosts_driving hosted driving
  | _ => cases slot <;> first | rfl | cases hosted

section
variable {ext : External} {settings : Settings} {S : Type} {D : Discipline Sig S} {ends : Point → S → Prop}
  {s : S} {runId : Nat}

theorem holds_recover {body : Proc Sig AnyError Point} (stops : S → Prop)
    (fails : ∀ s reason, stops s → (failRunBeforeStart runId reason).Holds D
      (fun _ => ends .schedulerTick) (fun _ => ends .schedulerTick) s)
    (holds : body.Holds D ends (fun _ => stops) s) :
    (recover runId body).Holds D ends (fun why _ => why.elim) s := by
  refine (Proc.holds_bind _ _ _).mpr ((Proc.holds_attempt _ _).mpr (holds.mono ?_ ?_))
  · exact fun next s there => there
  · intro why s stopped
    exact (Proc.holds_bind _ _ _).mpr ((Proc.holds_attempt _ _).mpr (fails s why.chain stopped))

variable (promises : ∀ op before after, Calm op → D.guarantee op before after)
include promises

theorem holds_event {E : Type} [FromSql E] {assertion : S → Prop}
    (kept : D.Kept Calm assertion) (now : assertion s) {event : NewEvent}
    {post : Unit → S → Prop} {failed : E → S → Prop} (next : ∀ s, assertion s → post () s)
    (fails : ∀ why s, assertion s → failed why s) : (run (.event event)).Holds D post failed s := by
  have calm : Calm (.write (.event event)) := trivial
  refine (Proc.holds_bind _ _ _).mpr (Proc.holds_quiet kept calm
    (fun before after => promises _ before after calm) now fun reply s holds => ?_)
  cases reply with
  | ok result => exact next s holds
  | error why => exact fails _ s holds

theorem holds_transition {fromStatus toStatus : JobStatus} {message : Option String} {first second : S → Prop}
    (stable : D.Stable first) (kept : D.Kept Calm second)
    (update : ∀ before (reply : Except SqlError Nat) after, first before →
      D.exec (.write (.updateJob runId (transitionChange fromStatus toStatus message))) before reply after →
      D.guarantee (.write (.updateJob runId (transitionChange fromStatus toStatus message))) before after ∧
        ((∃ result, reply = .ok result) → second after) ∧ ((∃ why, reply = .error why) → first after))
    (now : first s) :
    (transitionJob runId fromStatus toStatus message).Holds D (fun _ => second)
      (fun _ s => first s ∨ second s) s := by
  refine (Proc.holds_bind _ _ _).mpr ((Proc.holds_bind _ _ _).mpr ?_)
  intro before moved reply after ran
  obtain ⟨promised, updated, failed⟩ := update before reply after (stable s before moved now) ran
  refine ⟨promised, ?_⟩
  cases reply with
  | error why => exact .inl (failed ⟨why, rfl⟩)
  | ok result =>
    exact holds_event promises kept (updated ⟨result, rfl⟩) (fun s holds => holds) fun _ _ holds => .inr holds

theorem within_calm_holds {E A : Type} {ending : A → Prop} {program : Proc Sig E A} {assertion : S → Prop}
    (within : program.Within Calm ending)
    (kept : D.Kept Calm assertion) (now : assertion s) :
    program.Holds D (fun value s => ending value ∧ assertion s) (fun _ => assertion) s :=
  within.holds kept.stable (fun op before reply after calm holds ran =>
    ⟨promises op before after calm, kept.frame op before reply after calm ran holds⟩) now

theorem holds_loop {assertion : S → Prop} (kept : D.Kept Calm assertion)
    (continues : ∀ next s, next.looping = some runId → assertion s → ends next s)
    (fails : ∀ s reason, assertion s → (failRunBeforeStart runId reason).Holds D
      (fun _ => ends .schedulerTick) (fun _ => ends .schedulerTick) s)
    {point : Point} (looping : point.looping = some runId) (unfinished : ∀ x, point ≠ .finalizing x)
    (now : assertion s) : (block ext settings point).Holds D ends (fun why _ => why.elim) s := by
  have minor : ∀ op : Op, op.minor = true → Calm op := fun _ => calm_minor
  -- no block of the loop revises a run, except that an error fails it
  have settle : ∀ {body : Proc Sig AnyError Point},
      body.Within Calm (fun next => next.looping = some runId) →
      (recover runId body).Holds D ends (fun why _ => why.elim) s := by
    intro body within
    refine holds_recover assertion fails ((within_calm_holds promises within kept now).mono ?_ fun _ _ holds => holds)
    exact fun next s ended => continues next s ended.1 ended.2
  cases point with
  | scheduling x =>
    cases looping
    refine settle ((x.within_observeCancel (reads_of minor)).bind ?_)
    rintro _ ⟨canceled, rfl⟩
    rfl
  | pass x newlyQueued todo =>
    cases looping
    cases todo with
    | nil =>
      unfold block
      dsimp only
      split
      · exact continues _ s rfl now
      · exact continues _ s rfl now
    | cons node todo =>
      refine settle ((x.within_scheduleNode minor ext newlyQueued node (fun _ _ => trivial) (fun _ _ => trivial)
        (fun _ => trivial) fun _ _ => trivial).bind ?_)
      rintro ⟨x', newlyQueued'⟩ visits
      cases visits <;> rfl
  | waiting x =>
    cases looping
    exact Proc.holds_quiet kept trivial (fun before after => promises _ before after trivial) now
      fun keys s holds => continues _ s rfl holds
  | polling x todo =>
    cases looping
    cases todo with
    | nil =>
      refine settle ((within_isCancelRequested (reads_of minor) _).bind fun canceled _ => ?_)
      cases canceled <;> rfl
    | cons key todo =>
      refine settle ?_
      unfold pollPoint
      split
      · rfl
      · refine (Execution.within_pollNode (reads_of minor) _).bind fun outcome _ => ?_
        cases outcome <;> rfl
  | finalizing x => exact absurd rfl (unfinished x)
  | _ => cases looping

theorem holds_prepare {first second : S → Prop} {queued : QueuedRun}
    (kept : D.Kept Calm first) (later : D.Kept Calm second)
    (update : ∀ before (reply : Except SqlError Nat) after, first before →
      D.exec (.write (.updateJob queued.id (.running .queued))) before reply after →
      D.guarantee (.write (.updateJob queued.id (.running .queued))) before after ∧
        ((∃ result, reply = .ok result) → second after) ∧ ((∃ why, reply = .error why) → first after))
    (continues : ∀ x s, x.run = queued → second s → ends (.scheduling x) s)
    (fails : ∀ s reason, first s ∨ second s → (failRunBeforeStart queued.id reason).Holds D
      (fun _ => ends .schedulerTick) (fun _ => ends .schedulerTick) s) (now : first s) :
    (block ext settings (.executeRun queued)).Holds D ends (fun why _ => why.elim) s := by
  have minor : ∀ op : Op, op.minor = true → Calm op := fun _ => calm_minor
  have calmly : ∀ {A : Type} {program : Proc Sig AnyError A} {ending : A → Prop} {s : S}, first s →
      program.Within Calm ending →
      program.Holds D (fun _ => first) (fun _ s => first s ∨ second s) s := fun now within =>
    (within_calm_holds promises within kept now).mono (fun _ _ ended => ended.2) fun _ _ holds => .inl holds
  refine holds_recover (fun s => first s ∨ second s) fails ((Proc.holds_bind _ _ _).mpr ?_)
  refine (Proc.holds_bind _ _ _).mpr ((calmly now (within_loadForRun (reads_of minor) queued)).mono ?_ fun _ _ holds => holds)
  intro definition s now
  refine (Proc.holds_bind _ _ _).mpr ((calmly now (within_fetch (reads_of minor) _ rfl)).mono ?_ fun _ _ holds => holds)
  intro params s now
  refine (Proc.holds_bind _ _ _).mpr ((calmly now (within_withSecrets (fun _ => trivial) ext settings _)).mono ?_
    fun _ _ holds => holds)
  intro nodes s now
  have inserts : (ensureNodes ext queued.id nodes ∅).Within Calm fun _ => True :=
    within_ensureNodes ext queued.id (fun _ _ => trivial) nodes ∅
  refine (Proc.holds_bind _ _ _).mpr ((calmly now inserts).mono ?_ fun _ _ holds => holds)
  intro nodeIds s now
  refine (Proc.holds_bind _ _ _).mpr ((holds_transition promises kept.stable later update now).mono ?_
    fun _ _ holds => holds)
  exact fun _ s holds => continues _ s rfl holds

theorem holds_finalize {first second : S → Prop} {x : Execution}
    (kept : D.Kept Calm first) (later : D.Kept Calm second)
    (update : ∀ before (reply : Except SqlError Nat) after message, first before →
      D.exec (.write (.updateJob x.run.id (.finished (determineJobStatus x.results x.canceling) message)))
        before reply after →
      D.guarantee (.write (.updateJob x.run.id
        (.finished (determineJobStatus x.results x.canceling) message))) before after ∧
        ((∃ result, reply = .ok result) → second after) ∧ ((∃ why, reply = .error why) → first after))
    (continues : ∀ s, second s → ends .schedulerTick s)
    (fails : ∀ s reason, first s ∨ second s → (failRunBeforeStart x.run.id reason).Holds D
      (fun _ => ends .schedulerTick) (fun _ => ends .schedulerTick) s) (now : first s) :
    (block ext settings (.finalizing x)).Holds D ends (fun why _ => why.elim) s := by
  have minor : ∀ op : Op, op.minor = true → Calm op := fun _ => calm_minor
  refine holds_recover (fun s => first s ∨ second s) fails ((Proc.holds_bind _ _ _).mpr
    ((Proc.holds_bind _ _ _).mpr ?_))
  refine (within_calm_holds promises (within_fetch (reads_of minor) _ rfl) kept now).mono ?_ fun _ _ holds => .inl holds
  rintro current s ⟨-, now⟩
  refine (holds_transition promises kept.stable later ?_ now).mono (fun _ s holds => continues s holds)
    fun _ _ holds => holds
  rw [transitionChange_terminal (determineJobStatus_terminal _ _)]
  exact fun before reply after => update before reply after _

end

end PostJen.Server
