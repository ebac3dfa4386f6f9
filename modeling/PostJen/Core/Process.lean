import PostJen.Core.Executor

/-! The loop of `run_process` that waits for a child.

A turn checks for a cancellation, then for the deadline, and only then looks
for an exit. So an exit is seen only by a turn that begins before the deadline.
-/

set_option autoImplicit false

namespace PostJen.Core

/-- Times are nanoseconds since `started_at`. -/
def second : Nat := 10 ^ 9

def pollInterval : Nat := 500 * 10 ^ 6

/-- When each turn reads the clock, and when it looks for an exit. -/
structure Polls where
  checked : Nat → Nat
  waited : Nat → Nat
  inOrder : ∀ turn, checked turn ≤ waited turn
  apart : ∀ turn, waited turn + pollInterval ≤ checked (turn + 1)

/-- The answers of `child.try_wait()`. -/
abbrev TryWait := Nat → Except String (Option (Option Int))

/-- The loop from a turn on, as many turns as `fuel`. -/
def pollLoop (isCanceled : Nat → Bool) (deadline : Nat) (tryWait : TryWait) (polls : Polls) :
    Nat → Nat → Option NodeExecutionOutcome
  | 0, _ => none
  | fuel + 1, turn =>
      if isCanceled turn then some .canceled
      else if deadline ≤ polls.checked turn then some .timedOut
      else match tryWait (polls.waited turn) with
      | .ok (some code) => some (ChildEnd.exited code).outcome
      | .ok none => pollLoop isCanceled deadline tryWait polls fuel (turn + 1)
      | .error why => some (ChildEnd.checkFailed why).outcome

/-- Two turns begin in a second, so the deadline bounds the turns. -/
def runProcess (isCanceled : Nat → Bool) (timeoutSec : Nat) (spawned : Except String TryWait) (polls : Polls)
    (stdout stderr : String) : Option NodeExecutionOutcome :=
  match spawned with
  | .error why => some (ChildEnd.spawnFailed why).outcome
  | .ok tryWait =>
      (pollLoop isCanceled (timeoutSec * second) tryWait polls (2 * timeoutSec + 1) 0).map fun status =>
        { status with stdout, stderr }

def exitsAt (exitTime : Nat) (code : Option Int) : TryWait :=
  fun now => .ok (if exitTime ≤ now then some code else none)

structure ReportedInTime (timeoutSec exitTime : Nat) (code : Option Int) (polls : Polls) (stdout stderr : String) :
    Prop where
  decided : exitTime < timeoutSec * second → ∃ outcome,
    runProcess (fun _ => false) timeoutSec (.ok (exitsAt exitTime code)) polls stdout stderr = some outcome ∧
      outcome.status = (if code = some 0 then .success else .failed) ∧ outcome.exitCode = code
  timely : ∀ outcome,
    runProcess (fun _ => false) timeoutSec (.ok (exitsAt exitTime code)) polls stdout stderr = some outcome →
      outcome.status = .timedOut → timeoutSec * second ≤ exitTime

section
variable (polls : Polls)

theorem Polls.checked_le {turn later : Nat} (order : turn ≤ later) : polls.checked turn ≤ polls.checked later := by
  induction order with
  | refl => exact Nat.le_refl _
  | step _ ih => exact ih.trans ((polls.inOrder _).trans ((Nat.le_add_right _ _).trans (polls.apart _)))

theorem Polls.interval_le (turn : Nat) : turn * pollInterval ≤ polls.checked turn := by
  induction turn with
  | zero => omega
  | succ turn ih =>
    have waits := polls.inOrder turn
    have sleeps := polls.apart turn
    rw [Nat.succ_mul]
    omega

theorem Polls.deadline_le (timeoutSec : Nat) : timeoutSec * second ≤ polls.checked (2 * timeoutSec) := by
  have turns : 2 * timeoutSec * pollInterval = timeoutSec * second := by
    unfold pollInterval second
    omega
  rw [← turns]
  exact polls.interval_le _

variable {deadline exitTime : Nat} {code : Option Int}

theorem pollLoop_exited (fuel turn : Nat) {seen : Nat} (exited : exitTime ≤ polls.waited seen)
    (early : polls.checked seen < deadline) (ahead : turn ≤ seen) (turns : seen < turn + fuel) :
    pollLoop (fun _ => false) deadline (exitsAt exitTime code) polls fuel turn = some (ChildEnd.exited code).outcome := by
  induction fuel generalizing turn with
  | zero => omega
  | succ fuel ih =>
    have before : ¬deadline ≤ polls.checked turn := Nat.not_le.mpr ((polls.checked_le ahead).trans_lt early)
    simp only [pollLoop, exitsAt, Bool.false_eq_true, if_false, if_neg before]
    by_cases now : exitTime ≤ polls.waited turn
    · rw [if_pos now]
    · rw [if_neg now]
      have later : turn ≠ seen := by
        rintro rfl
        exact now exited
      exact ih (turn + 1) (by omega) (by omega)

theorem pollLoop_timedOut (fuel turn : Nat) (late : ∀ seen, exitTime ≤ polls.waited seen → deadline ≤ polls.checked seen)
    {last : Nat} (passed : deadline ≤ polls.checked last) (turns : last < turn + fuel) :
    pollLoop (fun _ => false) deadline (exitsAt exitTime code) polls fuel turn = some .timedOut ∨ last < turn := by
  induction fuel generalizing turn with
  | zero => exact .inr (by omega)
  | succ fuel ih =>
    by_cases expired : deadline ≤ polls.checked turn
    · left
      simp only [pollLoop, Bool.false_eq_true, if_false, if_pos expired]
    · have running : ¬exitTime ≤ polls.waited turn := fun exited => expired (late turn exited)
      simp only [pollLoop, exitsAt, Bool.false_eq_true, if_false, if_neg expired, if_neg running]
      rcases ih (turn + 1) (by omega) with timedOut | beyond
      · exact .inl timedOut
      · by_cases here : last < turn
        · exact .inr here
        · have same : last = turn := by omega
          exact absurd (same ▸ passed) expired

end

/-- An exit in time is reported exactly when a turn that sees it begins before the deadline. -/
theorem reported_in_time (timeoutSec exitTime : Nat) (code : Option Int) (polls : Polls) (stdout stderr : String) :
    ReportedInTime timeoutSec exitTime code polls stdout stderr ↔
      (exitTime < timeoutSec * second →
        ∃ turn, exitTime ≤ polls.waited turn ∧ polls.checked turn < timeoutSec * second) := by
  have passed := polls.deadline_le timeoutSec
  constructor
  -- if every turn that sees the exit begins too late, the loop times out before it
  · intro law early
    by_contra unseen
    simp only [not_exists, not_and, Nat.not_lt] at unseen
    have timedOut : pollLoop (fun _ => false) (timeoutSec * second) (exitsAt exitTime code) polls
        (2 * timeoutSec + 1) 0 = some .timedOut :=
      (pollLoop_timedOut polls (2 * timeoutSec + 1) 0 unseen passed (by omega)).resolve_right (by omega)
    have ran : runProcess (fun _ => false) timeoutSec (.ok (exitsAt exitTime code)) polls stdout stderr =
        some { NodeExecutionOutcome.timedOut with stdout, stderr } := by
      simp only [runProcess, timedOut, Option.map_some]
    exact absurd (law.timely _ ran rfl) (Nat.not_le.mpr early)
  · intro seen
    have exited : exitTime < timeoutSec * second →
        runProcess (fun _ => false) timeoutSec (.ok (exitsAt exitTime code)) polls stdout stderr =
          some { (ChildEnd.exited code).outcome with stdout, stderr } := by
      intro early
      obtain ⟨turn, there, before⟩ := seen early
      -- a turn in time is one of those that the bound allows
      have within : turn < 0 + (2 * timeoutSec + 1) := by
        by_contra beyond
        have late := passed.trans (polls.checked_le (show 2 * timeoutSec ≤ turn by omega))
        omega
      simp only [runProcess, pollLoop_exited polls _ 0 there before (Nat.zero_le _) within, Option.map_some]
    refine ⟨fun early => ⟨_, exited early, ?_, ?_⟩, fun outcome ran timedOut => ?_⟩
    · simp only [ChildEnd.outcome]
      split <;> rfl
    · simp only [ChildEnd.outcome]
      split <;> rfl
    · by_contra early
      cases (exited (Nat.not_le.mp early)).symm.trans ran
      simp only [ChildEnd.outcome] at timedOut
      split at timedOut <;> cases timedOut

def punctual : Polls where
  checked turn := turn * pollInterval
  waited turn := turn * pollInterval
  inOrder := fun _ => Nat.le_refl _
  apart := fun turn => by rw [Nat.succ_mul]

/-- An exit after 0.7 s, with a timeout of one second. -/
theorem reported_in_time_between_turns : ¬ReportedInTime 1 (700 * 10 ^ 6) (some 0) punctual "" "" := by
  intro law
  have ran : runProcess (fun _ => false) 1 (.ok (exitsAt (700 * 10 ^ 6) (some 0))) punctual "" "" =
      some .timedOut := by decide +kernel
  exact absurd (law.timely _ ran rfl) (by decide)

end PostJen.Core
