import PostJen.Foundations.Procedure

/-! Assertions about procedures that run under interference.

`Holds` reads a procedure as a set of obligations. Before each statement the
state may move along the rely; the statement itself must meet the guarantee;
the assertion reached at the end is the caller's. Threads cut a program with
loops into procedures at named control points, each with its own assertion.
-/

set_option autoImplicit false

namespace PostJen.Foundations

/-- What one thread may do and what it suffers from the others. -/
structure Discipline (I : Signature) (S : Type) where
  exec : (op : I.Op) → S → I.Reply op → S → Prop
  rely : S → S → Prop
  guarantee : I.Op → S → S → Prop

section
variable {I : Signature} {S : Type} {E F A B : Type}

def Discipline.Stable (D : Discipline I S) (assertion : S → Prop) : Prop :=
  ∀ before after, D.rely before after → assertion before → assertion after

structure Discipline.Preorder (D : Discipline I S) : Prop where
  refl : ∀ s, D.rely s s
  trans : ∀ a b c, D.rely a b → D.rely b c → D.rely a c

/-- An assertion that neither interference nor a quiet statement falsifies. -/
structure Discipline.Kept (D : Discipline I S) (quiet : I.Op → Prop) (assertion : S → Prop) : Prop where
  stable : D.Stable assertion
  frame : ∀ op before reply after, quiet op → D.exec op before reply after →
    assertion before → assertion after

namespace Discipline.Kept

variable {D : Discipline I S} {quiet : I.Op → Prop} {first second : S → Prop}

theorem and (left : D.Kept quiet first) (right : D.Kept quiet second) :
    D.Kept quiet fun s => first s ∧ second s where
  stable := fun before after moved both =>
    ⟨left.stable before after moved both.1, right.stable before after moved both.2⟩
  frame := fun op before reply after isQuiet ran both =>
    ⟨left.frame op before reply after isQuiet ran both.1,
      right.frame op before reply after isQuiet ran both.2⟩

theorem all {A : Sort*} {family : A → S → Prop} (each : ∀ a, D.Kept quiet (family a)) :
    D.Kept quiet fun s => ∀ a, family a s where
  stable := fun before after moved holds a => (each a).stable before after moved (holds a)
  frame := fun op before reply after isQuiet ran holds a =>
    (each a).frame op before reply after isQuiet ran (holds a)

theorem const (fact : Prop) : D.Kept quiet fun _ => fact where
  stable := fun _ _ _ holds => holds
  frame := fun _ _ _ _ _ _ holds => holds

theorem imp {fact : Prop} (later : D.Kept quiet first) : D.Kept quiet fun s => fact → first s :=
  all fun _ => later

end Discipline.Kept

def Proc.Holds (D : Discipline I S) (post : A → S → Prop) (failed : E → S → Prop) :
    Proc I E A → S → Prop
  | .done value, s => post value s
  | .halt why, s => failed why s
  | .call op rest, s => ∀ before, D.rely s before → ∀ reply after, D.exec op before reply after →
      D.guarantee op before after ∧ (rest reply).Holds D post failed after

namespace Proc

variable {D : Discipline I S} {post : A → S → Prop} {failed : E → S → Prop}

@[simp] theorem holds_done (value : A) (s : S) :
    (Proc.done value).Holds D post failed s ↔ post value s := Iff.rfl

@[simp] theorem holds_halt (why : E) (s : S) :
    (Proc.halt why).Holds D post failed s ↔ failed why s := Iff.rfl

theorem holds_call (op : I.Op) (rest : I.Reply op → Proc I E A) (s : S) :
    (Proc.call op rest).Holds D post failed s ↔
      ∀ before, D.rely s before → ∀ reply after, D.exec op before reply after →
        D.guarantee op before after ∧ (rest reply).Holds D post failed after := Iff.rfl

theorem holds_bind (program : Proc I E B) (next : B → Proc I E A) (s : S) :
    (program >>= next).Holds D post failed s ↔
      program.Holds D (fun value s => (next value).Holds D post failed s) failed s := by
  induction program generalizing s with
  | done value => exact Iff.rfl
  | halt why => exact Iff.rfl
  | call op rest ih =>
      exact forall₅_congr fun _ _ reply after _ => and_congr_right fun _ => ih reply after

theorem holds_attempt {post : Except E A → S → Prop} {failed : F → S → Prop}
    (program : Proc I E A) (s : S) :
    program.attempt.Holds D post failed s ↔
      program.Holds D (fun value => post (.ok value)) (fun why => post (.error why)) s := by
  induction program generalizing s with
  | done value => exact Iff.rfl
  | halt why => exact Iff.rfl
  | call op rest ih =>
      exact forall₅_congr fun _ _ reply after _ => and_congr_right fun _ => ih reply after

theorem Holds.mono {program : Proc I E A} {s : S} {weaker : A → S → Prop} {excused : E → S → Prop}
    (holds : program.Holds D post failed s) (implies : ∀ value s, post value s → weaker value s)
    (excuses : ∀ why s, failed why s → excused why s) : program.Holds D weaker excused s := by
  induction program generalizing s with
  | done value => exact implies value s holds
  | halt why => exact excuses why s holds
  | call op rest ih =>
      intro before moved reply after ran
      obtain ⟨promised, continues⟩ := holds before moved reply after ran
      exact ⟨promised, ih reply continues⟩

/-- What is proved of a procedure holds at the end of each of its own executions. -/
theorem Holds.returns {program : Proc I E A} {s last : S} {outcome : Except E A} (calm : ∀ s, D.rely s s)
    (holds : program.Holds D post failed s)
    (returned : (program.attempt (F := F)).Returns D.exec s outcome last) :
    (∀ value, outcome = .ok value → post value last) ∧ ∀ why, outcome = .error why → failed why last := by
  induction program generalizing s with
  | done value =>
    obtain ⟨rfl, rfl⟩ := returned
    exact ⟨by rintro _ ⟨⟩; exact holds, by rintro _ ⟨⟩⟩
  | halt why =>
    obtain ⟨rfl, rfl⟩ := returned
    exact ⟨by rintro _ ⟨⟩, by rintro _ ⟨⟩; exact holds⟩
  | call op rest ih =>
    obtain ⟨reply, middle, ran, returned⟩ := returned
    exact ih reply (holds s (calm s) reply middle ran).2 returned

theorem Holds.and {program : Proc I E A} {s : S} {other : A → S → Prop} {otherFailed : E → S → Prop}
    (first : program.Holds D post failed s) (second : program.Holds D other otherFailed s) :
    program.Holds D (fun value s => post value s ∧ other value s)
      (fun why s => failed why s ∧ otherFailed why s) s := by
  induction program generalizing s with
  | done value => exact ⟨first, second⟩
  | halt why => exact ⟨first, second⟩
  | call op rest ih =>
      intro before moved reply after ran
      obtain ⟨promised, continues⟩ := first before moved reply after ran
      exact ⟨promised, ih reply continues (second before moved reply after ran).2⟩

theorem Holds.frame {program : Proc I E A} {s : S} {assertion : S → Prop} (holds : program.Holds D post failed s)
    (kept : D.Kept (fun _ => True) assertion) (now : assertion s) :
    program.Holds D (fun value s => post value s ∧ assertion s) (fun why s => failed why s ∧ assertion s) s := by
  induction program generalizing s with
  | done value => exact ⟨holds, now⟩
  | halt why => exact ⟨holds, now⟩
  | call op rest ih =>
      intro before moved reply after ran
      obtain ⟨promised, continues⟩ := holds before moved reply after ran
      have later := kept.frame op before reply after trivial ran (kept.stable s before moved now)
      exact ⟨promised, ih reply continues later⟩

theorem Holds.rely {program : Proc I E A} {s s' : S} (order : D.Preorder)
    (postStable : ∀ value, D.Stable (post value)) (failedStable : ∀ why, D.Stable (failed why))
    (holds : program.Holds D post failed s) (moved : D.rely s s') :
    program.Holds D post failed s' := by
  cases program with
  | done value => exact postStable value s s' moved holds
  | halt why => exact failedStable why s s' moved holds
  | call op rest =>
      intro before later
      exact holds before (order.trans _ _ _ moved later)

theorem holds_quiet {quiet : I.Op → Prop} {assertion : S → Prop} (kept : D.Kept quiet assertion)
    {op : I.Op} {rest : I.Reply op → Proc I E A} {s : S} (isQuiet : quiet op)
    (promises : ∀ before after, D.guarantee op before after) (now : assertion s)
    (next : ∀ reply s, assertion s → (rest reply).Holds D post failed s) :
    (Proc.call op rest).Holds D post failed s := by
  intro before moved reply after ran
  exact ⟨promises before after, next reply after
    (kept.frame op before reply after isQuiet ran (kept.stable s before moved now))⟩

theorem Within.holds {allowed : I.Op → Prop} {ends : A → Prop} {program : Proc I E A}
    {assertion : S → Prop} (within : program.Within allowed ends) (stable : D.Stable assertion)
    (keeps : ∀ op before reply after, allowed op → assertion before → D.exec op before reply after →
      D.guarantee op before after ∧ assertion after) {s : S} (now : assertion s) :
    program.Holds D (fun value s => ends value ∧ assertion s) (fun _ => assertion) s := by
  induction program generalizing s with
  | done value => exact ⟨within, now⟩
  | halt why => exact now
  | call op rest ih =>
      intro before moved reply after ran
      obtain ⟨promised, kept⟩ :=
        keeps op before reply after within.1 (stable s before moved now) ran
      exact ⟨promised, ih reply (within.2 reply) kept⟩

theorem holds_trivial (program : Proc I E A) (s : S)
    (promises : ∀ op before reply after, D.exec op before reply after → D.guarantee op before after)
    (ends : ∀ value s, post value s) (halts : ∀ why s, failed why s) :
    program.Holds D post failed s := by
  induction program generalizing s with
  | done value => exact ends value s
  | halt why => exact halts why s
  | call op rest ih =>
      exact fun before _ reply after ran => ⟨promises op before reply after ran, ih reply after⟩

end Proc

/-- Two disciplines about two parts of one state. -/
structure Discipline.Joins {S₁ S₂ : Type} (D : Discipline I S) (left : S → S₁) (D₁ : Discipline I S₁)
    (right : S → S₂) (D₂ : Discipline I S₂) : Prop where
  exec : ∀ op before reply after, D.exec op before reply after →
    D₁.exec op (left before) reply (left after) ∧ D₂.exec op (right before) reply (right after)
  rely : ∀ before after, D.rely before after →
    D₁.rely (left before) (left after) ∧ D₂.rely (right before) (right after)
  guarantee : ∀ op before after, D₁.guarantee op (left before) (left after) →
    D₂.guarantee op (right before) (right after) → D.guarantee op before after

/-- A proof about each part is a proof about the whole. -/
theorem Proc.Holds.join {S₁ S₂ : Type} {D : Discipline I S} {D₁ : Discipline I S₁} {D₂ : Discipline I S₂}
    {left : S → S₁} {right : S → S₂} (joins : D.Joins left D₁ right D₂) {post₁ : A → S₁ → Prop}
    {post₂ : A → S₂ → Prop} {failed₁ : E → S₁ → Prop} {failed₂ : E → S₂ → Prop} {program : Proc I E A} {s : S}
    (first : program.Holds D₁ post₁ failed₁ (left s)) (second : program.Holds D₂ post₂ failed₂ (right s)) :
    program.Holds D (fun value s => post₁ value (left s) ∧ post₂ value (right s))
      (fun why s => failed₁ why (left s) ∧ failed₂ why (right s)) s := by
  induction program generalizing s with
  | done value => exact ⟨first, second⟩
  | halt why => exact ⟨first, second⟩
  | call op rest ih =>
      intro before moved reply after ran
      obtain ⟨movedLeft, movedRight⟩ := joins.rely s before moved
      obtain ⟨ranLeft, ranRight⟩ := joins.exec op before reply after ran
      obtain ⟨promisedLeft, continuesLeft⟩ := first _ movedLeft reply _ ranLeft
      obtain ⟨promisedRight, continuesRight⟩ := second _ movedRight reply _ ranRight
      exact ⟨joins.guarantee op before after promisedLeft promisedRight, ih reply continuesLeft continuesRight⟩

end

structure Thread (I : Signature) (P : Type) where
  point : P
  code : Proc I Empty P

namespace Thread

variable {I : Signature} {S P : Type}

/-- The rest of the block meets its obligations and ends at a control point
whose assertion holds. The discipline may depend on the block. -/
def Holds (D : P → Discipline I S) (assertion : P → S → Prop) (thread : Thread I P) (s : S) : Prop :=
  thread.code.Holds (D thread.point) assertion (fun why _ => why.elim) s

variable {D : P → Discipline I S} {assertion : P → S → Prop} {thread : Thread I P} {s s' : S}

theorem Holds.step (order : (D thread.point).Preorder) (holds : thread.Holds D assertion s)
    {op : I.Op} {rest : I.Reply op → Proc I Empty P} (next : thread.code = .call op rest)
    {reply : I.Reply op} (ran : (D thread.point).exec op s reply s') :
    (D thread.point).guarantee op s s' ∧
      Holds D assertion { thread with code := rest reply } s' := by
  unfold Thread.Holds at holds
  rw [next] at holds
  exact holds s (order.refl s) reply s' ran

theorem Holds.rely (order : (D thread.point).Preorder)
    (stable : ∀ point, (D thread.point).Stable (assertion point))
    (holds : thread.Holds D assertion s) (moved : (D thread.point).rely s s') :
    thread.Holds D assertion s' :=
  Proc.Holds.rely order stable (fun why => why.elim) holds moved

theorem Holds.at_point (holds : thread.Holds D assertion s) {point : P}
    (ended : thread.code = .done point) : assertion point s := by
  unfold Thread.Holds at holds
  rw [ended] at holds
  exact holds

end Thread

end PostJen.Foundations
