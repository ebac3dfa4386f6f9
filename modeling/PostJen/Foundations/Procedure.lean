import Mathlib.Data.Set.Basic

/-! Procedures over a signature of atomic statements.

A procedure is the syntax tree of a loop-free block: each `call` names one
statement and continues with its reply. What a statement does to the shared
state is supplied separately, so that a tree can be suspended before any of
its statements while other procedures run.
-/

set_option autoImplicit false

namespace PostJen.Foundations

structure Signature where
  Op : Type
  Reply : Op → Type

abbrev Signature.Event (I : Signature) : Type := (op : I.Op) × I.Reply op

inductive Proc (I : Signature) (E A : Type) : Type where
  | done : A → Proc I E A
  | halt : E → Proc I E A
  | call (op : I.Op) : (I.Reply op → Proc I E A) → Proc I E A

namespace Proc

variable {I : Signature} {E F A B : Type}

def bind : Proc I E A → (A → Proc I E B) → Proc I E B
  | .done value, next => next value
  | .halt why, _ => .halt why
  | .call op rest, next => .call op fun reply => (rest reply).bind next

instance : Monad (Proc I E) where
  pure := .done
  bind := .bind

/-- Run to the end and hand a stop to the caller as a value. -/
def attempt : Proc I E A → Proc I F (Except E A)
  | .done value => .done (.ok value)
  | .halt why => .done (.error why)
  | .call op rest => .call op fun reply => (rest reply).attempt

@[simp] theorem pure_eq (value : A) : (pure value : Proc I E A) = .done value := rfl

@[simp] theorem done_bind (value : A) (next : A → Proc I E B) :
    (Proc.done value >>= next) = next value := rfl

@[simp] theorem halt_bind (why : E) (next : A → Proc I E B) :
    ((Proc.halt why : Proc I E A) >>= next) = .halt why := rfl

@[simp] theorem call_bind (op : I.Op) (rest : I.Reply op → Proc I E A) (next : A → Proc I E B) :
    (Proc.call op rest >>= next) = .call op fun reply => rest reply >>= next := rfl

/-- Every statement that the procedure can reach is `allowed`, and it ends with
a value in `ends` unless it stops. -/
def Within (allowed : I.Op → Prop) (ends : A → Prop) : Proc I E A → Prop
  | .done value => ends value
  | .halt _ => True
  | .call op rest => allowed op ∧ ∀ reply, (rest reply).Within allowed ends

section
variable {allowed wider : I.Op → Prop} {ends : A → Prop}

@[simp] theorem within_done (value : A) :
    (Proc.done value : Proc I E A).Within allowed ends ↔ ends value := Iff.rfl

@[simp] theorem within_halt (why : E) :
    (Proc.halt why : Proc I E A).Within allowed ends := trivial

@[simp] theorem within_call (op : I.Op) (rest : I.Reply op → Proc I E A) :
    (Proc.call op rest).Within allowed ends ↔
      allowed op ∧ ∀ reply, (rest reply).Within allowed ends := Iff.rfl

theorem within_true (program : Proc I E A) : program.Within (fun _ => True) fun _ => True := by
  induction program with
  | done value => trivial
  | halt why => trivial
  | call op rest ih => exact ⟨trivial, ih⟩

theorem Within.bind {program : Proc I E A} {next : A → Proc I E B} {last : B → Prop}
    (first : program.Within allowed ends)
    (rest : ∀ value, ends value → (next value).Within allowed last) :
    (program >>= next).Within allowed last := by
  induction program with
  | done value => exact rest value first
  | halt why => trivial
  | call op _ ih => exact ⟨first.1, fun reply => ih reply (first.2 reply)⟩

theorem Within.attempt {program : Proc I E A} (within : program.Within allowed ends) :
    (program.attempt (F := F)).Within allowed fun outcome => ∀ value, outcome = .ok value → ends value := by
  induction program with
  | done value =>
    rintro _ ⟨⟩
    exact within
  | halt why => rintro _ ⟨⟩
  | call op _ ih => exact ⟨within.1, fun reply => ih reply (within.2 reply)⟩

theorem Within.mono {program : Proc I E A} {more : A → Prop} (within : program.Within allowed ends)
    (ops : ∀ op, allowed op → wider op) (values : ∀ value, ends value → more value) :
    program.Within wider more := by
  induction program with
  | done value => exact values value within
  | halt why => trivial
  | call op _ ih => exact ⟨ops op within.1, fun reply => ih reply (within.2 reply)⟩

theorem Within.first {program : Proc I E A} {next : A → Proc I E B} {last : B → Prop}
    (within : (program >>= next).Within allowed last) : program.Within allowed fun _ => True := by
  induction program with
  | done value => trivial
  | halt why => trivial
  | call op rest ih => exact ⟨within.1, fun reply => ih reply (within.2 reply)⟩

theorem Within.attempted {program : Proc I E A} {last : Except E A → Prop}
    (within : (program.attempt (F := F)).Within allowed last) : program.Within allowed fun _ => True := by
  induction program with
  | done value => trivial
  | halt why => trivial
  | call op rest ih => exact ⟨within.1, fun reply => ih reply (within.2 reply)⟩

/-- Every statement that the procedure can reach satisfies `P` together with
what follows it, if each reply is a possible one. -/
def Each (possible : (op : I.Op) → I.Reply op → Prop) (P : (op : I.Op) → (I.Reply op → Proc I E A) → Prop) :
    Proc I E A → Prop
  | .done _ => True
  | .halt _ => True
  | .call op rest => P op rest ∧ ∀ reply, possible op reply → (rest reply).Each possible P

theorem Within.each {possible : (op : I.Op) → I.Reply op → Prop}
    {P : (op : I.Op) → (I.Reply op → Proc I E A) → Prop} {program : Proc I E A}
    (within : program.Within allowed ends) (holds : ∀ op rest, allowed op → P op rest) :
    program.Each possible P := by
  induction program with
  | done value => trivial
  | halt why => trivial
  | call op rest ih => exact ⟨holds op rest within.1, fun reply _ => ih reply (within.2 reply)⟩

theorem Each.mono {possible : (op : I.Op) → I.Reply op → Prop} {P Q : (op : I.Op) → (I.Reply op → Proc I E A) → Prop}
    {program : Proc I E A} (each : program.Each possible P) (implies : ∀ op rest, P op rest → Q op rest) :
    program.Each possible Q := by
  induction program with
  | done value => trivial
  | halt why => trivial
  | call op rest ih => exact ⟨implies op rest each.1, fun reply can => ih reply (each.2 reply can)⟩

theorem Each.bind {possible : (op : I.Op) → I.Reply op → Prop} {P : (op : I.Op) → (I.Reply op → Proc I E B) → Prop}
    {program : Proc I E A} {next : A → Proc I E B}
    (first : program.Each possible fun op rest => P op fun reply => rest reply >>= next)
    (rest : ∀ value, (next value).Each possible P) : (program >>= next).Each possible P := by
  induction program with
  | done value => exact rest value
  | halt why => trivial
  | call op _ ih => exact ⟨first.1, fun reply can => ih reply (first.2 reply can)⟩

theorem Each.attempt {possible : (op : I.Op) → I.Reply op → Prop}
    {P : (op : I.Op) → (I.Reply op → Proc I F (Except E A)) → Prop} {program : Proc I E A}
    (each : program.Each possible fun op rest => P op fun reply => (rest reply).attempt) :
    (program.attempt (F := F)).Each possible P := by
  induction program with
  | done value => trivial
  | halt why => trivial
  | call op _ ih => exact ⟨each.1, fun reply can => ih reply (each.2 reply can)⟩

def Ends (possible : (op : I.Op) → I.Reply op → Prop) : Proc I E A → A → Prop
  | .done value, result => value = result
  | .halt _, _ => False
  | .call op rest, result => ∃ reply, possible op reply ∧ (rest reply).Ends possible result

def Reaches (possible : (op : I.Op) → I.Reply op → Prop) (kind : I.Op → Prop) : Proc I E A → Prop
  | .done _ => False
  | .halt _ => False
  | .call op rest => kind op ∨ ∃ reply, possible op reply ∧ (rest reply).Reaches possible kind

theorem reaches_bind {possible : (op : I.Op) → I.Reply op → Prop} {kind : I.Op → Prop} (program : Proc I E A)
    (next : A → Proc I E B) :
    (program >>= next).Reaches possible kind ↔
      program.Reaches possible kind ∨ ∃ value, program.Ends possible value ∧ (next value).Reaches possible kind := by
  induction program with
  | done value =>
    constructor
    · exact fun reached => .inr ⟨value, rfl, reached⟩
    · rintro (never | ⟨_, rfl, reached⟩)
      · exact never.elim
      · exact reached
  | halt why =>
    constructor
    · exact False.elim
    · rintro (never | ⟨_, never, -⟩) <;> exact never.elim
  | call op rest ih =>
    constructor
    · rintro (here | ⟨reply, can, reached⟩)
      · exact .inl (.inl here)
      · rcases (ih reply).mp reached with first | ⟨value, ended, reached⟩
        · exact .inl (.inr ⟨reply, can, first⟩)
        · exact .inr ⟨value, ⟨reply, can, ended⟩, reached⟩
    · rintro ((here | ⟨reply, can, reached⟩) | ⟨value, ⟨reply, can, ended⟩, reached⟩)
      · exact .inl here
      · exact .inr ⟨reply, can, (ih reply).mpr (.inl reached)⟩
      · exact .inr ⟨reply, can, (ih reply).mpr (.inr ⟨value, ended, reached⟩)⟩

theorem ends_bind {possible : (op : I.Op) → I.Reply op → Prop} (program : Proc I E A) (next : A → Proc I E B) (result : B) :
    (program >>= next).Ends possible result ↔ ∃ value, program.Ends possible value ∧ (next value).Ends possible result := by
  induction program with
  | done value =>
    constructor
    · exact fun ended => ⟨value, rfl, ended⟩
    · rintro ⟨_, rfl, ended⟩
      exact ended
  | halt why =>
    constructor
    · exact False.elim
    · rintro ⟨_, never, -⟩
      exact never.elim
  | call op rest ih =>
    constructor
    · rintro ⟨reply, can, ended⟩
      obtain ⟨value, first, last⟩ := (ih reply).mp ended
      exact ⟨value, ⟨reply, can, first⟩, last⟩
    · rintro ⟨value, ⟨reply, can, first⟩, last⟩
      exact ⟨reply, can, (ih reply).mpr ⟨value, first, last⟩⟩

/-- Whatever the possible replies, the procedure comes to a statement with a target, and the first target is as said. -/
def Meets {T : Type} (possible : (op : I.Op) → I.Reply op → Prop) (target : I.Op → Option T) (P : T → Prop) :
    Proc I E A → Prop
  | .done _ => False
  | .halt _ => False
  | .call op rest => (∃ found, target op = some found ∧ P found) ∨
      target op = none ∧ ∀ reply, possible op reply → (rest reply).Meets possible target P

/-- Until a statement is answered as said, whatever the other replies, the procedure ends only as said. -/
def Until (hits : (op : I.Op) → I.Reply op → Prop) (ends : A → Prop) (fails : E → Prop) : Proc I E A → Prop
  | .done value => ends value
  | .halt why => fails why
  | .call op rest => ∀ reply, hits op reply ∨ (rest reply).Until hits ends fails

section
variable {hits : (op : I.Op) → I.Reply op → Prop} {values : A → Prop} {fails : E → Prop}

theorem Until.bind {program : Proc I E A} {next : A → Proc I E B} {last : B → Prop}
    (first : program.Until hits values fails) (rest : ∀ value, values value → (next value).Until hits last fails) :
    (program >>= next).Until hits last fails := by
  induction program with
  | done value => exact rest value first
  | halt why => exact first
  | call op _ ih => exact fun reply => (first reply).imp_right (ih reply)

theorem Until.attempt {program : Proc I E A} {ends : Except E A → Prop} {never : F → Prop}
    (first : program.Until hits (fun value => ends (.ok value)) fun why => ends (.error why)) :
    program.attempt.Until hits ends never := by
  induction program with
  | done value => exact first
  | halt why => exact first
  | call op _ ih => exact fun reply => (first reply).imp_right (ih reply)

theorem Until.mono {program : Proc I E A} {ends : A → Prop} {halts : E → Prop} (first : program.Until hits values fails)
    (value : ∀ value, values value → ends value) (why : ∀ why, fails why → halts why) : program.Until hits ends halts := by
  induction program with
  | done result => exact value result first
  | halt cause => exact why cause first
  | call op _ ih => exact fun reply => (first reply).imp_right (ih reply)

theorem Within.until {program : Proc I E A} (within : program.Within allowed ends) (stops : ∀ why, fails why) :
    program.Until hits ends fails := by
  induction program with
  | done value => exact within
  | halt why => exact stops why
  | call op rest ih => exact fun reply => .inr (ih reply (within.2 reply))

theorem until_true (program : Proc I E A) (stops : ∀ why, fails why) : program.Until hits (fun _ => True) fails := by
  induction program with
  | done value => trivial
  | halt why => exact stops why
  | call op rest ih => exact fun reply => .inr (ih reply)

end

/-- Executed alone from a state, the procedure ends with a result. -/
def Returns {S : Type} (exec : (op : I.Op) → S → I.Reply op → S → Prop) :
    Proc I E A → S → A → S → Prop
  | .done value, s, result, last => value = result ∧ s = last
  | .halt _, _, _, _ => False
  | .call op rest, s, result, last =>
      ∃ reply middle, exec op s reply middle ∧ (rest reply).Returns exec middle result last

theorem returns_mono {S : Type} {exec wider : (op : I.Op) → S → I.Reply op → S → Prop}
    (implies : ∀ op before reply after, exec op before reply after → wider op before reply after)
    {program : Proc I E A} {s last : S} {result : A} (returned : program.Returns exec s result last) :
    program.Returns wider s result last := by
  induction program generalizing s with
  | done value => exact returned
  | halt why => exact returned
  | call op rest ih =>
    obtain ⟨reply, middle, ran, returned⟩ := returned
    exact ⟨reply, middle, implies op s reply middle ran, ih reply returned⟩

/-- A procedure whose statements can always be executed ends. -/
theorem returns_exists {S : Type} {exec : (op : I.Op) → S → I.Reply op → S → Prop}
    (total : ∀ op s, ∃ reply s', exec op s reply s') (program : Proc I E A) (s : S) :
    ∃ outcome last, (program.attempt (F := F)).Returns exec s outcome last := by
  induction program generalizing s with
  | done value => exact ⟨_, s, rfl, rfl⟩
  | halt why => exact ⟨_, s, rfl, rfl⟩
  | call op rest ih =>
    obtain ⟨reply, middle, ran⟩ := total op s
    obtain ⟨outcome, last, returned⟩ := ih reply middle
    exact ⟨outcome, last, reply, middle, ran, returned⟩

theorem Within.returns {S : Type} {exec : (op : I.Op) → S → I.Reply op → S → Prop} {allowed : I.Op → Prop}
    {ends : A → Prop} {program : Proc I E A} {s last : S} {outcome : Except E A} (within : program.Within allowed ends)
    (keeps : S → Prop) (step : ∀ op before reply after, allowed op → exec op before reply after → keeps before → keeps after)
    (now : keeps s) (returned : (program.attempt (F := F)).Returns exec s outcome last) : keeps last := by
  induction program generalizing s with
  | done value =>
    obtain ⟨-, rfl⟩ := returned
    exact now
  | halt why =>
    obtain ⟨-, rfl⟩ := returned
    exact now
  | call op rest ih =>
    obtain ⟨reply, middle, ran, returned⟩ := returned
    exact ih reply (within.2 reply) (step op s reply middle within.1 ran now) returned

def play {S C : Type} (run : (op : I.Op) → C → S → Option (I.Reply op × S)) :
    Proc I E A → List C → S → Option (Except E A × S)
  | .done value, [], s => some (.ok value, s)
  | .halt why, [], s => some (.error why, s)
  | .call op rest, choice :: choices, s => (run op choice s).bind fun result => (rest result.1).play run choices result.2
  | _, _, _ => none

theorem play_returns {S C : Type} {run : (op : I.Op) → C → S → Option (I.Reply op × S)} {program : Proc I E A}
    {choices : List C} {s last : S} {outcome : Except E A} (played : program.play run choices s = some (outcome, last)) :
    (program.attempt (F := F)).Returns (fun op before reply after => ∃ choice, run op choice before = some (reply, after))
      s outcome last := by
  induction program generalizing choices s with
  | done value =>
    cases choices with
    | nil =>
      cases played
      exact ⟨rfl, rfl⟩
    | cons _ _ => cases played
  | halt why =>
    cases choices with
    | nil =>
      cases played
      exact ⟨rfl, rfl⟩
    | cons _ _ => cases played
  | call op rest ih =>
    cases choices with
    | nil => cases played
    | cons choice choices =>
      obtain ⟨⟨reply, middle⟩, ran, played⟩ := Option.bind_eq_some_iff.mp played
      exact ⟨reply, middle, ⟨choice, ran⟩, ih reply played⟩

/-- Execute the procedure alone, with one possible effect of each statement. -/
def solo {S : Type} (run : (op : I.Op) → S → Option (I.Reply op × S)) : Proc I E A → S → Option (A × S)
  | .done value, s => some (value, s)
  | .halt _, _ => none
  | .call op rest, s => (run op s).bind fun result => (rest result.1).solo run result.2

end

section
variable {S : Type} {run : (op : I.Op) → S → Option (I.Reply op × S)} {s s' : S} {program : Proc I E A} {value : A}

theorem solo_call {op : I.Op} {rest : I.Reply op → Proc I E A} {reply : I.Reply op} (ran : run op s = some (reply, s')) :
    (Proc.call op rest).solo run s = (rest reply).solo run s' := by
  rw [solo, ran, Option.bind_some]

theorem solo_bind {next : A → Proc I E B} (ended : program.solo run s = some (value, s')) :
    (program >>= next).solo run s = (next value).solo run s' := by
  induction program generalizing s with
  | done other =>
    cases ended
    rfl
  | halt why => cases ended
  | call op rest ih =>
    obtain ⟨⟨reply, middle⟩, ran, ended⟩ := Option.bind_eq_some_iff.mp ended
    rw [call_bind, solo_call ran]
    exact ih reply ended

theorem solo_attempt (ended : program.solo run s = some (value, s')) :
    (program.attempt (F := F)).solo run s = some (.ok value, s') := by
  induction program generalizing s with
  | done other =>
    cases ended
    rfl
  | halt why => cases ended
  | call op rest ih =>
    obtain ⟨⟨reply, middle⟩, ran, ended⟩ := Option.bind_eq_some_iff.mp ended
    rw [attempt, solo_call ran]
    exact ih reply ended

theorem solo_attempt_bind {next : A → Proc I E B} (ended : program.solo run s = some (value, s')) :
    ((program >>= next).attempt (F := F)).solo run s = ((next value).attempt (F := F)).solo run s' := by
  induction program generalizing s with
  | done other =>
    cases ended
    rfl
  | halt why => cases ended
  | call op rest ih =>
    obtain ⟨⟨reply, middle⟩, ran, ended⟩ := Option.bind_eq_some_iff.mp ended
    rw [call_bind, attempt, solo_call ran]
    exact ih reply ended

theorem solo_attempt_error {next : A → Proc I E B} {why : E}
    (failed : (program.attempt (F := F)).solo run s = some (.error why, s')) :
    ((program >>= next).attempt (F := F)).solo run s = some (.error why, s') := by
  induction program generalizing s with
  | done other => cases failed
  | halt other =>
    cases failed
    rfl
  | call op rest ih =>
    obtain ⟨⟨reply, middle⟩, ran, failed⟩ := Option.bind_eq_some_iff.mp failed
    rw [call_bind, attempt, solo_call ran]
    exact ih reply failed

theorem Within.solo {allowed : I.Op → Prop} {ends : A → Prop} {keeps : S → Prop}
    (within : program.Within allowed ends)
    (step : ∀ op before reply after, allowed op → run op before = some (reply, after) → keeps before → keeps after)
    (now : keeps s) (ended : program.solo run s = some (value, s')) : ends value ∧ keeps s' := by
  induction program generalizing s with
  | done other =>
    cases ended
    exact ⟨within, now⟩
  | halt why => cases ended
  | call op rest ih =>
    obtain ⟨⟨reply, middle⟩, ran, ended⟩ := Option.bind_eq_some_iff.mp ended
    exact ih reply (within.2 reply) (step op s reply middle within.1 ran now) ended

end

end Proc

end PostJen.Foundations
