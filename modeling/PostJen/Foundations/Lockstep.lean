import PostJen.Foundations.Procedure

/-! Two procedures that run in lockstep.

A pairing says which statements may stand side by side and which replies the
two sides may then get. Paired procedures take the same course whatever they
are replied, and their results are related in the end; what the left side has
been replied so far may excuse statements that differ.
-/

set_option autoImplicit false

namespace PostJen.Foundations

structure Pairing (I : Signature) (K : Type) where
  alike : K → I.Op → I.Op → Prop
  answers : (op op' : I.Op) → I.Reply op → I.Reply op' → Prop
  learn : (op : I.Op) → I.Reply op → K → K

namespace Proc

variable {I : Signature} {K : Type} {E E' F F' A A' B B' : Type}

/-- Both sides ended with related values or stopped with related errors. -/
inductive Ended (ends : A → A' → Prop) (fails : E → E' → Prop) : Except E A → Except E' A' → Prop where
  | ok {value : A} {value' : A'} (related : ends value value') : Ended ends fails (.ok value) (.ok value')
  | error {why : E} {why' : E'} (related : fails why why') : Ended ends fails (.error why) (.error why')

def Paired (P : Pairing I K) (ends : A → A' → Prop) (fails : E → E' → Prop) :
    Proc I E A → Proc I E' A' → K → Prop
  | .done value, .done value', _ => ends value value'
  | .halt why, .halt why', _ => fails why why'
  | .call op rest, .call op' rest', known => P.alike known op op' ∧ ∀ reply reply',
      P.answers op op' reply reply' → (rest reply).Paired P ends fails (rest' reply') (P.learn op reply known)
  | _, _, _ => False

variable {P : Pairing I K} {ends : A → A' → Prop} {fails : E → E' → Prop} {known : K}

theorem Paired.mono {program : Proc I E A} {other : Proc I E' A'} {ends' : A → A' → Prop} {fails' : E → E' → Prop}
    (paired : program.Paired P ends fails other known) (values : ∀ value value', ends value value' → ends' value value')
    (stops : ∀ why why', fails why why' → fails' why why') : program.Paired P ends' fails' other known := by
  induction program generalizing other known with
  | done value =>
    cases other with
    | done value' => exact values _ _ paired
    | _ => exact paired.elim
  | halt why =>
    cases other with
    | halt why' => exact stops _ _ paired
    | _ => exact paired.elim
  | call op rest ih =>
    cases other with
    | call op' rest' => exact ⟨paired.1, fun reply reply' answers => ih reply (paired.2 reply reply' answers)⟩
    | _ => exact paired.elim

theorem Paired.bind {program : Proc I E A} {other : Proc I E' A'} {next : A → Proc I E B} {next' : A' → Proc I E' B'}
    {last : B → B' → Prop} (first : program.Paired P ends fails other known)
    (later : K → Prop) (now : later known) (keeps : ∀ op reply known, later known → later (P.learn op reply known))
    (rest : ∀ value value' known, later known → ends value value' →
      (next value).Paired P last fails (next' value') known) :
    (program >>= next).Paired P last fails (other >>= next') known := by
  induction program generalizing other known with
  | done value =>
    cases other with
    | done value' => exact rest _ _ known now first
    | _ => exact first.elim
  | halt why =>
    cases other with
    | halt why' => exact first
    | _ => exact first.elim
  | call op _ ih =>
    cases other with
    | call op' rest' =>
      exact ⟨first.1, fun reply reply' answers => ih reply (first.2 reply reply' answers) (keeps op reply known now)⟩
    | _ => exact first.elim

theorem Paired.attempt {program : Proc I E A} {other : Proc I E' A'} (paired : program.Paired P ends fails other known)
    (stops : F → F' → Prop) :
    (program.attempt (F := F)).Paired P (Ended ends fails) stops (other.attempt (F := F')) known := by
  induction program generalizing other known with
  | done value =>
    cases other with
    | done value' => exact .ok paired
    | _ => exact paired.elim
  | halt why =>
    cases other with
    | halt why' => exact .error paired
    | _ => exact paired.elim
  | call op rest ih =>
    cases other with
    | call op' rest' => exact ⟨paired.1, fun reply reply' answers => ih reply (paired.2 reply reply' answers)⟩
    | _ => exact paired.elim

theorem Within.paired {allowed : I.Op → Prop} {values : A → Prop} {program : Proc I E A}
    (within : program.Within allowed values) (same : ∀ op known, allowed op → P.alike known op op)
    (equal : ∀ op reply reply', allowed op → P.answers op op reply reply' → reply = reply') (known : K) :
    program.Paired P Eq Eq program known := by
  induction program generalizing known with
  | done value => rfl
  | halt why => rfl
  | call op rest ih =>
    refine ⟨same op known within.1, fun reply reply' answers => ?_⟩
    rw [← equal op reply reply' within.1 answers]
    exact ih reply (within.2 reply) _

theorem Paired.call {op : I.Op} {rest : I.Reply op → Proc I E A} {other : Proc I E' A'}
    (paired : (Proc.call op rest).Paired P ends fails other known) :
    ∃ op' rest', other = .call op' rest' ∧ P.alike known op op' ∧ ∀ reply reply', P.answers op op' reply reply' →
      (rest reply).Paired P ends fails (rest' reply') (P.learn op reply known) := by
  cases other with
  | call op' rest' => exact ⟨op', rest', rfl, paired.1, paired.2⟩
  | _ => exact paired.elim

theorem Paired.done {value : A} {other : Proc I E' A'} (paired : (Proc.done value).Paired P ends fails other known) :
    ∃ value', other = .done value' ∧ ends value value' := by
  cases other with
  | done value' => exact ⟨value', rfl, paired⟩
  | _ => exact paired.elim

end Proc

end PostJen.Foundations
