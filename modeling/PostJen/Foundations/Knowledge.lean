import PostJen.Foundations.Procedure

/-! Procedures that act on what they have learned about a growing store.

A fact that has become true stays true, so a procedure may rely on every fact
that a reply has taught it, however far other procedures get in between. A
statement may need facts; which of them are known is checked on the procedure
alone, as a store typing checks a term.
-/

set_option autoImplicit false

namespace PostJen.Foundations

structure Knowledge (I : Signature) (F : Type) where
  needs : I.Op → F → Prop
  teaches : (op : I.Op) → I.Reply op → F → Prop

namespace Proc

variable {I : Signature} {E G A B F : Type}

/-- Every statement that the procedure can reach needs only known facts, and it ends with a value and with
knowledge in `ends` unless it stops. -/
def Informed (K : Knowledge I F) (ends : A → (F → Prop) → Prop) : Proc I E A → (F → Prop) → Prop
  | .done value, known => ends value known
  | .halt _, _ => True
  | .call op rest, known =>
      (∀ fact, K.needs op fact → known fact) ∧
        ∀ reply, (rest reply).Informed K ends fun fact => known fact ∨ K.teaches op reply fact

variable {K : Knowledge I F} {known later : F → Prop} {ends last : A → (F → Prop) → Prop} {program : Proc I E A}

theorem Informed.mono (informed : program.Informed K ends known) (more : ∀ fact, known fact → later fact)
    (values : ∀ value before after, (∀ fact, before fact → after fact) → (∀ fact, later fact → after fact) →
      ends value before → last value after) : program.Informed K last later := by
  induction program generalizing known later with
  | done value => exact values value known later more (fun _ holds => holds) informed
  | halt why => trivial
  | call op rest ih =>
    refine ⟨fun fact needed => more fact (informed.1 fact needed), fun reply => ?_⟩
    refine ih reply (informed.2 reply) (fun fact => Or.imp_left (more fact)) ?_
    exact fun value before after grows keeps => values value before after grows fun fact holds => keeps fact (.inl holds)

theorem Informed.bind {next : A → Proc I E B} {last : B → (F → Prop) → Prop} (first : program.Informed K ends known)
    (rest : ∀ value later, (∀ fact, known fact → later fact) → ends value later → (next value).Informed K last later) :
    (program >>= next).Informed K last known := by
  induction program generalizing known with
  | done value => exact rest value known (fun _ holds => holds) first
  | halt why => trivial
  | call op _ ih =>
    refine ⟨first.1, fun reply => ih reply (first.2 reply) fun value later keeps => rest value later fun fact holds => ?_⟩
    exact keeps fact (.inl holds)

theorem Informed.attempt (informed : program.Informed K ends known) :
    (program.attempt (F := G)).Informed K (fun outcome later => ∀ value, outcome = .ok value → ends value later) known := by
  induction program generalizing known with
  | done value =>
    rintro _ ⟨⟩
    exact informed
  | halt why => rintro _ ⟨⟩
  | call op _ ih => exact ⟨informed.1, fun reply => ih reply (informed.2 reply)⟩

theorem Within.informed {allowed : I.Op → Prop} {values : A → Prop} (within : program.Within allowed values)
    (covered : ∀ op fact, allowed op → K.needs op fact → known fact) :
    program.Informed K (fun value later => values value ∧ ∀ fact, known fact → later fact) known := by
  induction program generalizing known with
  | done value => exact ⟨within, fun _ holds => holds⟩
  | halt why => trivial
  | call op rest ih =>
    refine ⟨fun fact => covered op fact within.1, fun reply => ?_⟩
    refine (ih reply (within.2 reply) fun op fact may needed => .inl (covered op fact may needed)).mono (fun _ holds => holds) ?_
    rintro value before after grows - ⟨holds, keeps⟩
    exact ⟨holds, fun fact held => grows fact (keeps fact (.inl held))⟩

end Proc

end PostJen.Foundations
