import PostJen.Foundations.Interference

/-! What a procedure may do next, given what it remembers of its replies.

A protocol is a discipline without interference: its state is a memory that
each reply advances, and it permits a statement or not.
-/

set_option autoImplicit false

namespace PostJen.Foundations

structure Protocol (I : Signature) (G : Type) where
  permits : G → I.Op → Prop
  advance : (op : I.Op) → I.Reply op → G → G

namespace Protocol

variable {I : Signature} {G E A : Type} (P : Protocol I G)

def discipline : Discipline I G where
  exec op before reply after := P.advance op reply before = after
  rely := Eq
  guarantee op before _ := P.permits before op

theorem preorder : P.discipline.Preorder := ⟨fun _ => rfl, fun _ _ _ => Eq.trans⟩

theorem stable (assertion : G → Prop) : P.discipline.Stable assertion := fun _ _ same holds => same ▸ holds

variable {P} {post : A → G → Prop} {failed : E → G → Prop} {memory : G}

theorem holds_call {op : I.Op} {rest : I.Reply op → Proc I E A} :
    (Proc.call op rest).Holds P.discipline post failed memory ↔
      ∀ reply, P.permits memory op ∧ (rest reply).Holds P.discipline post failed (P.advance op reply memory) := by
  constructor
  · exact fun holds reply => holds memory rfl reply _ rfl
  · rintro holds _ rfl reply _ rfl
    exact holds reply

theorem holds_free {allowed : I.Op → Prop} {ends : A → Prop} {program : Proc I E A}
    (within : program.Within allowed ends) (free : ∀ op memory, allowed op → P.permits memory op) (memory : G) :
    program.Holds P.discipline (fun value _ => ends value) (fun _ _ => True) memory :=
  (within.holds (P.stable fun _ => True) (fun op before _ _ may _ _ => ⟨free op before may, trivial⟩) trivial).mono
    (fun _ _ ended => ended.1) fun _ _ _ => trivial

end Protocol

end PostJen.Foundations
