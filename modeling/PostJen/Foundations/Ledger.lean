import Mathlib.Data.List.Basic

/-! A register whose writers record their changes afterwards.

A writer changes the register in one step and records the change in a later
one; until then it owes the record. Records that are made in the order of the
changes replay the register.
-/

set_option autoImplicit false

namespace PostJen.Foundations

section
variable {V W : Type}

/-- The changes lead from one value to another, each starting where the one before has ended. -/
def Chain : V → List (V × V) → V → Prop
  | first, [], last => first = last
  | first, change :: rest, last => first = change.1 ∧ Chain change.2 rest last

instance Chain.decidable [DecidableEq V] :
    (first : V) → (changes : List (V × V)) → (last : V) → Decidable (Chain first changes last)
  | first, [], last => inferInstanceAs (Decidable (first = last))
  | first, change :: rest, last =>
      have := Chain.decidable change.2 rest last
      inferInstanceAs (Decidable (first = change.1 ∧ Chain change.2 rest last))

theorem chain_append {first last : V} {front back : List (V × V)} :
    Chain first (front ++ back) last ↔ ∃ middle, Chain first front middle ∧ Chain middle back last := by
  induction front generalizing first with
  | nil =>
    constructor
    · exact fun rest => ⟨first, rfl, rest⟩
    · rintro ⟨_, rfl, rest⟩
      exact rest
  | cons change front ih =>
    constructor
    · rintro ⟨same, chain⟩
      obtain ⟨middle, upTo, rest⟩ := ih.mp chain
      exact ⟨middle, ⟨same, upTo⟩, rest⟩
    · rintro ⟨middle, ⟨same, upTo⟩, rest⟩
      exact ⟨same, ih.mpr ⟨middle, upTo, rest⟩⟩

/-- The changes of a register are those recorded and, behind them, those that
its writers owe. -/
structure Balanced (first last : V) (changed recorded : List (V × V)) (owed : List (W × (V × V))) : Prop where
  complete : changed = recorded ++ owed.map Prod.snd
  chain : Chain first changed last

namespace Balanced

variable {first last next : V} {changed recorded : List (V × V)} {owed : List (W × (V × V))} {writer : W}

theorem start (first : V) : Balanced first first [] [] ([] : List (W × (V × V))) := ⟨rfl, rfl⟩

theorem change (balanced : Balanced first last changed recorded owed) (writer : W) (next : V) :
    Balanced first next (changed ++ [(last, next)]) recorded (owed ++ [(writer, (last, next))]) where
  complete := by
    rw [balanced.complete, List.map_append, List.append_assoc]
    rfl
  chain := chain_append.mpr ⟨last, balanced.chain, rfl, rfl⟩

theorem record {change : V × V} (balanced : Balanced first last changed recorded ((writer, change) :: owed)) :
    Balanced first last changed (recorded ++ [change]) owed where
  complete := by
    rw [balanced.complete, List.map_cons, List.append_assoc]
    rfl
  chain := balanced.chain

theorem atOnce (balanced : Balanced first last changed recorded ([] : List (W × (V × V)))) (next : V) :
    Balanced first next (changed ++ [(last, next)]) (recorded ++ [(last, next)]) ([] : List (W × (V × V))) where
  complete := by
    rw [balanced.complete, List.map_nil, List.append_nil, List.append_nil]
  chain := chain_append.mpr ⟨last, balanced.chain, rfl, rfl⟩

/-- With nothing owed the records are the changes. -/
theorem settled (balanced : Balanced first last changed recorded ([] : List (W × (V × V)))) :
    recorded = changed ∧ Chain first recorded last := by
  have same : recorded = changed := by
    rw [balanced.complete, List.map_nil, List.append_nil]
  exact ⟨same, same ▸ balanced.chain⟩

end Balanced

end

end PostJen.Foundations
