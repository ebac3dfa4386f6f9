import Mathlib.Data.List.Basic

/-! Values under keys, as a sequence of edits leaves them.

A sequence is read from its latest edit back: the last edit of a key decides
whether there is a value under the key, and which. A removal notes whether it
found a value, which a legal sequence gets right.
-/

set_option autoImplicit false

namespace PostJen.Foundations

inductive Edit (K V : Type) where
  | put (key : K) (value : V)
  | remove (key : K) (found : Bool)
  deriving DecidableEq

namespace Edit

variable {K V : Type}

def key : Edit K V → K
  | .put key _ => key
  | .remove key _ => key

def leaves : Edit K V → Option V
  | .put _ value => some value
  | .remove _ _ => none

variable [DecidableEq K]

/-- The value under a key after a sequence of edits, the latest first. -/
def replay : List (Edit K V) → K → Option V
  | [], _ => none
  | edit :: earlier, key => if key = edit.key then edit.leaves else replay earlier key

/-- Every removal notes what it found. -/
def Legal : List (Edit K V) → Prop
  | [] => True
  | .put _ _ :: earlier => Legal earlier
  | .remove key found :: earlier => found = (replay earlier key).isSome ∧ Legal earlier

/-- A value is there when it has been put and its key has not been edited since. -/
theorem replay_eq_some {edits : List (Edit K V)} {key : K} {value : V} :
    replay edits key = some value ↔
      ∃ recent earlier, edits = recent ++ .put key value :: earlier ∧ ∀ edit ∈ recent, edit.key ≠ key := by
  -- the newest edit decides if it has the key, and else does not matter
  induction edits with
  | nil => simp [replay]
  | cons edit edits ih =>
    simp only [replay]
    constructor
    · intro holds
      split at holds
      · rename_i same
        cases edit with
        | put other found =>
          cases same
          cases holds
          exact ⟨[], edits, rfl, fun _ member => by cases member⟩
        | remove other found => cases holds
      · rename_i other
        obtain ⟨recent, earlier, rfl, untouched⟩ := ih.mp holds
        refine ⟨edit :: recent, earlier, rfl, fun later member => ?_⟩
        rcases List.mem_cons.mp member with rfl | member
        · exact fun same => other same.symm
        · exact untouched later member
    · rintro ⟨recent, earlier, split, untouched⟩
      cases recent with
      | nil =>
        cases split
        exact if_pos rfl
      | cons first recent =>
        cases split
        rw [if_neg fun same => untouched edit List.mem_cons_self same.symm]
        exact ih.mpr ⟨recent, earlier, rfl, fun later member => untouched later (List.mem_cons_of_mem _ member)⟩

end Edit

end PostJen.Foundations
