import PostJen.Foundations.Procedure
import PostJen.Foundations.Runs
import Mathlib.Order.Filter.AtTopBot.Finite

/-! What must happen along an infinite run.

A property leads to another one if the second holds at some time from each time
of the first on. Fairness says that helpful steps recur, and what the rest of
the world has to do is asked for from some time on; both are statements about
the filter at infinity. A rank then decides the loops: it has to fall in every
round only once the world is calm.
-/

set_option autoImplicit false

namespace PostJen.Foundations
open Filter

def LeadsTo (P Q : Nat → Prop) : Prop := ∀ n, P n → ∃ m, n ≤ m ∧ Q m

namespace LeadsTo

variable {P Q H : Nat → Prop}

/-- What lasts until a helpful step meets that step. -/
theorem lasting (lasts : ∀ n, P n → ¬H n → P (n + 1)) (recurs : ∃ᶠ n in atTop, H n) :
    LeadsTo P fun n => P n ∧ H n := by
  intro n here
  obtain ⟨m, later, helps⟩ := frequently_atTop.mp recurs n
  -- the induction is on the distance to a helpful step that is known to come
  obtain ⟨distance, rfl⟩ := Nat.exists_eq_add_of_le later
  induction distance generalizing n with
  | zero => exact ⟨n, Nat.le_refl n, here, helps⟩
  | succ distance ih =>
    by_cases now : H n
    · exact ⟨n, Nat.le_refl n, here, now⟩
    · obtain ⟨k, later, there⟩ := ih (n + 1) (lasts n here now) (Nat.le_add_right _ _)
        (by rw [Nat.add_right_comm]; exact helps)
      exact ⟨k, Nat.le_of_succ_le later, there⟩

/-- Rounds that lower a rank as soon as the world is calm come to an end. -/
theorem ranked {A : Type} {P : A → Nat → Prop} {calm : Nat → Prop} (rank : A → Nat)
    (round : ∀ a n, P a n → ∃ m, n < m ∧ (Q m ∨ ∃ b, P b m ∧ (calm n → rank b < rank a)))
    (calms : ∀ᶠ n in atTop, calm n) (a : A) : LeadsTo (P a) Q := by
  obtain ⟨calmed, calms⟩ := eventually_atTop.mp calms
  -- rounds take time, so the world is calm after finitely many of them
  have waits : ∀ distance a n, calmed ≤ n + distance → P a n →
      ∃ m, n ≤ m ∧ (Q m ∨ ∃ b, P b m ∧ calmed ≤ m) := by
    intro distance
    induction distance with
    | zero => exact fun a n late here => ⟨n, Nat.le_refl n, .inr ⟨a, here, late⟩⟩
    | succ distance ih =>
      intro a n late here
      obtain ⟨m, later, reached | ⟨b, there, -⟩⟩ := round a n here
      · exact ⟨m, Nat.le_of_lt later, .inl reached⟩
      · obtain ⟨k, last, found⟩ := ih b m (by omega) there
        exact ⟨k, by omega, found⟩
  -- from then on every round lowers the rank
  have falls : ∀ height a n, rank a = height → calmed ≤ n → P a n → ∃ m, n ≤ m ∧ Q m := by
    intro height
    induction height using Nat.strong_induction_on with
    | _ height ih =>
      rintro a n rfl late here
      obtain ⟨m, later, reached | ⟨b, there, lower⟩⟩ := round a n here
      · exact ⟨m, Nat.le_of_lt later, reached⟩
      · obtain ⟨k, last, done⟩ := ih (rank b) (lower (calms n late)) b m rfl (by omega) there
        exact ⟨k, by omega, done⟩
  intro n here
  obtain ⟨m, later, reached | ⟨b, there, late⟩⟩ := waits calmed a n (Nat.le_add_left _ _) here
  · exact ⟨m, later, reached⟩
  · obtain ⟨k, last, done⟩ := falls (rank b) b m rfl late there
    exact ⟨k, Nat.le_trans later last, done⟩

end LeadsTo

theorem eventually_not {P : Nat → Prop} (ends : ∀ n, P n → ∃ m, n ≤ m ∧ ∀ k, m ≤ k → ¬P k) :
    ∀ᶠ n in atTop, ¬P n := by
  by_cases ever : ∃ n, P n
  · obtain ⟨n, here⟩ := ever
    obtain ⟨m, -, never⟩ := ends n here
    exact eventually_atTop.mpr ⟨m, never⟩
  · exact .of_forall fun n here => ever ⟨n, here⟩

theorem exists_loss {P : Nat → Prop} {n m : Nat} (later : n ≤ m) (here : P n) (lost : ¬P m) :
    ∃ k, n ≤ k ∧ k < m ∧ P k ∧ ¬P (k + 1) := by
  induction m, later using Nat.le_induction with
  | base => exact absurd here lost
  | succ m later ih =>
    by_cases still : P m
    · exact ⟨m, later, Nat.lt_succ_self m, still, lost⟩
    · obtain ⟨k, first, last, found⟩ := ih still
      exact ⟨k, first, Nat.lt_succ_of_lt last, found⟩

/-! ## Infinite runs -/

namespace Machine

variable {C L : Type}

structure Trace (M : Machine C L) (start : C) where
  config : Nat → C
  label : Nat → L
  first : config 0 = start
  moves : ∀ n, M.step (config n) (label n) = some (config (n + 1))

variable {M : Machine C L} {start middle : C} {admits : C → L → Prop}

theorem Trace.path (σ : M.Trace start) (admitted : ∀ n, admits (σ.config n) (σ.label n)) (n : Nat) :
    ∃ history, M.Path admits start history (σ.config n) := by
  induction n with
  | zero => exact ⟨[], by rw [σ.first]; exact .nil⟩
  | succ n ih =>
    obtain ⟨history, run⟩ := ih
    exact ⟨_, run.cons (admitted n) (σ.moves n)⟩

def Trace.cons {label : L} (moved : M.step start label = some middle) (σ : M.Trace middle) : M.Trace start where
  config
    | 0 => start
    | n + 1 => σ.config n
  label
    | 0 => label
    | n + 1 => σ.label n
  first := rfl
  moves
    | 0 => by
      show M.step start label = some (σ.config 0)
      rw [σ.first]
      exact moved
    | n + 1 => σ.moves n

theorem follow_trace {check : C → L → Bool} {labels : List L} {last : C} (followed : M.follow check start labels = some last)
    (σ : M.Trace last) : ∃ τ : M.Trace start,
      ((∀ n, check (σ.config n) (σ.label n) = true) → ∀ n, check (τ.config n) (τ.label n) = true) ∧
      ∀ n, τ.config (labels.length + n) = σ.config n ∧ τ.label (labels.length + n) = σ.label n := by
  induction labels generalizing start with
  | nil =>
    cases followed
    exact ⟨σ, fun always => always, fun n => by rw [List.length_nil, Nat.zero_add]; exact ⟨rfl, rfl⟩⟩
  | cons label rest ih =>
    simp only [follow] at followed
    split at followed
    · rename_i checked
      obtain ⟨next, moved, continued⟩ := Option.bind_eq_some_iff.mp followed
      obtain ⟨τ, always, reached⟩ := ih continued
      refine ⟨τ.cons moved, fun rest n => ?_, fun n => ?_⟩
      · cases n with
        | zero => exact checked
        | succ n => exact always rest n
      · rw [List.length_cons, Nat.add_right_comm]
        exact reached n
    · cases followed

/-- A strategy that can always go on. -/
theorem exists_trace {stays : C → Prop} (next : C → L)
    (goes : ∀ c, stays c → ∃ after, M.step c (next c) = some after ∧ stays after) (here : stays start) :
    ∃ σ : M.Trace start, ∀ n, stays (σ.config n) ∧ σ.label n = next (σ.config n) := by
  let config : Nat → C := Nat.rec start fun _ c => (M.step c (next c)).getD c
  have step : ∀ n, stays (config n) → M.step (config n) (next (config n)) = some (config (n + 1)) ∧
      stays (config (n + 1)) := by
    intro n staying
    obtain ⟨after, moved, still⟩ := goes (config n) staying
    have reached : config (n + 1) = after := by
      show (M.step (config n) (next (config n))).getD (config n) = after
      rw [moved, Option.getD_some]
    rw [reached]
    exact ⟨moved, still⟩
  have always : ∀ n, stays (config n) := by
    intro n
    induction n with
    | zero => exact here
    | succ n ih => exact (step n ih).2
  exact ⟨⟨config, fun n => next (config n), rfl, fun n => (step n (always n)).1⟩, fun n => ⟨always n, rfl⟩⟩

end Machine

end PostJen.Foundations
