import Mathlib.Order.Bounds.Basic
import Mathlib.Data.List.Forall2

/-! Repeated checks of a timetable.

A check looks into an open window of time and fires when an instant lies in it.
The windows of a sweep begin where the last firing was marked, which may be
earlier than the reading that fired; the instants a sweep passes by are those on
the boundary between two windows.
-/

set_option autoImplicit false

namespace PostJen.Foundations

variable {T : Type} [LinearOrder T]

/-- `next` finds the least instant strictly after a time. -/
structure Timetable (instants : Set T) (next : T → Option T) : Prop where
  least : ∀ time instant, next time = some instant → IsLeast {later ∈ instants | time < later} instant
  last : ∀ time, next time = none → ∀ instant ∈ instants, instant ≤ time

def Due (instants : Set T) (opening closing : T) : Prop := ∃ instant ∈ instants, opening < instant ∧ instant < closing

theorem Timetable.any_iff {instants : Set T} {next : T → Option T} (table : Timetable instants next)
    (opening closing : T) :
    ((next opening).any fun instant => instant < closing) = true ↔ Due instants opening closing := by
  cases found : next opening with
  | none =>
    simp only [Option.any_none, Bool.false_eq_true, false_iff]
    rintro ⟨instant, member, later, -⟩
    exact absurd later (not_lt.mpr (table.last opening found instant member))
  | some instant =>
    have least := table.least opening instant found
    simp only [Option.any_some, decide_eq_true_eq]
    constructor
    · exact fun early => ⟨instant, least.1.1, least.1.2, early⟩
    · rintro ⟨other, member, later, early⟩
      exact lt_of_le_of_lt (least.2 ⟨member, later⟩) early

/-! ## Entries matched with instants -/

section
variable {A : Type} {fits : A → T → Prop}

/-- Each entry fits an instant of its own, in the order of time. -/
structure Matched (fits : A → T → Prop) (entries : List A) (times : List T) : Prop where
  fit : List.Forall₂ fits entries times
  increasing : times.Pairwise (· < ·)

theorem Matched.nil : Matched fits [] [] := ⟨.nil, .nil⟩

theorem Matched.snoc {entries : List A} {times : List T} {entry : A} {time : T} (matched : Matched fits entries times)
    (here : fits entry time) (later : ∀ earlier ∈ times, earlier < time) :
    Matched fits (entries ++ [entry]) (times ++ [time]) where
  fit := List.rel_append matched.fit (.cons here .nil)
  increasing := by
    refine List.pairwise_append.mpr ⟨matched.increasing, List.pairwise_singleton _ _, ?_⟩
    intro earlier member last single
    rw [List.mem_singleton.mp single]
    exact later earlier member

end

/-! ## Sweeps -/

/-- Rounding down that passes no instant. -/
structure Truncation (instants : Set T) (floor : T → T) : Prop where
  le : ∀ time, floor time ≤ time
  passes : ∀ time, ∀ instant ∈ instants, instant ≤ time → instant ≤ floor time

/-- The checks `0` to `last` and the windows they look into. -/
structure Sweep (instants : Set T) (floor : T → T) (last : Nat) (opening reading : Nat → T) : Prop where
  truncation : Truncation instants floor
  rising : ∀ i, i < last → reading i < reading (i + 1)
  fired : ∀ i, i < last → Due instants (opening i) (reading i) → opening (i + 1) = floor (reading i)
  waited : ∀ i, i < last → ¬Due instants (opening i) (reading i) →
    opening i ≤ opening (i + 1) ∧ opening (i + 1) < reading i

def Covers (instants : Set T) (last : Nat) (opening reading : Nat → T) (instant : T) : Prop :=
  ∃ i, i ≤ last ∧ instant < reading i ∧ (∀ earlier, earlier < i → reading earlier ≤ instant) ∧
    Due instants (opening i) (reading i)

def Approached (instants : Set T) (opening : T) (reading : Nat → T) : Nat → Prop
  | 0 => Due instants opening (reading 0)
  | i + 1 => ∃ instant ∈ instants, reading i ≤ instant ∧ instant < reading (i + 1)

/-- A check reads an instant itself while an earlier one is due, and the next check finds no other. -/
def Coincides (instants : Set T) (opening : T) (reading : Nat → T) (i : Nat) : Prop :=
  reading i ∈ instants ∧ Approached instants opening reading i ∧ ¬Due instants (reading i) (reading (i + 1))

namespace Sweep

variable {instants : Set T} {floor : T → T} {last : Nat} {opening reading : Nat → T}
  (sweep : Sweep instants floor last opening reading)
include sweep

theorem opening_le {i : Nat} (inside : i < last) : opening (i + 1) ≤ reading i := by
  by_cases due : Due instants (opening i) (reading i)
  · rw [sweep.fired i inside due]
    exact sweep.truncation.le _
  · exact (sweep.waited i inside due).2.le

theorem reading_mono {i j : Nat} (order : i ≤ j) (inside : j ≤ last) : reading i ≤ reading j := by
  induction order with
  | refl => exact le_rfl
  | @step k _ ih => exact (ih (Nat.le_of_succ_le inside)).trans (sweep.rising k inside).le

theorem approached {i : Nat} (inside : i ≤ last) (due : Due instants (opening i) (reading i)) :
    Approached instants (opening 0) reading i := by
  cases i with
  | zero => exact due
  | succ i =>
    obtain ⟨instant, member, later, early⟩ := due
    refine ⟨instant, member, ?_, early⟩
    by_contra before
    rw [not_le] at before
    by_cases fired : Due instants (opening i) (reading i)
    · rw [sweep.fired i inside fired] at later
      exact absurd later (not_lt.mpr (sweep.truncation.passes _ instant member before.le))
    · exact fired ⟨instant, member, lt_of_le_of_lt (sweep.waited i inside fired).1 later, before⟩

theorem due_of_between {i : Nat} (inside : i < last) (due : Due instants (reading i) (reading (i + 1))) :
    Due instants (opening (i + 1)) (reading (i + 1)) := by
  obtain ⟨instant, member, later, early⟩ := due
  exact ⟨instant, member, lt_of_le_of_lt (sweep.opening_le inside) later, early⟩

theorem due_of_reading {i : Nat} (inside : i < last) (member : reading i ∈ instants)
    (waited : ¬Due instants (opening i) (reading i)) : Due instants (opening (i + 1)) (reading (i + 1)) :=
  ⟨reading i, member, (sweep.waited i inside waited).2, sweep.rising i inside⟩

theorem not_due {i : Nat} (inside : i < last) (member : reading i ∈ instants)
    (due : Due instants (opening i) (reading i)) (alone : ¬Due instants (reading i) (reading (i + 1))) :
    ¬Due instants (opening (i + 1)) (reading (i + 1)) := by
  have exact' : opening (i + 1) = reading i := by
    rw [sweep.fired i inside due]
    exact le_antisymm (sweep.truncation.le _) (sweep.truncation.passes _ _ member le_rfl)
  rw [exact']
  exact alone

omit sweep in
theorem last_reading {time : T} (from' : reading 0 ≤ time) (until' : time < reading last) :
    ∃ i, i < last ∧ reading i ≤ time ∧ time < reading (i + 1) := by
  induction last with
  | zero => exact absurd until' (not_lt.mpr from')
  | succ last ih =>
    by_cases before : time < reading last
    · obtain ⟨i, inside, found⟩ := ih before
      exact ⟨i, Nat.lt_succ_of_lt inside, found⟩
    · exact ⟨last, Nat.lt_succ_self last, not_lt.mp before, until'⟩

/-- The check that covers an instant is the one after the last reading up to it. -/
theorem covers_iff_due {i : Nat} {instant : T} (inside : i < last) (from' : reading i ≤ instant)
    (until' : instant < reading (i + 1)) :
    Covers instants last opening reading instant ↔ Due instants (opening (i + 1)) (reading (i + 1)) := by
  constructor
  · rintro ⟨j, bound, later, earlier, due⟩
    have same : j = i + 1 := by
      rcases Nat.lt_trichotomy j (i + 1) with before | same | after
      · have order := sweep.reading_mono (Nat.lt_succ_iff.mp before) inside.le
        exact absurd (later.trans_le (order.trans from')) (lt_irrefl _)
      · exact same
      · exact absurd (until'.trans_le (earlier _ after)) (lt_irrefl _)
    rw [← same]
    exact due
  · refine fun due => ⟨i + 1, inside, until', fun earlier before => ?_, due⟩
    exact (sweep.reading_mono (Nat.lt_succ_iff.mp before) inside.le).trans from'

/-- Every instant between the first and the last reading is covered unless a check coincides with one. -/
theorem covers_iff :
    (∀ instant ∈ instants, reading 0 ≤ instant → instant < reading last → Covers instants last opening reading instant) ↔
      ∀ i, i < last → ¬Coincides instants (opening 0) reading i := by
  constructor
  · rintro covered i inside ⟨member, approached, alone⟩
    have due : Due instants (opening i) (reading i) := by
      cases i with
      | zero => exact approached
      | succ i =>
        obtain ⟨instant, listed, later, early⟩ := approached
        have before : reading 0 ≤ instant := (sweep.reading_mono (Nat.zero_le i) (by omega)).trans later
        have after : instant < reading last := early.trans_le (sweep.reading_mono inside.le le_rfl)
        exact (sweep.covers_iff_due (by omega) later early).mp (covered instant listed before after)
    have before : reading 0 ≤ reading i := sweep.reading_mono (Nat.zero_le i) inside.le
    have after : reading i < reading last := (sweep.rising i inside).trans_le (sweep.reading_mono inside le_rfl)
    have covers := covered _ member before after
    rw [sweep.covers_iff_due inside le_rfl (sweep.rising i inside)] at covers
    exact sweep.not_due inside member due alone covers
  · intro apart instant member from' until'
    obtain ⟨i, inside, before, later⟩ := last_reading from' until'
    rw [sweep.covers_iff_due inside before later]
    rcases before.eq_or_lt with same | strictly
    · -- The instant was read by the check before: it is in the next window unless that check fired.
      rw [← same] at member
      by_cases due : Due instants (opening i) (reading i)
      · by_contra missed
        exact apart i inside ⟨member, sweep.approached inside.le due, fun between =>
          missed (sweep.due_of_between inside between)⟩
      · exact sweep.due_of_reading inside member due
    · exact sweep.due_of_between inside ⟨instant, member, strictly, later⟩

end Sweep

end PostJen.Foundations
