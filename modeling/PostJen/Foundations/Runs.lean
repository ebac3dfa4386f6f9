import Mathlib.Logic.Relation

/-! Runs of an executable labelled transition system.

`admits` restricts the labels a run may take in each configuration. A law that
holds under a condition on steps is a law about the runs that admit only the
steps meeting it; the unrestricted runs admit everything.
-/

set_option autoImplicit false

namespace PostJen.Foundations

structure Machine (C L : Type) where
  step : C → L → Option C

namespace Machine

variable {C L : Type} (M : Machine C L)

def Moves (admits : C → L → Prop) (before after : C) : Prop :=
  ∃ label, admits before label ∧ M.step before label = some after

def Reaches (admits : C → L → Prop) : C → C → Prop :=
  Relation.ReflTransGen (M.Moves admits)

variable {M} {admits : C → L → Prop} {start middle last : C}

theorem Reaches.refl (c : C) : M.Reaches admits c c := Relation.ReflTransGen.refl

theorem Reaches.trans (first : M.Reaches admits start middle) (rest : M.Reaches admits middle last) :
    M.Reaches admits start last := Relation.ReflTransGen.trans first rest

theorem Reaches.snoc {label : L} (run : M.Reaches admits start middle) (admitted : admits middle label)
    (moved : M.step middle label = some last) : M.Reaches admits start last :=
  Relation.ReflTransGen.tail run ⟨label, admitted, moved⟩

theorem Reaches.invariant (inv : C → Prop) (run : M.Reaches admits start last) (first : inv start)
    (keeps : ∀ before label after, inv before → admits before label →
      M.step before label = some after → inv after) : inv last := by
  induction run with
  | refl => exact first
  | tail _ moved ih =>
      obtain ⟨label, admitted, stepped⟩ := moved
      exact keeps _ label _ ih admitted stepped

theorem Reaches.mono {wider : C → L → Prop} (run : M.Reaches admits start last)
    (sub : ∀ c label, admits c label → wider c label) : M.Reaches wider start last := by
  induction run with
  | refl => exact .refl _
  | tail _ moved ih =>
      obtain ⟨label, admitted, stepped⟩ := moved
      exact ih.snoc (sub _ _ admitted) stepped

variable (M)

/-- A run with the labels it took, the latest first. -/
inductive Path (admits : C → L → Prop) (start : C) : List L → C → Prop where
  | nil : Path admits start [] start
  | cons {history : List L} {before after : C} {label : L} (run : Path admits start history before)
      (admitted : admits before label) (moved : M.step before label = some after) :
      Path admits start (label :: history) after

def Happened (admits : C → L → Prop) (start : C) (event : C → L → C → Prop) (history : List L) : Prop :=
  ∃ recent label earlier before after, history = recent ++ label :: earlier ∧
    M.Path admits start earlier before ∧ admits before label ∧ M.step before label = some after ∧
    event before label after

variable {M}

theorem Path.reaches {history : List L} (run : M.Path admits start history last) :
    M.Reaches admits start last := by
  induction run with
  | nil => exact .refl _
  | cons _ admitted moved ih => exact ih.snoc admitted moved

theorem Reaches.path (run : M.Reaches admits start last) : ∃ history, M.Path admits start history last := by
  induction run with
  | refl => exact ⟨[], .nil⟩
  | tail _ moved ih =>
      obtain ⟨history, path⟩ := ih
      obtain ⟨label, admitted, stepped⟩ := moved
      exact ⟨label :: history, path.cons admitted stepped⟩

theorem Path.mono {wider : C → L → Prop} {history : List L} (run : M.Path admits start history last)
    (sub : ∀ c label, admits c label → wider c label) : M.Path wider start history last := by
  induction run with
  | nil => exact .nil
  | cons _ admitted moved ih => exact ih.cons (sub _ _ admitted) moved

theorem Path.extend {history : List L} (run : M.Path admits start history middle)
    (rest : M.Reaches admits middle last) : ∃ recent, M.Path admits start (recent ++ history) last := by
  induction rest with
  | refl => exact ⟨[], run⟩
  | tail _ moved ih =>
      obtain ⟨recent, path⟩ := ih
      obtain ⟨label, admitted, stepped⟩ := moved
      exact ⟨label :: recent, path.cons admitted stepped⟩

theorem Happened.later {event : C → L → C → Prop} {history : List L} (label : L)
    (happened : M.Happened admits start event history) : M.Happened admits start event (label :: history) := by
  obtain ⟨recent, first, earlier, before, after, rfl, rest⟩ := happened
  exact ⟨label :: recent, first, earlier, before, after, rfl, rest⟩

theorem Path.happens {event : C → L → C → Prop} {history : List L} {label : L}
    (run : M.Path admits start history middle) (admitted : admits middle label)
    (moved : M.step middle label = some last) (now : event middle label last) :
    M.Happened admits start event (label :: history) :=
  ⟨[], label, history, middle, last, rfl, run, admitted, moved, now⟩

theorem Path.unique {history : List L} {other : C} (run : M.Path admits start history last)
    (again : M.Path admits start history other) : last = other := by
  induction run generalizing other with
  | nil =>
      cases again
      rfl
  | cons _ _ moved ih =>
      cases again with
      | cons run' _ moved' =>
          cases ih run'
          exact Option.some.inj (moved.symm.trans moved')

theorem Path.parts {recent earlier : List L} (run : M.Path admits start (recent ++ earlier) last) :
    ∃ middle, M.Path admits start earlier middle ∧ M.Path admits middle recent last := by
  induction recent generalizing last with
  | nil => exact ⟨last, run, .nil⟩
  | cons label recent ih =>
      cases run with
      | cons run admitted moved =>
          obtain ⟨middle, first, rest⟩ := ih run
          exact ⟨middle, first, rest.cons admitted moved⟩

/-- What an event establishes and every step keeps, holds ever since. -/
theorem Path.since {event : C → L → C → Prop} (holds : List L → C → Prop) {history : List L}
    (run : M.Path admits start history last) (happened : M.Happened admits start event history)
    (establishes : ∀ history before label after, M.Path admits start history before →
      admits before label → M.step before label = some after → event before label after →
      holds (label :: history) after)
    (keeps : ∀ history before label after, M.Path admits start history before → admits before label →
      M.step before label = some after → holds history before → holds (label :: history) after) :
    holds history last := by
  -- the event is the newest step, or the run up to this step already has it
  induction run with
  | nil =>
      obtain ⟨recent, label, earlier, before, after, split, -⟩ := happened
      simp at split
  | @cons history before after label run admitted moved ih =>
      obtain ⟨recent, first, earlier, c, c', split, path, rest⟩ := happened
      cases recent with
      | nil =>
          cases split
          cases run.unique path
          cases moved.symm.trans rest.2.1
          exact establishes _ _ _ _ run admitted moved rest.2.2
      | cons newest recent =>
          cases split
          exact keeps _ _ _ _ run admitted moved
            (ih ⟨recent, first, earlier, c, c', rfl, path, rest⟩)

variable (M)

/-- Where the labels of a history lead. -/
def stands (start : C) : List L → Option C
  | [] => some start
  | label :: earlier => (stands start earlier).bind fun c => M.step c label

def annals {A : Type} (note : C → L → A → A) (first : A) (start : C) : List L → A
  | [] => first
  | label :: earlier =>
      match M.stands start earlier with
      | some before => note before label (annals note first start earlier)
      | none => annals note first start earlier

variable {M}

theorem Path.stands {history : List L} (run : M.Path admits start history last) :
    M.stands start history = some last := by
  induction run with
  | nil => rfl
  | cons _ _ moved ih => rw [Machine.stands, ih, Option.bind_some, moved]

theorem Path.annals {A : Type} {note : C → L → A → A} {first : A} {history : List L} (label : L)
    (run : M.Path admits start history last) :
    M.annals note first start (label :: history) = note last label (M.annals note first start history) := by
  rw [Machine.annals, run.stands]

variable (M)

theorem Path.admitted {M : Machine C L} {wider : C → L → Prop} {recent earlier : List L} {label : L} {before : C}
    (run : M.Path admits start (recent ++ label :: earlier) last) (there : M.Path wider start earlier before) :
    admits before label := by
  obtain ⟨after, first, -⟩ := run.parts
  cases first with
  | cons run' admitted moved =>
      cases run'.stands.symm.trans there.stands
      exact admitted

/-- Follow a schedule, refusing it as soon as a label is not checked. -/
def follow (check : C → L → Bool) : C → List L → Option C
  | c, [] => some c
  | c, label :: rest =>
      if check c label then (M.step c label).bind fun next => follow check next rest else none

theorem follow_reaches {check : C → L → Bool} (sound : ∀ c label, check c label = true → admits c label)
    {labels : List L} (followed : M.follow check start labels = some last) :
    M.Reaches admits start last := by
  induction labels generalizing start with
  | nil =>
      cases followed
      exact .refl _
  | cons label rest ih =>
      simp only [follow] at followed
      split at followed
      · rename_i checked
        obtain ⟨next, moved, continued⟩ := Option.bind_eq_some_iff.mp followed
        exact .trans (.snoc (.refl _) (sound _ _ checked) moved) (ih continued)
      · cases followed

/-- The followed labels are the newest part of the history. -/
theorem follow_path {check : C → L → Bool} (sound : ∀ c label, check c label = true → admits c label)
    {history labels : List L} (run : M.Path admits start history middle)
    (followed : M.follow check middle labels = some last) : M.Path admits start (labels.reverse ++ history) last := by
  induction labels generalizing middle history with
  | nil =>
      cases followed
      exact run
  | cons label rest ih =>
      simp only [follow] at followed
      split at followed
      · rename_i checked
        obtain ⟨next, moved, continued⟩ := Option.bind_eq_some_iff.mp followed
        rw [List.reverse_cons, List.append_assoc]
        exact ih (run.cons (sound _ _ checked) moved) continued
      · cases followed

end Machine

end PostJen.Foundations
