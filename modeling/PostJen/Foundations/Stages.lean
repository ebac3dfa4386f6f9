import Mathlib.Logic.Function.Basic
import PostJen.Foundations.Precedence

/-! Stages of items that depend on one another.

The stage of an item is the length of the longest chain of dependencies behind
it. A queue that serves first what came first releases items stage by stage.
-/

set_option autoImplicit false

namespace PostJen.Foundations

variable {A K : Type} {key : A → K} {needs : A → List K} {items : List A} {stage : K → Nat}

/-- One more than the latest stage among the dependencies; zero without dependencies. -/
def height (stage : K → Nat) (needed : List K) : Nat := needed.foldr (fun need top => max (stage need + 1) top) 0

theorem lt_height {needed : List K} {need : K} (member : need ∈ needed) : stage need < height stage needed := by
  induction needed with
  | nil => cases member
  | cons first rest ih =>
    rcases List.mem_cons.mp member with rfl | later
    · exact Nat.le_max_left _ _
    · exact Nat.lt_of_lt_of_le (ih later) (Nat.le_max_right _ _)

theorem height_le {needed : List K} {bound : Nat} (below : ∀ need ∈ needed, stage need < bound) :
    height stage needed ≤ bound := by
  induction needed with
  | nil => exact Nat.zero_le _
  | cons first rest ih =>
    exact Nat.max_le.mpr ⟨below first List.mem_cons_self, ih fun need later => below need (List.mem_cons_of_mem _ later)⟩

theorem height_congr {other : K → Nat} {needed : List K} (same : ∀ need ∈ needed, stage need = other need) :
    height stage needed = height other needed := by
  refine Nat.le_antisymm (height_le fun need member => ?_) (height_le fun need member => ?_)
  · rw [same need member]
    exact lt_height member
  · rw [← same need member]
    exact lt_height member

variable (key needs) in
def Staged (items : List A) (stage : K → Nat) : Prop := ∀ item ∈ items, stage (key item) = height stage (needs item)

variable (key needs) in
def stageAlong [DecidableEq K] (items : List A) : K → Nat :=
  items.foldl (fun stage item => Function.update stage (key item) (height stage (needs item))) fun _ => 0

namespace Precedence

theorem dropLast {last : A} (order : Precedence key needs (items ++ [last])) : Precedence key needs items where
  distinct := by
    have distinct := order.distinct
    rw [List.map_append] at distinct
    exact distinct.of_append_left
  earlier := fun front item back split => order.earlier front item (back ++ [last]) (by rw [split, List.append_assoc]; rfl)

theorem staged [DecidableEq K] (order : Precedence key needs items) : Staged key needs items (stageAlong key needs items) := by
  induction items using List.reverseRecOn with
  | nil => exact fun _ member => by cases member
  | append_singleton items last ih =>
    have fresh : key last ∉ items.map key := order.key_notin_front rfl
    have appended : stageAlong key needs (items ++ [last]) =
        Function.update (stageAlong key needs items) (key last) (height (stageAlong key needs items) (needs last)) := by
      rw [stageAlong, List.foldl_append]
      rfl
    -- What is needed stands before the last item, so its stage is not touched again.
    have untouched : ∀ item ∈ items ++ [last], ∀ need ∈ needs item,
        stageAlong key needs items need = stageAlong key needs (items ++ [last]) need := by
      intro item member need needed
      have before : need ∈ items.map key := by
        rcases List.mem_append.mp member with inside | single
        · obtain ⟨other, known, rfl⟩ := order.dropLast.needed inside needed
          exact List.mem_map_of_mem known
        · rw [List.mem_singleton.mp single] at needed
          exact order.earlier items last [] rfl need needed
      rw [appended, Function.update_of_ne]
      rintro rfl
      exact fresh before
    intro item member
    rw [← height_congr (untouched item member), appended]
    rcases List.mem_append.mp member with inside | single
    · rw [Function.update_of_ne]
      · exact ih order.dropLast item inside
      · intro same
        exact fresh (same ▸ List.mem_map_of_mem inside)
    · rw [List.mem_singleton.mp single, Function.update_self]

end Precedence

/-- What a queue has served and what waits in it: stage by stage, and the queue spans two stages at most. -/
structure Leveled (stage : K → Nat) (served queue : List K) : Prop where
  sorted : (served ++ queue).Pairwise fun first second => stage first ≤ stage second
  close : ∀ first ∈ queue, ∀ second ∈ queue, stage second ≤ stage first + 1

/-- Serving the head of the queue adds items of the next stage. -/
theorem Leveled.serve {served queue added : List K} {head : K} (leveled : Leveled stage served (head :: queue))
    (next : ∀ item ∈ added, stage item = stage head + 1) : Leveled stage (served ++ [head]) (queue ++ added) := by
  have sorted := leveled.sorted
  obtain ⟨-, waiting, across⟩ := List.pairwise_append.mp sorted
  have behind := (List.pairwise_cons.mp waiting).1
  have below : ∀ item ∈ served ++ head :: queue, stage item ≤ stage head + 1 := by
    intro item member
    rcases List.mem_append.mp member with old | present
    · exact Nat.le_succ_of_le (across item old head List.mem_cons_self)
    · exact leveled.close head List.mem_cons_self item present
  refine ⟨?_, ?_⟩
  · rw [show served ++ [head] ++ (queue ++ added) = (served ++ head :: queue) ++ added by simp]
    refine List.pairwise_append.mpr ⟨sorted, ?_, ?_⟩
    · exact List.pairwise_of_forall_mem_list fun first member second member' => by rw [next first member, next second member']
    · intro item member new member'
      rw [next new member']
      exact below item member
  · intro first member second member'
    have above : stage head ≤ stage first := by
      rcases List.mem_append.mp member with old | new
      · exact behind first old
      · rw [next first new]
        exact Nat.le_succ _
    have bound : stage second ≤ stage head + 1 := by
      rcases List.mem_append.mp member' with old | new
      · exact below second (List.mem_append_right _ (List.mem_cons_of_mem _ old))
      · exact (next second new).le
    omega

end PostJen.Foundations
