import Mathlib.Logic.Function.Iterate
import Mathlib.Data.List.Induction

/-! Lexical paths: a location in a tree of names, and the walks that components take.

A location is a normal form. A walk never leaves a place it has not been led
out of: it climbs as often as its own normal form does and then descends.
-/

set_option autoImplicit false

namespace PostJen.Foundations

/-- A component of a path that moves: `..`, or the name of an entry. -/
inductive Component (Name : Type) where
  | parent
  | entry (name : Name)
  deriving DecidableEq

/-- A normalised path: from the root, or up some levels from where one stands,
and then down along the names. -/
structure Location (Name : Type) where
  absolute : Bool
  up : Nat
  names : List Name
  deriving DecidableEq

namespace Location

variable {Name : Type}

def root : Location Name := ⟨true, 0, []⟩

def here : Location Name := ⟨false, 0, []⟩

/-- The root is its own parent. -/
def climb (place : Location Name) : Location Name :=
  if place.names = [] then { place with up := if place.absolute then place.up else place.up + 1 }
  else { place with names := place.names.dropLast }

def descend (place : Location Name) (names : List Name) : Location Name :=
  { place with names := place.names ++ names }

def step (place : Location Name) : Component Name → Location Name
  | .parent => place.climb
  | .entry name => place.descend [name]

def walk (place : Location Name) (components : List (Component Name)) : Location Name :=
  components.foldl step place

def Inside (dir place : Location Name) : Prop :=
  ∃ names, names ≠ [] ∧ place = dir.descend names

@[simp] theorem descend_nil (place : Location Name) : place.descend [] = place := by
  rw [descend, List.append_nil]

@[simp] theorem descend_descend (place : Location Name) (first rest : List Name) :
    (place.descend first).descend rest = place.descend (first ++ rest) := by
  rw [descend, descend, descend, List.append_assoc]

@[simp] theorem walk_append (place : Location Name) (first rest : List (Component Name)) :
    place.walk (first ++ rest) = (place.walk first).walk rest := List.foldl_append

theorem walk_entry (place : Location Name) (name : Name) : place.walk [.entry name] = place.descend [name] := rfl

theorem climb_descend (place : Location Name) {names : List Name} (nonempty : names ≠ []) :
    (place.descend names).climb = place.descend names.dropLast := by
  have below : place.names ++ names ≠ [] := fun none => nonempty (List.append_eq_nil_iff.mp none).2
  rw [climb, descend, if_neg below, descend, List.dropLast_append_of_ne_nil nonempty]

/-- The normal form of a relative path says what a walk along it does. -/
theorem walk_eq (place : Location Name) (components : List (Component Name)) :
    place.walk components =
      (climb^[(here.walk components).up] place).descend (here.walk components).names ∧
      (here.walk components).absolute = false := by
  -- on the last component: only a `..` that finds no name to take back leads further up
  induction components using List.reverseRecOn with
  | nil => exact ⟨(descend_nil place).symm, rfl⟩
  | append_singleton front last ih =>
    obtain ⟨moved, relative⟩ := ih
    rw [walk_append, walk_append, moved]
    generalize (here : Location Name).walk front = own at relative
    cases last with
    | entry name => exact ⟨descend_descend _ _ _, relative⟩
    | parent =>
      by_cases bottom : own.names = []
      · have up : (own.walk [.parent]) = ⟨own.absolute, own.up + 1, own.names⟩ := by
          simp [walk, step, climb, bottom, relative]
        rw [up, bottom, descend_nil, descend_nil, Function.iterate_succ_apply']
        exact ⟨rfl, relative⟩
      · have up : (own.walk [.parent]) = ⟨own.absolute, own.up, own.names.dropLast⟩ := by
          simp [walk, step, climb, bottom]
        rw [up]
        exact ⟨climb_descend _ bottom, relative⟩

/-- A relative path that never climbs above its start leads inside every place. -/
theorem inside_walk (place : Location Name) {components : List (Component Name)}
    (level : (here.walk components).up = 0) (below : (here.walk components).names ≠ []) :
    place.Inside (place.walk components) := by
  refine ⟨_, below, ?_⟩
  rw [(place.walk_eq components).1, level]
  rfl

theorem up_climb (place : Location Name) : place.up ≤ place.climb.up := by
  unfold climb
  split
  · cases place.absolute
    · exact Nat.le_succ _
    · exact Nat.le_refl _
  · exact Nat.le_refl _

theorem up_mono (first rest : List (Component Name)) :
    (here.walk first).up ≤ (here.walk (first ++ rest)).up := by
  induction rest using List.reverseRecOn with
  | nil => simp only [List.append_nil, Nat.le_refl]
  | append_singleton front last ih =>
    rw [← List.append_assoc, walk_append]
    cases last with
    | entry name => exact ih
    | parent => exact Nat.le_trans ih (up_climb _)

theorem walk_forgets (place : Location Name) (first second : Name) {components : List (Component Name)}
    (climbs : (here.walk components).up ≠ 0) :
    (place.descend [first]).walk components = (place.descend [second]).walk components := by
  have forgets : ∀ name, (climb^[(here.walk components).up] (place.descend [name])) =
      climb^[(here.walk components).up - 1] place := by
    intro name
    obtain ⟨count, more⟩ := Nat.exists_eq_succ_of_ne_zero climbs
    rw [more, Function.iterate_succ_apply, climb_descend place (List.cons_ne_nil _ _)]
    exact congrArg (climb^[count]) (descend_nil place)
  rw [((place.descend [first]).walk_eq components).1, ((place.descend [second]).walk_eq components).1,
    forgets, forgets]

theorem not_inside_self (place : Location Name) : ¬place.Inside place := by
  rintro ⟨names, nonempty, same⟩
  have names_eq : place.names = place.names ++ names := congrArg Location.names same
  exact nonempty (List.self_eq_append_right.mp names_eq)

theorem Inside.above {place other : Location Name} {names : List Name}
    (inside : (place.descend names).Inside other) : place.Inside other := by
  obtain ⟨more, nonempty, rfl⟩ := inside
  refine ⟨names ++ more, fun none => nonempty (List.append_eq_nil_iff.mp none).2, ?_⟩
  rw [descend_descend]

theorem Inside.disjoint {place other : Location Name} {first second : List Name}
    (left : (place.descend first).Inside other) (right : (place.descend second).Inside other)
    (length : first.length = second.length) : first = second := by
  obtain ⟨rest, -, rfl⟩ := left
  obtain ⟨rest', -, same⟩ := right
  have names := congrArg Location.names same
  simp only [Location.descend, List.append_assoc, List.append_cancel_left_eq] at names
  exact (List.append_inj names length).1

end Location

end PostJen.Foundations
