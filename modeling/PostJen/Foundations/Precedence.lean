import Mathlib.Data.List.Nodup
import Mathlib.Data.List.Induction
import Mathlib.Logic.Relation
import Mathlib.Data.Set.Finite.Basic
import Mathlib.Data.Fintype.Card
import Mathlib.Order.WellFounded

/-! Lists ordered by their own dependencies.

Items have distinct keys and name the keys they depend on; in a precedence
every dependency stands earlier in the list. The induction rules follow the
order of the list or the chain of dependencies behind one item.
-/

set_option autoImplicit false

namespace PostJen.Foundations

variable {A K : Type}

structure Precedence (key : A → K) (needs : A → List K) (items : List A) : Prop where
  distinct : (items.map key).Nodup
  earlier : ∀ front item back, items = front ++ item :: back →
    ∀ need ∈ needs item, need ∈ front.map key

namespace Precedence

variable {key : A → K} {needs : A → List K} {items : List A}

theorem key_inj (order : Precedence key needs items) {first second : A}
    (left : first ∈ items) (right : second ∈ items) (same : key first = key second) :
    first = second :=
  List.inj_on_of_nodup_map order.distinct left right same

theorem needed (order : Precedence key needs items) {item : A} (member : item ∈ items)
    {need : K} (needed : need ∈ needs item) : ∃ other ∈ items, key other = need := by
  obtain ⟨front, back, split⟩ := List.append_of_mem member
  obtain ⟨other, inside, same⟩ := List.mem_map.mp (order.earlier front item back split need needed)
  exact ⟨other, by rw [split]; exact List.mem_append_left _ inside, same⟩

/-- An item inherits a property that its dependencies pass on. -/
theorem induction (order : Precedence key needs items) {motive : A → Prop}
    (step : ∀ item ∈ items, (∀ other ∈ items, key other ∈ needs item → motive other) → motive item) :
    ∀ item ∈ items, motive item := by
  -- every item in front of another one has been done before it, so each prefix in turn
  have prefixes : ∀ front back, items = front ++ back → ∀ item ∈ front, motive item := by
    intro front
    induction front using List.reverseRecOn with
    | nil => simp
    | append_singleton front last ih =>
        intro back split item member
        have here : items = front ++ last :: back := by simpa using split
        rcases List.mem_append.mp member with inside | single
        · exact ih (last :: back) here item inside
        · rw [List.mem_singleton.mp single]
          refine step last (by rw [here]; simp) fun other present needed => ?_
          obtain ⟨same, inside, equal⟩ :=
            List.mem_map.mp (order.earlier front last back here _ needed)
          have known : same ∈ items := by rw [here]; exact List.mem_append_left _ inside
          rw [← order.key_inj known present equal]
          exact ih (last :: back) here same inside
  exact prefixes items [] (List.append_nil _).symm

theorem key_notin_front (order : Precedence key needs items) {front back : List A} {item : A}
    (split : items = front ++ item :: back) : key item ∉ front.map key := by
  have distinct := order.distinct
  rw [split, List.map_append, List.map_cons, List.nodup_append] at distinct
  exact fun member => distinct.2.2 _ member _ List.mem_cons_self rfl

theorem congr {B : Type} {key' : B → K} {needs' : B → List K} {others : List B}
    (order : Precedence key needs items)
    (same : others.map (fun item => (key' item, needs' item)) = items.map fun item => (key item, needs item)) :
    Precedence key' needs' others where
  distinct := by
    have keys := congrArg (List.map Prod.fst) same
    simp only [List.map_map, Function.comp_def] at keys
    rw [keys]
    exact order.distinct
  earlier := by
    intro front item back split need needed
    rw [split, List.map_append, List.map_cons] at same
    obtain ⟨front', rest, split', frontSame, restSame⟩ := List.append_eq_map_iff.mp same
    obtain ⟨item', back', rfl, itemSame, -⟩ := List.map_eq_cons_iff.mp restSame
    simp only [Prod.mk.injEq] at itemSame
    have inside := order.earlier front' item' back' split' need (by rw [itemSame.2]; exact needed)
    have keys := congrArg (List.map Prod.fst) frontSame
    simp only [List.map_map, Function.comp_def] at keys
    rw [← keys]
    exact inside

end Precedence

def Needs (key : A → K) (needs : A → List K) (items : List A) (first second : A) : Prop :=
  first ∈ items ∧ second ∈ items ∧ key first ∈ needs second

def Ancestor (key : A → K) (needs : A → List K) (items : List A) : A → A → Prop :=
  Relation.TransGen (Needs key needs items)

namespace Ancestor

variable {key : A → K} {needs : A → List K} {items : List A} {first second : A}

theorem inherit {motive : A → Prop} (chain : Ancestor key needs items first second)
    (direct : ∀ item, Needs key needs items item second → motive item)
    (step : ∀ one two, Needs key needs items one two → motive two → motive one) : motive first := by
  induction chain using Relation.TransGen.head_induction_on with
  | single edge => exact direct _ edge
  | head edge _ ih => exact step _ _ edge ih

theorem mem_first (chain : Ancestor key needs items first second) : first ∈ items := by
  induction chain using Relation.TransGen.head_induction_on with
  | single edge => exact edge.1
  | head edge _ _ => exact edge.1

theorem mem_last (chain : Ancestor key needs items first second) : second ∈ items := by
  induction chain with
  | single edge => exact edge.2.1
  | tail _ edge _ => exact edge.2.1

end Ancestor

def Acyclic (key : A → K) (needs : A → List K) (items : List A) : Prop :=
  ∀ item, ¬Ancestor key needs items item item

section
variable {key : A → K} {needs : A → List K} {items : List A}

theorem acyclic_of_rank (rank : A → Nat)
    (grows : ∀ first second, Needs key needs items first second → rank first < rank second) :
    Acyclic key needs items := by
  intro item cycle
  have climbs : ∀ last, Ancestor key needs items item last → rank item < rank last := by
    intro last chain
    induction chain with
    | single edge => exact grows _ _ edge
    | tail _ edge ih => exact Nat.lt_trans ih (grows _ _ edge)
  exact Nat.lt_irrefl _ (climbs item cycle)

/-- Of the items left, some item needs none of the others left. -/
theorem Acyclic.exists_free (acyclic : Acyclic key needs items) (left : A → Prop) {item : A} (member : item ∈ items)
    (isLeft : left item) :
    ∃ free ∈ items, left free ∧ ∀ other ∈ items, left other → key other ∉ needs free := by
  let earlier : {item // item ∈ items} → {item // item ∈ items} → Prop :=
    fun first second => Ancestor key needs items first.1 second.1
  have transitive : IsTrans _ earlier := ⟨fun _ _ _ one two => Relation.TransGen.trans one two⟩
  have irreflexive : Std.Irrefl earlier := ⟨fun item => acyclic item.1⟩
  have finite : Finite {item // item ∈ items} := items.finite_toSet
  have founded : WellFounded earlier := Finite.wellFounded_of_trans_of_irrefl earlier
  obtain ⟨free, freeLeft, minimal⟩ := founded.has_min {item | left item.1} ⟨⟨item, member⟩, isLeft⟩
  refine ⟨free.1, free.2, freeLeft, fun other inside otherLeft needed => ?_⟩
  exact minimal ⟨other, inside⟩ otherLeft (Relation.TransGen.single ⟨inside, free.2, needed⟩)

end

end PostJen.Foundations
