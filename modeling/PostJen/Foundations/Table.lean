import Mathlib.Data.List.Nodup

/-! Keyed tables: rows under distinct keys, read and rewritten as relations.

A table carries the distinctness of its keys, so a lookup and membership of
the row agree without further hypotheses. A serial table also hands out fresh
numeric keys; a key below its counter is never issued again.
-/

set_option autoImplicit false

namespace PostJen.Foundations

structure Table (K V : Type) where
  rows : List (K × V)
  distinct : (rows.map Prod.fst).Nodup

namespace Table

variable {K V : Type}

def empty : Table K V := ⟨[], List.nodup_nil⟩

def update (t : Table K V) (change : K → V → V) : Table K V where
  rows := t.rows.map fun row => (row.1, change row.1 row.2)
  distinct := by simpa only [List.map_map, Function.comp_def] using t.distinct

def delete (t : Table K V) (remove : K → V → Bool) : Table K V where
  rows := t.rows.filter fun row => !remove row.1 row.2
  distinct := t.distinct.sublist (List.filter_sublist.map _)

def append (t : Table K V) (key : K) (row : V) (fresh : ∀ entry ∈ t.rows, entry.1 ≠ key) :
    Table K V where
  rows := t.rows ++ [(key, row)]
  distinct := by
    rw [List.map_append, List.nodup_append]
    refine ⟨t.distinct, by simp, ?_⟩
    intro first member last single same
    obtain ⟨entry, inside, rfl⟩ := List.mem_map.mp member
    simp only [List.map_cons, List.map_nil, List.mem_singleton] at single
    exact fresh entry inside (same.trans single)

def select (t : Table K V) (keep : K → V → Bool) : List (K × V) :=
  t.rows.filter fun row => keep row.1 row.2

/-- The number of rows a statement would affect. -/
def count (t : Table K V) (keep : K → V → Bool) : Nat :=
  (t.select keep).length

theorem mem_select {t : Table K V} {keep : K → V → Bool} {entry : K × V} :
    entry ∈ t.select keep ↔ entry ∈ t.rows ∧ keep entry.1 entry.2 = true :=
  List.mem_filter

private theorem eq_of_rows {t t' : Table K V} (same : t.rows = t'.rows) : t = t' := by
  obtain ⟨rows, distinct⟩ := t
  obtain ⟨rows', distinct'⟩ := t'
  cases same
  rfl

/-- Which rows a statement removes does not depend on what they hold. -/
theorem update_delete {change : K → V → V} {remove : K → Bool} (t : Table K V) :
    (t.delete fun key _ => remove key).update change = (t.update change).delete fun key _ => remove key := by
  refine eq_of_rows ?_
  simp only [delete, update, List.filter_map]
  rfl

theorem count_update {change : K → V → V} {keep : K → Bool} (t : Table K V) :
    (t.update change).count (fun key _ => keep key) = t.count fun key _ => keep key := by
  simp only [count, select, update, List.filter_map, List.length_map]
  rfl

variable [DecidableEq K]

def find (t : Table K V) (key : K) : Option V :=
  t.rows.lookup key

def updateAt (t : Table K V) (key : K) (change : V → V) : Table K V :=
  t.update fun other row => if other = key then change row else row

private theorem lookup_eq_some {rows : List (K × V)} (distinct : (rows.map Prod.fst).Nodup)
    {key : K} {row : V} : rows.lookup key = some row ↔ (key, row) ∈ rows := by
  induction rows with
  | nil => simp
  | cons entry rest ih =>
    obtain ⟨other, value⟩ := entry
    simp only [List.map_cons, List.nodup_cons] at distinct
    by_cases same : key = other
    · subst other
      simp only [List.lookup_cons_self, Option.some.injEq, List.mem_cons, Prod.mk.injEq, true_and]
      constructor
      · exact fun equal => Or.inl equal.symm
      · rintro (equal | member)
        · exact equal.symm
        · exact absurd (List.mem_map.mpr ⟨_, member, rfl⟩) distinct.1
    · rw [List.lookup_cons, beq_false_of_ne same]
      simp only [List.mem_cons, Prod.mk.injEq, same, false_and, false_or]
      exact ih distinct.2

theorem find_eq_some {t : Table K V} {key : K} {row : V} :
    t.find key = some row ↔ (key, row) ∈ t.rows :=
  lookup_eq_some t.distinct

theorem find_eq_none {t : Table K V} {key : K} :
    t.find key = none ↔ ∀ row, (key, row) ∉ t.rows := by
  rw [Option.eq_none_iff_forall_not_mem]
  exact forall_congr' fun row => not_congr find_eq_some

@[simp] theorem find_empty (key : K) : (empty : Table K V).find key = none := rfl

@[simp] theorem find_update (t : Table K V) (change : K → V → V) (key : K) :
    (t.update change).find key = (t.find key).map (change key) := by
  ext row
  simp only [find_eq_some, Option.map_eq_some_iff, update, List.mem_map, Prod.mk.injEq]
  constructor
  · rintro ⟨⟨other, old⟩, member, rfl, rfl⟩
    exact ⟨old, member, rfl⟩
  · rintro ⟨old, member, rfl⟩
    exact ⟨(key, old), member, rfl, rfl⟩

@[simp] theorem find_updateAt_self (t : Table K V) (key : K) (change : V → V) :
    (t.updateAt key change).find key = (t.find key).map change := by
  simp [updateAt]

theorem find_updateAt_ne (t : Table K V) {key other : K} (change : V → V) (ne : other ≠ key) :
    (t.updateAt key change).find other = t.find other := by
  simp [updateAt, ne]

theorem find_updateAt (t : Table K V) (key other : K) (change : V → V) :
    (t.updateAt key change).find other =
      if other = key then (t.find other).map change else t.find other := by
  by_cases same : other = key
  · subst same
    rw [if_pos rfl, find_updateAt_self]
  · rw [if_neg same, find_updateAt_ne t change same]

@[simp] theorem find_delete (t : Table K V) (remove : K → V → Bool) (key : K) :
    (t.delete remove).find key = (t.find key).filter fun row => !remove key row := by
  ext row
  simp only [find_eq_some, Option.filter_eq_some_iff, delete, List.mem_filter]

theorem find_append (t : Table K V) (key other : K) (row : V)
    (fresh : ∀ entry ∈ t.rows, entry.1 ≠ key) :
    (t.append key row fresh).find other = if other = key then some row else t.find other := by
  by_cases same : other = key
  · subst same
    rw [if_pos rfl, find_eq_some]
    simp [append]
  · rw [if_neg same]
    ext value
    simp [find_eq_some, append, same]

def upsert (t : Table K V) (key : K) (row : V) (change : V → V) : Table K V :=
  if fresh : ∀ entry ∈ t.rows, entry.1 ≠ key then t.append key row fresh else t.updateAt key change

theorem find_upsert (t : Table K V) (key other : K) (row : V) (change : V → V) :
    (t.upsert key row change).find other =
      if other = key then some ((t.find key).elim row change) else t.find other := by
  unfold upsert
  split
  · rename_i fresh
    have absent : t.find key = none :=
      find_eq_none.mpr fun value member => fresh _ member rfl
    rw [find_append, absent]
    rfl
  · rename_i present
    obtain ⟨entry, member, same⟩ : ∃ entry ∈ t.rows, entry.1 = key := by simpa using present
    have found : t.find key = some entry.2 := find_eq_some.mpr (same ▸ member)
    rw [find_updateAt, found]
    by_cases equal : other = key
    · subst equal
      simp [found]
    · simp [equal]

variable {change : K → V → V}

theorem update_updateAt {key : K} {edit edit' : V → V} (t : Table K V)
    (commutes : ∀ row, change key (edit row) = edit' (change key row)) :
    (t.updateAt key edit).update change = (t.update change).updateAt key edit' := by
  refine eq_of_rows ?_
  simp only [updateAt, update, List.map_map]
  refine List.map_congr_left fun entry _ => ?_
  by_cases same : entry.1 = key
  · simp only [Function.comp_def, if_pos same, Prod.mk.injEq, true_and]
    rw [same, commutes]
  · simp only [Function.comp_def, if_neg same]

theorem update_upsert {key : K} {row : V} {edit edit' : V → V} (t : Table K V)
    (commutes : ∀ row, change key (edit row) = edit' (change key row)) :
    (t.upsert key row edit).update change = (t.update change).upsert key (change key row) edit' := by
  have fresh_iff : (∀ entry ∈ (t.update change).rows, entry.1 ≠ key) ↔ ∀ entry ∈ t.rows, entry.1 ≠ key := by
    simp only [update, List.mem_map, forall_exists_index, and_imp, forall_apply_eq_imp_iff₂]
  unfold upsert
  by_cases fresh : ∀ entry ∈ t.rows, entry.1 ≠ key
  · rw [dif_pos fresh, dif_pos (fresh_iff.mpr fresh)]
    refine eq_of_rows ?_
    simp only [append, update, List.map_append, List.map_cons, List.map_nil]
  · rw [dif_neg fresh, dif_neg (mt fresh_iff.mp fresh), update_updateAt t commutes]

end Table

/-- A table under an autoincrement key. -/
structure Serial (V : Type) where
  table : Table Nat V
  next : Nat
  bounded : ∀ entry ∈ table.rows, entry.1 < next

namespace Serial

variable {V : Type}

def empty : Serial V := ⟨.empty, 1, by simp [Table.empty]⟩

def find (t : Serial V) (key : Nat) : Option V := t.table.find key

def rows (t : Serial V) : List (Nat × V) := t.table.rows

def update (t : Serial V) (change : Nat → V → V) : Serial V where
  table := t.table.update change
  next := t.next
  bounded := by
    intro entry member
    obtain ⟨old, inside, rfl⟩ := List.mem_map.mp member
    exact t.bounded old inside

def updateAt (t : Serial V) (key : Nat) (change : V → V) : Serial V :=
  t.update fun other row => if other = key then change row else row

def insert (t : Serial V) (row : V) : Serial V where
  table := t.table.append t.next row fun entry member => Nat.ne_of_lt (t.bounded entry member)
  next := t.next + 1
  bounded := by
    intro entry member
    rcases List.mem_append.mp member with old | new
    · exact Nat.lt_succ_of_lt (t.bounded entry old)
    · rw [List.mem_singleton.mp new]
      exact Nat.lt_succ_self _

theorem find_eq_some {t : Serial V} {key : Nat} {row : V} :
    t.find key = some row ↔ (key, row) ∈ t.rows := Table.find_eq_some

theorem lt_next {t : Serial V} {key : Nat} {row : V} (found : t.find key = some row) :
    key < t.next := t.bounded (key, row) (find_eq_some.mp found)

@[simp] theorem find_empty (key : Nat) : (empty : Serial V).find key = none := rfl

@[simp] theorem find_update (t : Serial V) (change : Nat → V → V) (key : Nat) :
    (t.update change).find key = (t.find key).map (change key) := Table.find_update _ _ _

@[simp] theorem next_update (t : Serial V) (change : Nat → V → V) :
    (t.update change).next = t.next := rfl

@[simp] theorem next_updateAt (t : Serial V) (key : Nat) (change : V → V) :
    (t.updateAt key change).next = t.next := rfl

theorem find_updateAt (t : Serial V) (key other : Nat) (change : V → V) :
    (t.updateAt key change).find other =
      if other = key then (t.find other).map change else t.find other :=
  t.table.find_updateAt key other change

@[simp] theorem find_updateAt_self (t : Serial V) (key : Nat) (change : V → V) :
    (t.updateAt key change).find key = (t.find key).map change :=
  t.table.find_updateAt_self key change

theorem find_updateAt_ne (t : Serial V) {key other : Nat} (change : V → V) (ne : other ≠ key) :
    (t.updateAt key change).find other = t.find other :=
  t.table.find_updateAt_ne change ne

theorem find_insert (t : Serial V) (row : V) (key : Nat) :
    (t.insert row).find key = if key = t.next then some row else t.find key :=
  t.table.find_append t.next key row fun entry member => Nat.ne_of_lt (t.bounded entry member)

theorem rows_insert (t : Serial V) (row : V) : (t.insert row).rows = t.rows ++ [(t.next, row)] := rfl

@[simp] theorem next_insert (t : Serial V) (row : V) : (t.insert row).next = t.next + 1 := rfl

theorem find_next (t : Serial V) : t.find t.next = none := by
  cases found : t.find t.next with
  | none => rfl
  | some row => exact absurd (lt_next found) (Nat.lt_irrefl _)

end Serial

end PostJen.Foundations
