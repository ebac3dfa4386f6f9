import PostJen.Foundations.Table

/-! Serial tables from which no row is deleted.

A table grows when its rows keep their places and the columns that no update
writes, and new rows come behind them. If a row carries the time of its
insertion and the clock is never set back, the rows stand in order of time.
-/

set_option autoImplicit false

namespace PostJen.Foundations.Serial

variable {V W : Type}

/-- The keys with the columns that are never written again. -/
def kept (keep : V → W) (t : Serial V) : List (Nat × W) :=
  t.rows.map fun entry => (entry.1, keep entry.2)

def Grows (keep : V → W) (before after : Serial V) : Prop := before.kept keep <+: after.kept keep

section
variable {keep : V → W} {t before middle after : Serial V}

theorem Grows.refl (t : Serial V) : t.Grows keep t := List.prefix_refl _

theorem Grows.trans (first : before.Grows keep middle) (second : middle.Grows keep after) :
    before.Grows keep after := List.IsPrefix.trans first second

theorem grows_insert (t : Serial V) (row : V) : t.Grows keep (t.insert row) := by
  unfold Grows kept
  rw [rows_insert, List.map_append]
  exact List.prefix_append _ _

theorem kept_updateAt {key : Nat} {change : V → V} (t : Serial V) (same : ∀ row, keep (change row) = keep row) :
    (t.updateAt key change).kept keep = t.kept keep := by
  simp only [kept, rows, updateAt, update, Table.update, List.map_map]
  refine List.map_congr_left fun entry _ => ?_
  simp only [Function.comp_def]
  split
  · rw [same]
  · rfl

theorem grows_updateAt {key : Nat} {change : V → V} (t : Serial V) (same : ∀ row, keep (change row) = keep row) :
    t.Grows keep (t.updateAt key change) :=
  ⟨[], by rw [List.append_nil, kept_updateAt t same]⟩

theorem mem_updateAt {key : Nat} {change : V → V} {entry : Nat × V} (member : entry ∈ (t.updateAt key change).rows) :
    ∃ old ∈ t.rows, entry.1 = old.1 ∧ (entry.2 = old.2 ∨ entry.2 = change old.2) := by
  obtain ⟨old, inside, rfl⟩ := List.mem_map.mp member
  refine ⟨old, inside, rfl, ?_⟩
  show (if old.1 = key then change old.2 else old.2) = old.2 ∨ (if old.1 = key then change old.2 else old.2) = change old.2
  split
  · exact .inr rfl
  · exact .inl rfl

theorem Grows.find (grows : before.Grows keep after) {key : Nat} {row : V} (found : before.find key = some row) :
    ∃ row', after.find key = some row' ∧ keep row' = keep row := by
  have listed : (key, keep row) ∈ after.kept keep :=
    grows.subset (List.mem_map_of_mem (f := fun entry : Nat × V => (entry.1, keep entry.2)) (find_eq_some.mp found))
  obtain ⟨⟨other, row'⟩, inside, same⟩ := List.mem_map.mp listed
  obtain ⟨rfl, equal⟩ := Prod.mk.inj same
  exact ⟨row', find_eq_some.mpr inside, equal⟩

end

/-- Every row of the table is an old one, but for the columns that updates write, or a fresh one. -/
def Renewed (keep : V → W) (fresh : Nat × V → Prop) (before after : Serial V) : Prop :=
  ∀ entry ∈ after.rows, (∃ old ∈ before.rows, entry.1 = old.1 ∧ keep entry.2 = keep old.2) ∨ fresh entry

section
variable {keep : V → W} {fresh : Nat × V → Prop} {t : Serial V}

theorem renewed_same : t.Renewed keep fresh t := fun entry member => .inl ⟨entry, member, rfl, rfl⟩

theorem renewed_insert {row : V} (new : fresh (t.next, row)) : t.Renewed keep fresh (t.insert row) := by
  intro entry member
  rw [rows_insert, List.mem_append, List.mem_singleton] at member
  rcases member with old | rfl
  · exact .inl ⟨entry, old, rfl, rfl⟩
  · exact .inr new

theorem renewed_updateAt {key : Nat} {change : V → V} (same : ∀ row, keep (change row) = keep row) :
    t.Renewed keep fresh (t.updateAt key change) := by
  intro entry member
  obtain ⟨old, inside, id, kept | changed⟩ := mem_updateAt member
  · exact .inl ⟨old, inside, id, by rw [kept]⟩
  · exact .inl ⟨old, inside, id, by rw [changed, same]⟩

end

def Unique (columns : V → W) (t : Serial V) : Prop := (t.rows.map fun entry => columns entry.2).Nodup

section
variable {columns : V → W} {t : Serial V}

theorem Unique.insert {row : V} (unique : t.Unique columns) (fresh : ∀ entry ∈ t.rows, columns entry.2 ≠ columns row) :
    (t.insert row).Unique columns := by
  rw [Unique, rows_insert, List.map_append, List.nodup_append]
  refine ⟨unique, List.nodup_singleton _, ?_⟩
  intro value member other single
  obtain ⟨entry, inside, rfl⟩ := List.mem_map.mp member
  rw [List.map_cons, List.map_nil, List.mem_singleton] at single
  rw [single]
  exact fresh entry inside

theorem Unique.updateAt {key : Nat} {change : V → V} (unique : t.Unique columns)
    (same : ∀ row, columns (change row) = columns row) : (t.updateAt key change).Unique columns := by
  have kept : ((t.updateAt key change).kept columns).map Prod.snd = (t.kept columns).map Prod.snd := by
    rw [kept_updateAt t same]
  simp only [Serial.kept, List.map_map, Function.comp_def] at kept
  rw [Unique, kept]
  exact unique

end

/-- Rows listed by key whose stamps never go back. -/
structure Stamped (stamp : V → Nat) (now : Nat) (t : Serial V) : Prop where
  keys : t.rows.Pairwise fun first second => first.1 < second.1
  ordered : t.rows.Pairwise fun first second => stamp first.2 ≤ stamp second.2
  past : ∀ entry ∈ t.rows, stamp entry.2 ≤ now

namespace Stamped

variable {stamp : V → Nat} {now : Nat} {t : Serial V}

theorem empty : (Serial.empty : Serial V).Stamped stamp now where
  keys := .nil
  ordered := .nil
  past := fun _ member => by cases member

theorem later {now' : Nat} (stamped : t.Stamped stamp now) (onward : now ≤ now') : t.Stamped stamp now' :=
  ⟨stamped.keys, stamped.ordered, fun entry member => Nat.le_trans (stamped.past entry member) onward⟩

theorem insert (stamped : t.Stamped stamp now) {row : V} (current : stamp row = now) :
    (t.insert row).Stamped stamp now where
  keys := by
    rw [rows_insert, List.pairwise_append]
    refine ⟨stamped.keys, List.pairwise_singleton _ _, fun first member last single => ?_⟩
    rw [List.mem_singleton.mp single]
    exact t.bounded first member
  ordered := by
    rw [rows_insert, List.pairwise_append]
    refine ⟨stamped.ordered, List.pairwise_singleton _ _, fun first member last single => ?_⟩
    rw [List.mem_singleton.mp single, current]
    exact stamped.past first member
  past := by
    intro entry member
    rw [rows_insert, List.mem_append, List.mem_singleton] at member
    rcases member with old | rfl
    · exact stamped.past entry old
    · exact Nat.le_of_eq current

theorem updateAt (stamped : t.Stamped stamp now) {key : Nat} {change : V → V}
    (same : ∀ row, stamp (change row) = stamp row) : (t.updateAt key change).Stamped stamp now := by
  have kept : ∀ entry : Nat × V, stamp (if entry.1 = key then change entry.2 else entry.2) = stamp entry.2 := by
    intro entry
    split
    · exact same _
    · rfl
  refine ⟨?_, ?_, ?_⟩
  · simpa only [rows, Serial.updateAt, update, Table.update, List.pairwise_map] using stamped.keys
  · simpa only [rows, Serial.updateAt, update, Table.update, List.pairwise_map, kept] using stamped.ordered
  · intro entry member
    obtain ⟨old, inside, rfl⟩ := List.mem_map.mp member
    show stamp (if old.1 = key then change old.2 else old.2) ≤ now
    rw [kept]
    exact stamped.past old inside

theorem le (stamped : t.Stamped stamp now) {first second : Nat} {row row' : V} (found : t.find first = some row)
    (found' : t.find second = some row') (before : first < second) : stamp row ≤ stamp row' := by
  have ahead : t.rows.Pairwise fun x y => x.1 < y.1 → stamp x.2 ≤ stamp y.2 := by
    refine stamped.ordered.imp ?_
    exact fun ordered _ => ordered
  have behind : t.rows.Pairwise fun x y => y.1 < x.1 → stamp y.2 ≤ stamp x.2 := by
    refine stamped.keys.imp ?_
    exact fun less greater => absurd greater (Nat.lt_asymm less)
  exact List.Pairwise.forall_of_forall_of_flip (fun x _ less => absurd less (Nat.lt_irrefl _)) ahead behind
    (find_eq_some.mp found) (find_eq_some.mp found') before

end Stamped

end PostJen.Foundations.Serial
