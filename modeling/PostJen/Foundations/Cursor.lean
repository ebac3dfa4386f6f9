import Mathlib.Data.List.Permutation
import Mathlib.Data.List.Sort

/-! Reading a list in pages behind a cursor.

A page holds the first items, by key, whose keys lie beyond the cursor; items
of equal keys come in any order. The reader moves its cursor to the last key it
has seen and stops at an empty page.
-/

set_option autoImplicit false

namespace PostJen.Foundations

section
variable {A K : Type} [LinearOrder K] (key : A → K)

def beyond (items : List A) (cursor : Option K) : List A :=
  items.filter fun item => cursor.all fun last => last < key item

/-- Every page that may answer a request. -/
def pages (items : List A) (limit : Nat) (cursor : Option K) : List (List A) :=
  ((beyond key items cursor).permutations'.filter fun rows =>
    rows.Pairwise fun first second => key first ≤ key second).map (List.take limit)

/-- The items that a reader receives from a cursor on. -/
inductive Collects (items : List A) (limit : Nat) : Option K → List A → Prop where
  | done {cursor : Option K} (answered : [] ∈ pages key items limit cursor) : Collects items limit cursor []
  | more {cursor : Option K} {page rest : List A} {last : A} (answered : page ∈ pages key items limit cursor)
      (ends : page.getLast? = some last) (continued : Collects items limit (some (key last)) rest) :
      Collects items limit cursor (page ++ rest)

variable {key} {items page rows rest : List A} {limit : Nat} {cursor : Option K} {last : A}

theorem mem_pages :
    page ∈ pages key items limit cursor ↔
      ∃ rows : List A, rows.Perm (beyond key items cursor) ∧
        rows.Pairwise (fun first second => key first ≤ key second) ∧ rows.take limit = page := by
  simp only [pages, List.mem_map, List.mem_filter, List.mem_permutations', decide_eq_true_eq, and_assoc]

theorem mem_beyond {item : A} :
    item ∈ beyond key items cursor ↔ item ∈ items ∧ ∀ last, cursor = some last → last < key item := by
  simp only [beyond, List.mem_filter]
  cases cursor <;> simp

theorem le_last {item : A} (sorted : page.Pairwise fun first second => key first ≤ key second)
    (ends : page.getLast? = some last) (member : item ∈ page) : key item ≤ key last := by
  obtain ⟨front, rfl⟩ := List.getLast?_eq_some_iff.mp ends
  rcases List.mem_append.mp member with before | here
  · exact (List.pairwise_append.mp sorted).2.2 item before last List.mem_cons_self
  · rw [List.mem_singleton.mp here]

theorem beyond_later (member : last ∈ beyond key items cursor) :
    beyond key items (some (key last)) = (beyond key items cursor).filter fun item => key last < key item := by
  rw [beyond, beyond, List.filter_filter]
  refine List.filter_congr fun item _ => ?_
  have above := (mem_beyond.mp member).2
  cases cursor with
  | none => simp
  | some bound =>
    simp only [Option.all_some, ← Bool.decide_and, decide_eq_decide]
    exact ⟨fun after => ⟨after, (above bound rfl).trans after⟩, And.left⟩

theorem strict_of_distinct (distinct : (items.map key).Nodup) (perm : rows.Perm (beyond key items cursor))
    (sorted : rows.Pairwise fun first second => key first ≤ key second) :
    rows.Pairwise fun first second => key first < key second := by
  have apart : (rows.map key).Nodup :=
    (perm.map key).nodup_iff.mpr (distinct.sublist (List.filter_sublist.map key))
  exact (sorted.and (List.pairwise_map.mp apart)).imp fun both => lt_of_le_of_ne both.1 both.2

theorem beyond_page (distinct : (items.map key).Nodup) (perm : rows.Perm (beyond key items cursor))
    (sorted : rows.Pairwise fun first second => key first ≤ key second)
    (ends : (rows.take limit).getLast? = some last) :
    (beyond key items (some (key last))).Perm (rows.drop limit) := by
  have strict := strict_of_distinct distinct perm sorted
  rw [← List.take_append_drop limit rows] at strict
  obtain ⟨front, -, across⟩ := List.pairwise_append.mp strict
  have member : last ∈ rows.take limit := List.mem_of_getLast? ends
  have taken : ∀ item ∈ rows.take limit, ¬key last < key item := fun item inside =>
    not_lt.mpr (le_last (front.imp le_of_lt) ends inside)
  have kept : (rows.filter fun item => key last < key item) = rows.drop limit := by
    conv_lhs => rw [← List.take_append_drop limit rows]
    rw [List.filter_append, List.filter_eq_nil_iff.mpr fun item inside => by simpa using taken item inside,
      List.nil_append, List.filter_eq_self.mpr fun item inside => by simpa using across last member item inside]
  rw [← kept, beyond_later (perm.mem_iff.mp (List.mem_of_mem_take member))]
  exact perm.symm.filter _

/-- With distinct keys a reader receives every item beyond its cursor once, in order. -/
theorem Collects.exact (distinct : (items.map key).Nodup) (positive : 0 < limit)
    (collected : Collects key items limit cursor rows) :
    rows.Perm (beyond key items cursor) ∧ rows.Pairwise fun first second => key first < key second := by
  induction collected with
  | done answered =>
    obtain ⟨all, perm, -, empty⟩ := mem_pages.mp answered
    rcases List.take_eq_nil_iff.mp empty with zero | nothing
    · exact absurd zero positive.ne'
    · rw [nothing] at perm
      exact ⟨perm, .nil⟩
  | @more cursor page rest last answered ends _ ih =>
    obtain ⟨all, perm, sorted, rfl⟩ := mem_pages.mp answered
    have strict := strict_of_distinct distinct perm sorted
    refine ⟨?_, List.pairwise_append.mpr ⟨strict.sublist (List.take_sublist _ _), ih.2, ?_⟩⟩
    · refine List.Perm.trans ?_ perm
      conv_rhs => rw [← List.take_append_drop limit all]
      exact (ih.1.trans (beyond_page distinct perm sorted ends)).append_left _
    · intro first inside second later
      have after := (mem_beyond.mp (ih.1.mem_iff.mp later)).2 _ rfl
      exact (le_last (sorted.sublist (List.take_sublist _ _)) ends inside).trans_lt after

theorem beyond_shrinks (answered : page ∈ pages key items limit cursor) (ends : page.getLast? = some last) :
    (beyond key items (some (key last))).length < (beyond key items cursor).length := by
  obtain ⟨all, perm, -, rfl⟩ := mem_pages.mp answered
  have member : last ∈ beyond key items cursor :=
    perm.mem_iff.mp (List.mem_of_mem_take (List.mem_of_getLast? ends))
  rw [beyond_later member]
  exact List.length_filter_lt_length_iff_exists.mpr ⟨last, member, by simp⟩

/-- Some page answers each request, and the reader comes to an end. -/
theorem collects_exists (items : List A) (limit : Nat) (cursor : Option K) :
    ∃ rows, Collects key items limit cursor rows := by
  induction count : (beyond key items cursor).length using Nat.strong_induction_on generalizing cursor with
  | _ count ih =>
    obtain ⟨rows, perm, sorted⟩ : ∃ rows : List A, rows.Perm (beyond key items cursor) ∧
        rows.Pairwise fun first second => key first ≤ key second :=
      ⟨_, List.mergeSort_perm _ fun first second => decide (key first ≤ key second),
        (List.pairwise_mergeSort (fun a b c => by simpa using le_trans) (fun a b => by simpa using le_total _ _) _).imp
          fun ordered => by simpa using ordered⟩
    have answered : rows.take limit ∈ pages key items limit cursor := mem_pages.mpr ⟨rows, perm, sorted, rfl⟩
    cases ends : (rows.take limit).getLast? with
    | none =>
      rw [List.getLast?_eq_none_iff.mp ends] at answered
      exact ⟨[], .done answered⟩
    | some last =>
      obtain ⟨rest, continued⟩ := ih _ (count ▸ beyond_shrinks answered ends) (some (key last)) rfl
      exact ⟨_, .more answered ends continued⟩

end

end PostJen.Foundations
