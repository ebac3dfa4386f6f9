import Mathlib.Data.List.Permutation
import Mathlib.Data.List.Sort
import Mathlib.Order.Lattice

/-! Reading a sorted list in pages of a fixed size.

A page is cut at an offset from an order of the list, and items of equal keys
come in any order, which may change from page to page; so may the list itself.
The reader moves on by the size of a page and stops at an empty one.
-/

set_option autoImplicit false

namespace PostJen.Foundations

section
variable {A K : Type} [LinearOrder K] (key : A → K)

/-- The orders that a sort by key may return. -/
def orderings (items : List A) : List (List A) :=
  items.permutations'.filter fun rows => rows.Pairwise fun first second => key first ≤ key second

def ahead (items : List A) (item : A) : Nat := items.countP fun other => key other < key item

def upTo (items : List A) (item : A) : Nat := items.countP fun other => key other ≤ key item

/-- Items of one key stand on one page. -/
def Fits (items : List A) (limit : Nat) : Prop :=
  ∀ item ∈ items, ahead key items item / limit = (upTo key items item - 1) / limit

instance (items : List A) (limit : Nat) : Decidable (Fits key items limit) :=
  inferInstanceAs (Decidable (∀ item ∈ items, _))

def slice (limit page : Nat) (rows : List A) : List A := (rows.drop (page * limit)).take limit

/-- What a reader receives from a page on. Each page is cut from a list that its state may serve, and the state goes
on between two pages. -/
inductive Scans {S : Type} (serves : S → List A → Prop) (goes : S → S → Prop) (limit : Nat) : Nat → S → List A → Prop where
  | done {page : Nat} {s : S} {rows : List A} (served : serves s rows) (empty : slice limit page rows = []) :
      Scans serves goes limit page s []
  | more {page : Nat} {s s' : S} {rows rest : List A} (served : serves s rows) (filled : slice limit page rows ≠ [])
      (gone : goes s s') (continued : Scans serves goes limit (page + 1) s' rest) :
      Scans serves goes limit page s (slice limit page rows ++ rest)

section
variable {S : Type} {serves : S → List A → Prop} {goes : S → S → Prop} {limit page : Nat} {s : S} {received : List A}

theorem Scans.map {T B : Type} {serves' : T → List B → Prop} {goes' : T → T → Prop} (state : S → T) (item : A → B)
    (serves_map : ∀ s rows, serves s rows → serves' (state s) (rows.map item))
    (goes_map : ∀ s s', goes s s' → goes' (state s) (state s')) (scanned : Scans serves goes limit page s received) :
    Scans serves' goes' limit page (state s) (received.map item) := by
  have cut : ∀ (page : Nat) (rows : List A), (slice limit page rows).map item = slice limit page (rows.map item) := by
    intro page rows
    rw [slice, slice, List.map_take, List.map_drop]
  induction scanned with
  | done served empty => exact .done (serves_map _ _ served) (by rw [← cut, empty, List.map_nil])
  | more served filled gone _ ih =>
    rw [List.map_append, cut]
    exact .more (serves_map _ _ served) (by rwa [← cut, ne_eq, List.map_eq_nil_iff]) (goes_map _ _ gone) ih

end

variable {key} {items rows received : List A} {limit page : Nat} {S : Type} {serves : S → List A → Prop}
  {goes : S → S → Prop} {s : S} {item : A}

theorem mem_orderings :
    rows ∈ orderings key items ↔
      rows.Perm items ∧ rows.Pairwise fun first second => key first ≤ key second := by
  simp only [orderings, List.mem_filter, List.mem_permutations', decide_eq_true_eq]

theorem orderings_exist (key : A → K) (items : List A) : ∃ rows, rows ∈ orderings key items :=
  ⟨_, mem_orderings.mpr ⟨List.mergeSort_perm _ fun first second => decide (key first ≤ key second),
    (List.pairwise_mergeSort (fun a b c => by simpa using le_trans) (fun a b => by simpa using le_total _ _) _).imp
      fun ordered => by simpa using ordered⟩⟩

theorem orderings_unique (distinct : (items.map key).Nodup) {rows' : List A} (ordered : rows ∈ orderings key items)
    (ordered' : rows' ∈ orderings key items) : rows = rows' := by
  obtain ⟨perm, sorted⟩ := mem_orderings.mp ordered
  obtain ⟨perm', sorted'⟩ := mem_orderings.mp ordered'
  have apart : ∀ first ∈ items, ∀ second ∈ items, key first = key second → first = second :=
    fun first inside second inside' same => List.inj_on_of_nodup_map distinct inside inside' same
  refine List.Perm.eq_of_pairwise (fun first second inside inside' le ge => ?_) sorted sorted'
    (perm.trans perm'.symm)
  exact apart first (perm.mem_iff.mp inside) second (perm'.mem_iff.mp inside') (le_antisymm le ge)

theorem slice_append (rows : List A) (limit page : Nat) :
    rows.drop (page * limit) = slice limit page rows ++ rows.drop ((page + 1) * limit) := by
  rw [slice, Nat.add_mul, Nat.one_mul, ← List.drop_drop, List.take_append_drop]

theorem slice_eq_nil (positive : 0 < limit) (empty : slice limit page rows = []) : rows.drop (page * limit) = [] := by
  rcases List.take_eq_nil_iff.mp empty with zero | nothing
  · exact absurd zero positive.ne'
  · exact nothing

/-! ## Lists that grow at the front -/

/-- A reader of a list to which items are only added at the front misses none of the items it began with. -/
theorem Scans.finds (positive : 0 < limit)
    (grows : ∀ s s' rows rows', serves s rows → goes s s' → serves s' rows' → rows <:+ rows')
    (scanned : Scans serves goes limit page s received)
    (awaits : ∀ rows, serves s rows → item ∈ rows.drop (page * limit)) : item ∈ received := by
  induction scanned with
  | @done page s rows served empty =>
    have there := awaits rows served
    rw [slice_eq_nil positive empty] at there
    cases there
  | @more page s s' rows rest served filled gone continued ih =>
    have there := awaits rows served
    rw [slice_append, List.mem_append] at there
    rcases there with here | beyond
    · exact List.mem_append_left _ here
    · refine List.mem_append_right _ (ih fun rows' served' => ?_)
      obtain ⟨front, rfl⟩ := grows s s' rows rows' served gone served'
      -- The item has moved back by the length of the front, so it still lies ahead of the reader.
      rw [List.drop_append, List.mem_append]
      exact .inr ((List.drop_sublist_drop_left _ (Nat.sub_le _ _)).subset beyond)

/-! ## Lists that stay as they are -/

section
variable {front back : List A}

theorem ahead_le (sorted : (front ++ item :: back).Pairwise fun first second => key first ≤ key second) :
    ahead key (front ++ item :: back) item ≤ front.length := by
  obtain ⟨-, rest, -⟩ := List.pairwise_append.mp sorted
  have none : (item :: back).countP (fun other => key other < key item) = 0 := by
    rw [List.countP_eq_zero]
    intro other member
    rcases List.mem_cons.mp member with rfl | behind
    · simp
    · simpa using (List.pairwise_cons.mp rest).1 other behind
  rw [ahead, List.countP_append, none, Nat.add_zero]
  exact List.countP_le_length

theorem lt_upTo (sorted : (front ++ item :: back).Pairwise fun first second => key first ≤ key second) :
    front.length < upTo key (front ++ item :: back) item := by
  obtain ⟨-, -, across⟩ := List.pairwise_append.mp sorted
  have all : front.countP (fun other => key other ≤ key item) = front.length := by
    rw [List.countP_eq_length]
    exact fun other member => by simpa using across other member item List.mem_cons_self
  have self : 0 < (item :: back).countP fun other => key other ≤ key item :=
    List.countP_pos_iff.mpr ⟨item, List.mem_cons_self, by simp⟩
  rw [upTo, List.countP_append, all]
  exact Nat.lt_add_of_pos_right self

/-- An item's keys alone tell on which page it stands. -/
theorem Fits.page_of (fits : Fits key items limit) (ordered : front ++ item :: back ∈ orderings key items) :
    ahead key items item / limit = front.length / limit := by
  obtain ⟨perm, sorted⟩ := mem_orderings.mp ordered
  have below : ahead key items item ≤ front.length := by
    rw [ahead, ← perm.countP_eq]
    exact ahead_le sorted
  have above : front.length < upTo key items item := by
    rw [upTo, ← perm.countP_eq]
    exact lt_upTo sorted
  have same := fits item (perm.mem_iff.mp (List.mem_append_right _ List.mem_cons_self))
  refine le_antisymm (Nat.div_le_div_right below) ?_
  rw [same]
  exact Nat.div_le_div_right (Nat.le_sub_one_of_lt above)

end

theorem split_of_mem_take {bound : Nat} (member : item ∈ rows.take bound) :
    ∃ front back, rows = front ++ item :: back ∧ front.length < bound := by
  obtain ⟨front, back, same⟩ := List.append_of_mem member
  refine ⟨front, back ++ rows.drop bound, ?_, ?_⟩
  · rw [← List.cons_append, ← List.append_assoc, ← same, List.take_append_drop]
  · have short := congrArg List.length same
    rw [List.length_take, List.length_append, List.length_cons] at short
    omega

theorem split_of_mem_drop {bound : Nat} (member : item ∈ rows.drop bound) :
    ∃ front back, rows = front ++ item :: back ∧ bound ≤ front.length := by
  obtain ⟨front, back, same⟩ := List.append_of_mem member
  have long : bound ≤ rows.length := by
    have short := List.length_pos_of_mem member
    rw [List.length_drop] at short
    omega
  refine ⟨rows.take bound ++ front, back, ?_, ?_⟩
  · rw [List.append_assoc, ← same, List.take_append_drop]
  · rw [List.length_append, List.length_take]
    omega

theorem split_of_mem_slice (member : item ∈ slice limit page rows) :
    ∃ front back, rows = front ++ item :: back ∧ page * limit ≤ front.length ∧ front.length < (page + 1) * limit := by
  obtain ⟨front, back, same, before⟩ := split_of_mem_take member
  have long : page * limit ≤ rows.length := by
    have whole := congrArg List.length same
    rw [List.length_drop, List.length_append, List.length_cons] at whole
    omega
  have moved : (rows.take (page * limit) ++ front).length = page * limit + front.length := by
    rw [List.length_append, List.length_take, Nat.min_eq_left long]
  refine ⟨rows.take (page * limit) ++ front, back, ?_, ?_, ?_⟩
  · rw [List.append_assoc, ← same, List.take_append_drop]
  · rw [moved]
    exact Nat.le_add_right _ _
  · rw [moved, Nat.add_mul, Nat.one_mul]
    exact Nat.add_lt_add_left before _

theorem slice_perm (fits : Fits key items limit) (ordered : rows ∈ orderings key items) (positive : 0 < limit) :
    (slice limit page rows).Perm (items.filter fun item => ahead key items item / limit = page) := by
  have stands : ∀ front item back, rows = front ++ item :: back →
      ahead key items item / limit = front.length / limit := by
    rintro front item back rfl
    exact fits.page_of ordered
  have kept : (rows.filter fun item => ahead key items item / limit = page) = slice limit page rows := by
    conv_lhs => rw [← List.take_append_drop (page * limit) rows, slice_append]
    rw [List.filter_append, List.filter_append, List.filter_eq_nil_iff.mpr ?_, List.nil_append,
      List.filter_eq_self.mpr ?_, List.filter_eq_nil_iff.mpr ?_, List.append_nil]
    · intro item member
      obtain ⟨front, back, same, after⟩ := split_of_mem_drop member
      rw [stands front item back same, decide_eq_true_eq]
      exact (Nat.lt_of_succ_le ((Nat.le_div_iff_mul_le positive).mpr after)).ne'
    · intro item member
      obtain ⟨front, back, same, after, before⟩ := split_of_mem_slice member
      rw [stands front item back same, decide_eq_true_eq]
      refine le_antisymm (Nat.le_of_lt_succ ((Nat.div_lt_iff_lt_mul positive).mpr before)) ?_
      exact (Nat.le_div_iff_mul_le positive).mpr after
    · intro item member
      obtain ⟨front, back, same, before⟩ := split_of_mem_take member
      rw [stands front item back same, decide_eq_true_eq]
      exact ((Nat.div_lt_iff_lt_mul positive).mpr before).ne
  rw [← kept]
  exact (mem_orderings.mp ordered).1.filter _

theorem Scans.perm (fits : Fits key items limit) (positive : 0 < limit)
    (serves_ordered : ∀ s rows, serves s rows → rows ∈ orderings key items)
    (scanned : Scans serves goes limit page s received) :
    received.Perm (items.filter fun item => page ≤ ahead key items item / limit) := by
  -- a page is the items whose smaller keys fill the pages before it; the rest is left for the next request
  induction scanned with
  | @done page s rows served empty =>
    have ordered := serves_ordered s rows served
    rw [List.filter_eq_nil_iff.mpr]
    intro item member
    obtain ⟨front, back, rfl⟩ := List.append_of_mem ((mem_orderings.mp ordered).1.mem_iff.mpr member)
    have short := congrArg List.length (slice_eq_nil positive empty)
    rw [List.length_drop, List.length_append, List.length_cons, List.length_nil] at short
    rw [fits.page_of ordered, decide_eq_true_eq, not_le, Nat.div_lt_iff_lt_mul positive]
    omega
  | @more page s s' rows rest served filled gone continued ih =>
    have here : (slice limit page rows).Perm _ := slice_perm fits (serves_ordered s rows served) positive
    refine (here.append ih).trans ?_
    have apart : (items.filter fun item => page ≤ ahead key items item / limit).Perm
        ((items.filter fun item => page ≤ ahead key items item / limit).filter
            (fun item => ahead key items item / limit = page) ++
          (items.filter fun item => page ≤ ahead key items item / limit).filter
            fun item => !decide (ahead key items item / limit = page)) :=
      (List.filter_append_perm _ _).symm
    refine List.Perm.trans (List.Perm.of_eq ?_) apart.symm
    rw [List.filter_filter, List.filter_filter]
    congr 1
    · refine List.filter_congr fun item _ => ?_
      by_cases same : ahead key items item / limit = page <;> simp [same]
    · refine List.filter_congr fun item _ => ?_
      rw [← decide_not, ← Bool.decide_and, decide_eq_decide]
      omega

/-! ## Ties across pages -/

theorem scans_constant (positive : 0 < limit) (served : serves s rows) (still : goes s s) :
    Scans serves goes limit page s (rows.drop (page * limit)) := by
  induction left : rows.length - page * limit using Nat.strong_induction_on generalizing page with
  | _ left ih =>
    by_cases past : rows.length ≤ page * limit
    · rw [List.drop_eq_nil_of_le past]
      exact .done served (by rw [slice, List.drop_eq_nil_of_le past, List.take_nil])
    · have filled : slice limit page rows ≠ [] := by
        intro empty
        exact past (List.drop_eq_nil_iff.mp (slice_eq_nil positive empty))
      rw [slice_append]
      refine .more served filled still (ih _ ?_ rfl)
      rw [Nat.add_mul, Nat.one_mul]
      omega

theorem scans_front {first : Nat} (positive : 0 < limit) (served : serves s rows) (still : goes s s)
    (long : page * limit ≤ rows.length) (scanned : Scans serves goes limit page s received) (before : first ≤ page) :
    Scans serves goes limit first s ((rows.take (page * limit)).drop (first * limit) ++ received) := by
  induction before using Nat.decreasingInduction with
  | self =>
    rw [List.drop_eq_nil_of_le (by rw [List.length_take]; exact Nat.min_le_left _ _), List.nil_append]
    exact scanned
  | of_succ first less ih =>
    have inside : (first + 1) * limit ≤ page * limit := Nat.mul_le_mul_right _ less
    rw [Nat.add_mul, Nat.one_mul] at inside
    have same : slice limit first rows = slice limit first (rows.take (page * limit)) := by
      rw [slice, slice, List.drop_take, List.take_take, Nat.min_eq_left (by omega)]
    rw [slice_append, ← same, List.append_assoc]
    refine .more served (fun empty => ?_) still ih
    have short := congrArg List.length (slice_eq_nil positive empty)
    rw [List.length_drop, List.length_nil] at short
    omega

section
variable {front back : List A} {other : A}

theorem key_of_between (sorted : (front ++ other :: back).Pairwise fun first second => key first ≤ key second)
    (after : ahead key (front ++ other :: back) item ≤ front.length)
    (before : front.length < upTo key (front ++ other :: back) item) : key other = key item := by
  obtain ⟨-, rest, across⟩ := List.pairwise_append.mp sorted
  refine le_antisymm (not_lt.mp fun larger => ?_) (not_lt.mp fun smaller => ?_)
  · have none : (other :: back).countP (fun row => key row ≤ key item) = 0 := by
      rw [List.countP_eq_zero]
      intro row member
      rcases List.mem_cons.mp member with rfl | behind
      · simpa using larger
      · simpa using larger.trans_le ((List.pairwise_cons.mp rest).1 row behind)
    rw [upTo, List.countP_append, none, Nat.add_zero] at before
    exact absurd before (not_lt.mpr List.countP_le_length)
  · have all : front.countP (fun row => key row < key item) = front.length := by
      rw [List.countP_eq_length]
      exact fun row member => by simpa using (across row member other List.mem_cons_self).trans_lt smaller
    have self : 0 < (other :: back).countP fun row => key row < key item :=
      List.countP_pos_iff.mpr ⟨other, List.mem_cons_self, by simpa using smaller⟩
    rw [ahead, List.countP_append, all] at after
    omega

theorem swap_orderings {first second : A} (ordered : front ++ first :: second :: back ∈ orderings key items)
    (same : key first = key second) : front ++ second :: first :: back ∈ orderings key items := by
  obtain ⟨perm, sorted⟩ := mem_orderings.mp ordered
  refine mem_orderings.mpr ⟨((List.Perm.swap first second back).append_left front).trans perm, ?_⟩
  simp only [List.pairwise_append, List.pairwise_cons, List.mem_cons] at sorted ⊢
  obtain ⟨before, ⟨behindFirst, behindSecond, rest⟩, across⟩ := sorted
  refine ⟨before, ⟨?_, fun row member => behindFirst row (.inr member), rest⟩, ?_⟩
  · rintro row (rfl | member)
    · exact same.ge
    · exact behindSecond row member
  · rintro row inside row' (rfl | rfl | member)
    · exact across row inside row' (.inr (.inl rfl))
    · exact across row inside row' (.inl rfl)
    · exact across row inside row' (.inr (.inr member))

end

theorem neighbours (rows : List A) {bound : Nat} (positive : 0 < bound) (long : bound < rows.length) :
    ∃ front first second back, rows = front ++ first :: second :: back ∧ front.length + 1 = bound := by
  obtain ⟨before, rfl⟩ := Nat.exists_eq_succ_of_ne_zero positive.ne'
  refine ⟨rows.take before, rows[before], rows[before + 1], rows.drop (before + 2), ?_, ?_⟩
  · rw [← List.drop_eq_getElem_cons, ← List.drop_eq_getElem_cons, List.take_append_drop]
  · rw [List.length_take]
    omega

/-- If items of one key stand on two pages, a reader may receive one of them twice. -/
theorem repeated_of_tie (positive : 0 < limit) (served : ∀ rows ∈ orderings key items, serves s rows) (still : goes s s)
    (tied : ¬Fits key items limit) : ∃ received, Scans serves goes limit 0 s received ∧ ¬received.Nodup := by
  unfold Fits at tied
  push Not at tied
  obtain ⟨item, member, apart⟩ := tied
  obtain ⟨rows, ordered⟩ := orderings_exist key items
  obtain ⟨perm, sorted⟩ := mem_orderings.mp ordered
  have counted : ahead key rows item = ahead key items item ∧ upTo key rows item = upTo key items item :=
    ⟨perm.countP_eq _, perm.countP_eq _⟩
  obtain ⟨front, back, split⟩ := List.append_of_mem (perm.mem_iff.mpr member)
  have inside : ahead key rows item < upTo key rows item := by
    rw [split] at sorted ⊢
    exact (ahead_le sorted).trans_lt (lt_upTo sorted)
  have short : upTo key rows item ≤ rows.length := List.countP_le_length
  rw [← counted.1, ← counted.2] at apart
  have less : ahead key rows item / limit < (upTo key rows item - 1) / limit :=
    lt_of_le_of_ne (Nat.div_le_div_right (by omega)) apart
  -- The boundary between the page of the first tied item and the next one.
  have after : ahead key rows item < (ahead key rows item / limit + 1) * limit := Nat.lt_mul_of_div_lt (Nat.lt_succ_self _) positive
  have before : (ahead key rows item / limit + 1) * limit ≤ upTo key rows item - 1 :=
    (Nat.le_div_iff_mul_le positive).mp less
  generalize ahead key rows item / limit + 1 = page at after before
  obtain ⟨front, first, second, back, same, bound⟩ := neighbours rows (show 0 < page * limit by omega) (by omega)
  have tie : key first = key second := by
    have here : key first = key item := by
      rw [same] at sorted after before
      exact key_of_between sorted (by omega) (by omega)
    have there : key second = key item := by
      rw [same, List.append_cons front first] at sorted after before
      refine key_of_between sorted ?_ ?_ <;> rw [List.length_append, List.length_singleton] <;> omega
    rw [here, there]
  have swapped := swap_orderings (same ▸ ordered) tie
  -- The order changes between the two pages.
  have rest : Scans serves goes limit page s ((front ++ second :: first :: back).drop (page * limit)) :=
    scans_constant positive (served _ swapped) still
  have whole : Scans serves goes limit 0 s ((rows.take (page * limit)).drop (0 * limit) ++ _) :=
    scans_front positive (served _ ordered) still (by omega) rest (Nat.zero_le _)
  refine ⟨_, whole, fun apart => ?_⟩
  rw [Nat.zero_mul, List.drop_zero, same, ← bound] at apart
  have moved : ∀ row : A, (front ++ [row]).length = front.length + 1 := fun row => List.length_append
  rw [List.append_cons front first, List.append_cons front second, List.take_left' (moved first),
    List.drop_left' (moved second)] at apart
  exact (List.nodup_append.mp apart).2.2 first (List.mem_append_right _ List.mem_cons_self) first
    List.mem_cons_self rfl

/-- If items of one key stand on one page, a reader receives every item once. -/
theorem Scans.exact (fits : Fits key items limit) (positive : 0 < limit)
    (serves_ordered : ∀ s rows, serves s rows → rows ∈ orderings key items)
    (scanned : Scans serves goes limit 0 s received) : received.Perm items := by
  have perm := scanned.perm fits positive serves_ordered
  simpa only [Nat.zero_le, decide_true, List.filter_true] using perm

/-- A reader is certain to receive no item twice exactly if the items of each key stand on one page. -/
theorem scans_nodup_iff (nodup : items.Nodup) (positive : 0 < limit)
    (served : ∀ s rows, serves s rows ↔ rows ∈ orderings key items) (still : goes s s) :
    (∀ received, Scans serves goes limit 0 s received → received.Nodup) ↔ Fits key items limit := by
  constructor
  · intro always
    by_contra tied
    obtain ⟨received, scanned, repeated⟩ := repeated_of_tie positive (fun rows => (served s rows).mpr) still tied
    exact repeated (always received scanned)
  · intro fits received scanned
    exact (scanned.exact fits positive fun s rows => (served s rows).mp).nodup_iff.mpr nodup

end

end PostJen.Foundations
