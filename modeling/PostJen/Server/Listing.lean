import PostJen.Server.Timeline

/-! What a client receives that lists the runs page by page.

`list_runs` orders by `created_at` alone and cuts at an offset. Runs of one
second have no order of their own, and every new run moves the older ones back.
-/

set_option autoImplicit false

open PostJen.Foundations PostJen.Core

namespace PostJen.Server

/-- The query for a page. The client moves on by the size that the server uses. -/
def RunListQuery.page (query : RunListQuery) (number : Nat) : RunListQuery :=
  { query with offset := some (number * query.pageSize : Nat) }

/-- What a client receives that asks for one page after another until a page is empty. -/
inductive Pages {S : Type} (db : S → Db) (goes : S → S → Prop) (query : RunListQuery) : Nat → S → List RunSummary → Prop where
  | done {number : Nat} {s : S} (answer : [] ∈ listRuns (db s) (query.page number)) : Pages db goes query number s []
  | more {number : Nat} {s s' : S} {rows rest : List RunSummary} (answer : rows ∈ listRuns (db s) (query.page number))
      (filled : rows ≠ []) (gone : goes s s') (continued : Pages db goes query (number + 1) s' rest) :
      Pages db goes query number s (rows ++ rest)

namespace RunListQuery

variable (query : RunListQuery) {number : Nat} {db : Db} {answer : List RunSummary}

theorem pageSize_pos : 0 < query.pageSize := by
  unfold pageSize
  omega

theorem start_page : (query.page number).start = number * query.pageSize := by
  simp only [start, page, Option.getD_some]
  omega

theorem mem_listRuns_page :
    answer ∈ listRuns db (query.page number) ↔ ∃ rows ∈ orderings newestFirst (db.matchingRuns query),
      answer = (slice query.pageSize number rows).map Prod.snd := by
  rw [listRuns, List.mem_map, start_page]
  exact exists_congr fun rows => and_congr_right fun _ => eq_comm

end RunListQuery

section
variable {S : Type} {db : S → Db} {goes : S → S → Prop} {query : RunListQuery} {number : Nat} {s : S}
  {received : List RunSummary}

/-- The rows that the client receives are those of a reader of the ordered list. -/
theorem Pages.scans (paged : Pages db goes query number s received) (holds : S → Prop) (now : holds s)
    (keeps : ∀ s s', holds s → goes s s' → holds s') :
    ∃ scanned, Scans (fun s rows => holds s ∧ rows ∈ orderings newestFirst ((db s).matchingRuns query)) goes
      query.pageSize number s scanned ∧ received = scanned.map Prod.snd := by
  induction paged with
  | done answer =>
    obtain ⟨rows, ordered, nothing⟩ := query.mem_listRuns_page.mp answer
    exact ⟨[], .done ⟨now, ordered⟩ (List.map_eq_nil_iff.mp nothing.symm), rfl⟩
  | more answer filled gone continued ih =>
    obtain ⟨rows, ordered, rfl⟩ := query.mem_listRuns_page.mp answer
    obtain ⟨scanned, rest, rfl⟩ := ih (keeps _ _ now gone)
    refine ⟨_, .more ⟨now, ordered⟩ ?_ gone rest, List.map_append.symm⟩
    exact fun empty => filled (by rw [empty, List.map_nil])

theorem pages_of_scans {scanned : List (Timestamp × RunSummary)}
    (scans : Scans (fun s rows => rows ∈ orderings newestFirst ((db s).matchingRuns query)) goes
      query.pageSize number s scanned) : Pages db goes query number s (scanned.map Prod.snd) := by
  induction scans with
  | @done page s rows served empty =>
    refine .done (query.mem_listRuns_page.mpr ⟨rows, served, ?_⟩)
    rw [empty, List.map_nil]
  | @more page s s' rows rest served filled gone _ ih =>
    rw [List.map_append]
    refine .more (query.mem_listRuns_page.mpr ⟨rows, served, rfl⟩) ?_ gone ih
    rwa [ne_eq, List.map_eq_nil_iff]

end

/-! ## A database that stays as it is -/

namespace Db

variable (db : Db) (query : RunListQuery)

def matchingIds : List Nat := (db.jobRuns.rows.filter fun row => query.matches row.2).map Prod.fst

theorem matchingRuns_ids : (db.matchingRuns query).map (fun row => row.2.id) = db.matchingIds query := by
  rw [matchingRuns, matchingIds, List.map_map]
  rfl

theorem matchingIds_nodup : (db.matchingIds query).Nodup :=
  (List.filter_sublist.map _).nodup db.jobRuns.table.distinct

theorem matchingRuns_nodup : ((db.matchingRuns query).map Prod.snd).Nodup := by
  refine List.Nodup.of_map RunSummary.id ?_
  rw [List.map_map]
  exact db.matchingRuns_ids query ▸ db.matchingIds_nodup query

end Db

/-- A client that lists an unchanging database is certain to receive every run that matches, and none twice, exactly if
no two runs of one second are cut apart by the end of a page. -/
theorem listing_exact (db : Db) (query : RunListQuery) :
    (∀ received, Pages (fun _ : Unit => db) (fun _ _ => True) query 0 () received →
      received.Perm ((db.matchingRuns query).map Prod.snd)) ↔
      Fits newestFirst (db.matchingRuns query) query.pageSize := by
  have nodup := db.matchingRuns_nodup query
  constructor
  · intro always
    have once : ∀ scanned, Scans (fun (_ : Unit) rows => rows ∈ orderings newestFirst (db.matchingRuns query))
        (fun _ _ => True) query.pageSize 0 () scanned → scanned.Nodup := fun scanned scans =>
      List.Nodup.of_map Prod.snd ((always _ (pages_of_scans scans)).nodup_iff.mpr nodup)
    exact (scans_nodup_iff (List.Nodup.of_map _ nodup) query.pageSize_pos (fun _ _ => Iff.rfl) trivial).mp once
  · intro fits received paged
    obtain ⟨scanned, scans, rfl⟩ := paged.scans (fun _ => True) trivial fun _ _ _ _ => trivial
    exact (scans.exact fits query.pageSize_pos fun _ _ served => served.2).map _

/-! ## A database to which runs are added -/

def Db.Apart (db : Db) (query : RunListQuery) : Prop := ((db.matchingRuns query).map Prod.fst).Nodup

instance (db : Db) (query : RunListQuery) : Decidable (db.Apart query) := inferInstanceAs (Decidable (List.Nodup _))

/-- Runs that are created at different times are listed newest first. -/
theorem Db.Timed.listed {db : Db} {now : Timestamp} {query : RunListQuery} {rows : List (Timestamp × RunSummary)}
    (timed : db.Timed now) (apart : db.Apart query) (ordered : rows ∈ orderings newestFirst (db.matchingRuns query)) :
    rows.map (fun row => row.2.id) = (db.matchingIds query).reverse := by
  have reversed : (db.matchingRuns query).reverse ∈ orderings newestFirst (db.matchingRuns query) := by
    refine mem_orderings.mpr ⟨List.reverse_perm _, List.pairwise_reverse.mpr ?_⟩
    rw [Db.matchingRuns, List.pairwise_map]
    exact timed.runs.ordered.filter _
  have distinct : ((db.matchingRuns query).map newestFirst).Nodup := apart
  rw [orderings_unique distinct ordered reversed, List.map_reverse, db.matchingRuns_ids query]

theorem Db.Extends.matchingIds {before after : Db} {query : RunListQuery} (extended : before.Extends after)
    (every : query.status = none) : before.matchingIds query <+: after.matchingIds query := by
  have view : ∀ db : Db, db.matchingIds query =
      ((db.jobRuns.kept JobRun.snapshot).filter fun entry => query.matches entry.2).map Prod.fst := by
    intro db
    -- Without a filter by status only the job of a run counts, which no update changes.
    have same : ∀ run : JobRun, query.matches run.snapshot = query.matches run := by
      intro run
      simp only [RunListQuery.matches, every, Option.all_none]
      rfl
    rw [Db.matchingIds, Serial.kept, List.filter_map, List.map_map]
    simp only [Function.comp_def, same]
  rw [view, view]
  exact (extended.runs.filter _).map _

section
variable {ext : External} {settings : Settings} {files : String → Option String} {clock : Nat} {c : Config}
  {query : RunListQuery} {received : List RunSummary}

/-- A client that lists runs of every status while others are created misses none of those that existed when it
began, if the clock is not set back and no two runs are created in one second. -/
theorem listing_finds (run : (system ext settings).Reaches Onward (Config.initial ext settings files clock) c)
    (every : query.status = none) (apart : c.state.db.Apart query)
    (paged : Pages (fun c => c.state.db)
      (fun c c' => (system ext settings).Reaches Onward c c' ∧ c'.state.db.Apart query) query 0 c received) :
    ∀ id row, c.state.db.jobRuns.find id = some row → query.matches row = true →
      ∃ summary ∈ received, summary.id = id := by
  intro id row found matching
  obtain ⟨scanned, scans, rfl⟩ := paged.scans
    (fun c => (system ext settings).Reaches Onward (Config.initial ext settings files clock) c ∧ c.state.db.Apart query)
    ⟨run, apart⟩ fun _ _ reached gone => ⟨reached.1.trans gone.1, gone.2⟩
  -- Seen by their ids, the runs are a list that grows at the front.
  have ids : Scans (fun c rows => rows = (c.state.db.matchingIds query).reverse)
      (fun c c' => c.state.db.Extends c'.state.db) query.pageSize 0 c (scanned.map fun row => row.2.id) :=
    scans.map (fun c => c) (fun row => row.2.id) (fun c rows served => (reaches_timed served.1.1).2.listed served.1.2 served.2)
      fun _ _ gone => reaches_extends gone.1
  have there : id ∈ scanned.map fun row => row.2.id := by
    refine ids.finds query.pageSize_pos ?_ ?_
    · rintro c c' _ _ rfl extended rfl
      exact List.reverse_suffix.mpr (extended.matchingIds every)
    · rintro _ rfl
      rw [Nat.zero_mul, List.drop_zero, List.mem_reverse]
      exact List.mem_map.mpr ⟨(id, row), List.mem_filter.mpr ⟨Serial.find_eq_some.mp found, matching⟩, rfl⟩
  obtain ⟨entry, inside, same⟩ := List.mem_map.mp there
  exact ⟨entry.2, List.mem_map_of_mem inside, same⟩

end

def Sample.oneByOne : RunListQuery := ⟨some "fork", none, some 1, none⟩

def Sample.answered (db : Db) (number : Nat) : List RunSummary := (listRuns db (Sample.oneByOne.page number)).headD []

/-- A third run is created after the first page, so the second page shows the second run again. -/
theorem listing_finds_again : ∃ c received, Pages (fun c : Config => c.state.db) (fun c c' =>
      (system Sample.ext Sample.settings).Reaches Onward c c' ∧ c'.state.db.Apart Sample.oneByOne) Sample.oneByOne 0 c received ∧
    received.map RunSummary.id = [2, 2, 1] ∧
    ∀ id row, c.state.db.jobRuns.find id = some row → Sample.oneByOne.matches row = true →
      ∃ summary ∈ received, summary.id = id := by
  have passed : ((Sample.run Sample.onward (Sample.started "fork.yaml" "fork" ++ [.clock 1001000] ++
      Sample.serve 2 (.startRun "fork" {}) 4)).any fun c => ((system Sample.ext Sample.settings).follow Sample.onward c
        ([.clock 1002000] ++ Sample.serve 3 (.startRun "fork" {}) 4)).any fun later =>
          let first := Sample.answered c.state.db 0
          let second := Sample.answered later.state.db 1
          let third := Sample.answered later.state.db 2
          decide ((c.state.db.Apart Sample.oneByOne ∧ later.state.db.Apart Sample.oneByOne) ∧
            (first ∈ listRuns c.state.db (Sample.oneByOne.page 0) ∧ first ≠ []) ∧
            (second ∈ listRuns later.state.db (Sample.oneByOne.page 1) ∧ second ≠ []) ∧
            (third ∈ listRuns later.state.db (Sample.oneByOne.page 2) ∧ third ≠ []) ∧
            [] ∈ listRuns later.state.db (Sample.oneByOne.page 3) ∧
            (first ++ (second ++ (third ++ []))).map RunSummary.id = [2, 2, 1])) = true := by
    decide +kernel
  obtain ⟨c, later, run, rest, holds⟩ := Sample.onward_twice passed
  obtain ⟨⟨apart, apart'⟩, first, second, third, fourth, ids⟩ := of_decide_eq_true holds
  have paged : Pages (fun c : Config => c.state.db) (fun c c' =>
      (system Sample.ext Sample.settings).Reaches Onward c c' ∧ c'.state.db.Apart Sample.oneByOne) Sample.oneByOne 0 c _ :=
    .more first.1 first.2 ⟨rest, apart'⟩ (.more second.1 second.2 ⟨.refl later, apart'⟩
      (.more third.1 third.2 ⟨.refl later, apart'⟩ (.done fourth)))
  exact ⟨c, _, paged, ids, listing_finds run rfl apart paged⟩

end PostJen.Server
