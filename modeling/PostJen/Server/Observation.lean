import PostJen.Server.Queueing

/-! What a client sees that reads a run while the server goes on.

An event that has been shown is shown again, in the same place as long as the
clock is not set back. A stream reports the run as deleted only when a query has
failed, and the states that it reports follow each other.
-/

set_option autoImplicit false

open PostJen.Foundations PostJen.Core

namespace PostJen.Server

/-! ## Events -/

def Db.eventsOf (db : Db) (runId : Nat) : List (Nat × RunEvent) := db.runEvents.rows.filter fun row => row.2.jobRunId = runId

def RunEvent.time (event : RunEvent) : Nat := event.occurredAt

theorem earlier_iff {first second : Nat × RunEvent} :
    earlier first second = true ↔
      first.2.time < second.2.time ∨ (first.2.time ≤ second.2.time ∧ first.1 ≤ second.1) := by
  simp only [earlier, Bool.or_eq_true, Bool.and_eq_true, decide_eq_true_eq]
  constructor
  · rintro (less | ⟨same, le⟩)
    · exact .inl less
    · exact .inr ⟨same.le, le⟩
  · rintro (less | ⟨notLater, le⟩)
    · exact .inl less
    · exact notLater.lt_or_eq.imp_right fun same => ⟨same, le⟩

theorem earlier_trans (first second third : Nat × RunEvent) (one : earlier first second = true)
    (two : earlier second third = true) : earlier first third = true := by
  rw [earlier_iff] at one two ⊢
  omega

theorem earlier_total (first second : Nat × RunEvent) : (earlier first second || earlier second first) = true := by
  rw [Bool.or_eq_true, earlier_iff, earlier_iff]
  omega

theorem earlier_antisymm {first second : Nat × RunEvent} (one : earlier first second = true)
    (two : earlier second first = true) : first.1 = second.1 := by
  rw [earlier_iff] at one two
  omega

theorem Db.Extends.eventsOf {before after : Db} (extended : before.Extends after) (runId : Nat) :
    before.eventsOf runId <+: after.eventsOf runId := by
  have grows : before.runEvents.rows <+: after.runEvents.rows := by
    simpa only [Serial.Grows, Serial.kept, id_eq, List.map_id'] using extended.events
  exact grows.filter _

theorem getRunEvents_timed {db : Db} {now : Timestamp} (timed : db.Timed now) (runId : Nat) :
    getRunEvents db runId = (db.eventsOf runId).map fun row => row.2.shown := by
  have sorted : (db.eventsOf runId).Pairwise fun first second => earlier first second = true := by
    refine ((timed.events.keys.and timed.events.ordered).imp ?_).filter _
    rintro first second ⟨less, le⟩
    exact earlier_iff.mpr (.inr ⟨le, less.le⟩)
  rw [getRunEvents]
  exact congrArg _ (List.mergeSort_of_pairwise sorted)

/-- Sorting keeps an extension an extension, up to new rows in between. -/
theorem getRunEvents_sublist {before after : Db} (extended : before.Extends after) (runId : Nat) :
    (getRunEvents before runId).Sublist (getRunEvents after runId) := by
  obtain ⟨new, split⟩ := extended.eventsOf runId
  have sorted : ∀ db : Db, ((db.eventsOf runId).mergeSort earlier).Pairwise fun first second => earlier first second = true :=
    fun db => List.pairwise_mergeSort earlier_trans earlier_total _
  have keys : ∀ first ∈ after.eventsOf runId, ∀ second ∈ after.eventsOf runId, first.1 = second.1 → first = second := by
    intro first inside second inside' same
    exact List.inj_on_of_nodup_map after.runEvents.table.distinct (List.mem_of_mem_filter inside)
      (List.mem_of_mem_filter inside') same
  have old : ∀ row ∈ before.eventsOf runId, row ∈ after.eventsOf runId := fun row inside =>
    split ▸ List.mem_append_left new inside
  -- The rows that were there already are, in the new order, a sorted list of the same rows.
  have kept : (before.eventsOf runId).mergeSort earlier =
      ((after.eventsOf runId).mergeSort earlier).filter fun row => row ∈ before.eventsOf runId := by
    refine List.Perm.eq_of_pairwise ?_ (sorted before)
      ((sorted after).filter _) ?_
    · intro first second inside inside' one two
      exact keys first (old first (List.mem_mergeSort.mp inside)) second
        (List.mem_mergeSort.mp (List.mem_of_mem_filter inside')) (earlier_antisymm one two)
    · refine (List.mergeSort_perm _ _).trans (List.Perm.trans ?_ ((List.mergeSort_perm _ _).symm.filter _))
      rw [← split, List.filter_append, List.filter_eq_self.mpr fun row inside => decide_eq_true inside,
        List.filter_eq_nil_iff.mpr, List.append_nil]
      intro row inside again
      have apart : (before.eventsOf runId ++ new).Nodup :=
        split ▸ (List.Nodup.of_map _ after.runEvents.table.distinct).filter _
      exact (List.nodup_append.mp apart).2.2 row (of_decide_eq_true again) row inside rfl
  show List.Sublist (List.map _ ((before.eventsOf runId).mergeSort earlier)) (List.map _ ((after.eventsOf runId).mergeSort earlier))
  rw [kept]
  exact List.filter_sublist.map _

section
variable {ext : External} {settings : Settings} {files : String → Option String} {clock : Nat} {c c' : Config}

/-- A reader of a run's events finds every event again that it has seen, in the same order; while the clock is not
set back, new events come only at the end. -/
theorem events_reread (rest : (system ext settings).Reaches everything c c') (runId : Nat) :
    (getRunEvents c.state.db runId).Sublist (getRunEvents c'.state.db runId) ∧
      ((system ext settings).Reaches Onward (Config.initial ext settings files clock) c →
        (system ext settings).Reaches Onward c c' →
        getRunEvents c.state.db runId <+: getRunEvents c'.state.db runId) := by
  have extended := reaches_extends rest
  refine ⟨getRunEvents_sublist extended runId, fun run onward => ?_⟩
  rw [getRunEvents_timed (reaches_timed run).2, getRunEvents_timed (reaches_timed (run.trans onward)).2]
  exact (extended.eventsOf runId).map _

end

/-- One event has been seen, and the start of the run has added another. -/
theorem events_reread_started : ∃ c c', (system Sample.ext Sample.settings).Reaches everything c c' ∧
    (c.state.db.eventsOf 1).length = 1 ∧ (c'.state.db.eventsOf 1).length = 2 ∧
    (getRunEvents c.state.db 1).Sublist (getRunEvents c'.state.db 1) ∧
    getRunEvents c.state.db 1 <+: getRunEvents c'.state.db 1 := by
  have passed : ((Sample.run Sample.onward (Sample.started "fork.yaml" "fork")).any fun c =>
      ((system Sample.ext Sample.settings).follow Sample.onward c
        (Sample.block 1 ++ [.clock 1001000] ++ Sample.block 7)).any fun c' =>
          (c.state.db.eventsOf 1).length = 1 && (c'.state.db.eventsOf 1).length = 2) = true := by
    decide +kernel
  obtain ⟨c, c', run, rest, holds⟩ := Sample.onward_twice passed
  simp only [Bool.and_eq_true, decide_eq_true_eq] at holds
  have anyway := rest.mono fun _ _ _ => trivial
  obtain ⟨kept, extended⟩ := events_reread anyway 1
  exact ⟨c, c', anyway, holds.1, holds.2, kept, extended run rest⟩

/-! ## Streams -/

/-- What a stream sends while the server goes on. Each event comes with whether its query has failed. -/
inductive Streams (ext : External) (settings : Settings) (runId : Nat) : Config → List (Bool × StreamEvent) → Prop where
  | stop (c : Config) : Streams ext settings runId c []
  | next {c later : Config} {events : List (Bool × StreamEvent)} (failed : Bool)
      (goes : (system ext settings).Reaches everything c later) (rest : Streams ext settings runId later events) :
      Streams ext settings runId c ((failed, streamEvent later.state.db runId failed) :: events)

def StreamEvent.snapshot : StreamEvent → Option RunStreamSnapshot
  | .runState snapshot => some snapshot
  | .runDeleted _ => none

structure RunStreamSnapshot.Precedes (first second : RunStreamSnapshot) : Prop where
  run : second.id = first.id
  queued : second.queuedAt = first.queuedAt
  started : ∀ time, first.startedAt = some time → second.startedAt = some time
  canceled : first.cancelRequestedAt.isSome → second.cancelRequestedAt.isSome
  finished : first.finishedAt.isSome → second.finishedAt.isSome
  dequeued : first.status ≠ .queued → second.status ≠ .queued

theorem RunStreamSnapshot.Precedes.trans {first second third : RunStreamSnapshot} (one : first.Precedes second)
    (two : second.Precedes third) : first.Precedes third where
  run := two.run.trans one.run
  queued := two.queued.trans one.queued
  started := fun time started => two.started time (one.started time started)
  canceled := fun canceled => two.canceled (one.canceled canceled)
  finished := fun finished => two.finished (one.finished finished)
  dequeued := fun left => two.dequeued (one.dequeued left)

section
variable {ext : External} {settings : Settings} {c later : Config} {runId : Nat} {row : JobRun}

theorem reaches_dequeued (placed : c.Placed) (run : (system ext settings).Reaches everything c later)
    (found : c.state.db.jobRuns.find runId = some row) (left : row.status ≠ .queued) :
    ∃ row', later.state.db.jobRuns.find runId = some row' ∧ row'.status ≠ .queued := by
  have kept := run.invariant (fun c => c.Placed ∧
    ∃ row', c.state.db.jobRuns.find runId = some row' ∧ row'.status ≠ .queued) ⟨placed, row, found, left⟩ ?_
  · exact kept.2
  · rintro before label after ⟨placed, row, found, left⟩ - moved
    obtain ⟨row', found', -⟩ := runStep moved found
    exact ⟨placed_step placed (step_moved moved), row', found', step_dequeued placed moved found found' left⟩

theorem reaches_precedes (placed : c.Placed) (run : (system ext settings).Reaches everything c later)
    (found : c.state.db.jobRuns.find runId = some row) :
    ∃ row', later.state.db.jobRuns.find runId = some row' ∧ (row.streamed runId).Precedes (row'.streamed runId) := by
  have extended := reaches_extends run
  obtain ⟨row', found', same⟩ := extended.runs.find found
  obtain ⟨_, there, precedes⟩ := extended.progress runId row found
  cases found'.symm.trans there
  refine ⟨row', found', rfl, ?_, precedes.started, precedes.canceled, precedes.finished, fun left => ?_⟩
  · show row'.snapshot.queuedAt = row.snapshot.queuedAt
    rw [same]
  · obtain ⟨_, there, dequeued⟩ := reaches_dequeued placed run found left
    cases found'.symm.trans there
    exact dequeued

theorem Streams.follows {events : List (Bool × StreamEvent)} (streams : Streams ext settings runId c events)
    (placed : c.Placed) (found : c.state.db.jobRuns.find runId = some row) :
    (∀ event ∈ events, event.1 = false → ∃ snapshot, event.2 = .runState snapshot) ∧
      (∀ snapshot ∈ events.filterMap fun event => event.2.snapshot, (row.streamed runId).Precedes snapshot) ∧
      (events.filterMap fun event => event.2.snapshot).Pairwise RunStreamSnapshot.Precedes := by
  -- each snapshot is of a later state, and rows only move on
  induction streams generalizing row with
  | stop c => exact ⟨(fun _ member => by cases member), (fun _ member => by cases member), .nil⟩
  | @next c later events failed goes rest ih =>
    obtain ⟨row', found', precedes⟩ := reaches_precedes placed goes found
    have placed' : later.Placed := goes.invariant Config.Placed placed fun _ _ _ placed _ moved =>
      placed_step placed (step_moved moved)
    obtain ⟨states, behind, ordered⟩ := ih placed' found'
    have onward : ∀ snapshot ∈ events.filterMap fun event => event.2.snapshot, (row.streamed runId).Precedes snapshot :=
      fun snapshot member => precedes.trans (behind snapshot member)
    cases failed with
    | true =>
      refine ⟨?_, onward, ordered⟩
      rintro event member succeeded
      rcases List.mem_cons.mp member with rfl | member
      · cases succeeded
      · exact states event member succeeded
    | false =>
      have sent : streamEvent later.state.db runId false = .runState (row'.streamed runId) := by
        simp only [streamEvent, Bool.false_eq_true, if_false, found']
      rw [sent]
      refine ⟨?_, ?_, List.pairwise_cons.mpr ⟨behind, ordered⟩⟩
      · rintro event member succeeded
        rcases List.mem_cons.mp member with rfl | member
        · exact ⟨_, rfl⟩
        · exact states event member succeeded
      · rintro snapshot member
        rcases List.mem_cons.mp member with rfl | member
        · exact precedes
        · exact onward snapshot member

variable {files : String → Option String} {clock : Nat}

/-- A stream that has been opened reports a deletion only for a query that failed. Of the states that it reports,
each later one keeps the id, the time of queueing and the time of the start, keeps a cancel request and an end
marked, and never shows a run that has left the queue as queued. -/
theorem stream_consistent (run : (system ext settings).Reaches everything (Config.initial ext settings files clock) c)
    (opened : streamRun c.state.db runId = .ok ()) {events : List (Bool × StreamEvent)}
    (streams : Streams ext settings runId c events) :
    (∀ event ∈ events, event.1 = false → ∃ snapshot, event.2 = .runState snapshot) ∧
      (events.filterMap fun event => event.2.snapshot).Pairwise RunStreamSnapshot.Precedes := by
  cases found : c.state.db.jobRuns.find runId with
  | none => rw [streamRun, found] at opened; cases opened
  | some row =>
    have placed := reached_placed (Config.initial_idle ext settings files clock) run
    obtain ⟨states, -, ordered⟩ := streams.follows placed found
    exact ⟨states, ordered⟩

end

/-- A stream that sees a run queued and then started, and has a query fail. -/
theorem stream_consistent_started : ∃ c first second, (system Sample.ext Sample.settings).Reaches everything Sample.initial c ∧
    streamRun c.state.db 1 = .ok () ∧
    Streams Sample.ext Sample.settings 1 c [(false, .runState first), (false, .runState second), (true, .runDeleted 1)] ∧
    first.status = .queued ∧ first.startedAt = none ∧ second.status = .running ∧ second.startedAt = some 1000 ∧
    (∀ event ∈ [(false, StreamEvent.runState first), (false, .runState second), (true, .runDeleted 1)],
      event.1 = false → ∃ snapshot, event.2 = .runState snapshot) ∧
    [first, second].Pairwise RunStreamSnapshot.Precedes := by
  have passed : ((Sample.run Sample.onward (Sample.started "fork.yaml" "fork")).any fun c =>
      ((system Sample.ext Sample.settings).follow Sample.onward c (Sample.block 1 ++ Sample.block 7)).any fun later =>
        (c.state.db.jobRuns.find 1).any (fun row => row.status = .queued && row.startedAt = none) &&
          (later.state.db.jobRuns.find 1).any fun row => row.status = .running && row.startedAt = some 1000) = true := by
    decide +kernel
  obtain ⟨c, later, run, rest, holds⟩ := Sample.onward_twice passed
  rw [Bool.and_eq_true] at holds
  obtain ⟨row, found, queued⟩ := (Option.any_eq_true _ _).mp holds.1
  obtain ⟨row', found', running⟩ := (Option.any_eq_true _ _).mp holds.2
  simp only [Bool.and_eq_true, decide_eq_true_eq] at queued running
  have opened : streamRun c.state.db 1 = .ok () := by
    rw [streamRun, found]
    rfl
  have reached := run.mono fun _ _ _ => trivial
  have streams : Streams Sample.ext Sample.settings 1 c
      [(false, .runState (row.streamed 1)), (false, .runState (row'.streamed 1)), (true, .runDeleted 1)] := by
    have sent : streamEvent c.state.db 1 false = .runState (row.streamed 1) := by
      simp only [streamEvent, Bool.false_eq_true, if_false, found]
    have sent' : streamEvent later.state.db 1 false = .runState (row'.streamed 1) := by
      simp only [streamEvent, Bool.false_eq_true, if_false, found']
    rw [← sent, ← sent']
    exact .next false (.refl c) (.next false (rest.mono fun _ _ _ => trivial) (.next true (.refl later) (.stop later)))
  obtain ⟨states, ordered⟩ := stream_consistent reached opened streams
  exact ⟨c, _, _, reached, opened, streams, queued.1, queued.2, running.1, running.2, states, ordered⟩

end PostJen.Server
