import PostJen.Server.Attendance
import PostJen.Server.Completeness

/-! Every run that is queued comes to an end.

The server has to run on: the scheduler's task is polled again and again, its
statements do not fail, and every node run is at last out of the hands of the
workers. Then each wait of `execute_run` ends, each iteration retires a node,
and `process_next_run` comes back to the queue, which it empties in order.
-/

set_option autoImplicit false

open PostJen.Foundations PostJen.Core Filter

namespace PostJen.Server

abbrev Life (ext : External) (settings : Settings) (files : String → Option String) (clock : Nat) : Type :=
  (system ext settings).Trace (Config.initial ext settings files clock)

def Db.Waits (db : Db) (id : Nat) : Prop := ∃ run, db.jobRuns.find id = some run ∧ run.status = .queued

def Db.Ended (db : Db) (id : Nat) : Prop := ∃ run, db.jobRuns.find id = some run ∧ run.status.terminal = true

/-- A run was canceled while it waited, and the scheduler does not work on it. -/
def Config.Withdrawn (c : Config) (id : Nat) : Prop :=
  (∃ run, c.state.db.jobRuns.find id = some run ∧ run.status = .cancelRequested) ∧
    (c.threads .scheduler).point.drives ≠ some id

section
variable {ext : External} {settings : Settings} {files : String → Option String} {clock : Nat}
  (σ : Life ext settings files clock)

/-- What the runtime, the database, the clock and the workers have to do after a start. -/
structure Serves (since : Nat) : Prop where
  starts : ∃ hostname, σ.label since = .boot hostname
  stays : ∀ n hostname, since < n → σ.label n ≠ .boot hostname
  onward : ∀ n, Onward (σ.config n) (σ.label n)
  scheduled : ∃ᶠ n in atTop, (σ.label n).acts .scheduler
  answered : ∀ n text, since < n → σ.label n ≠ .exec .scheduler (.fail text)
  settles : ∀ id, ∀ᶠ n in atTop, ¬(σ.config n).state.db.Busy id

/-- The scheduler is back at the queue and has ended the run on the way. -/
def Returns (runId n m : Nat) : Prop :=
  Stands σ .scheduler m .schedulerTick ∧ Meets σ .scheduler (Op.closes runId) n m

structure Waiting (n : Nat) (x : Execution) : Prop where
  stands : Stands σ .scheduler n (.waiting x)
  sound : x.Sound []
  begun : ∀ key id, x.runningNodes.lookup key = some id → (σ.config n).state.db.Begun id
  running : x.runningNodes.entries ≠ []

def Settled (x : Execution) (keys : List String) (n : Nat) : Prop :=
  ∃ key ∈ keys, ∃ id, x.runningNodes.lookup key = some id ∧ ∀ k, n ≤ k → ¬(σ.config k).state.db.Busy id

/-- The scheduler has worked on one run since it picked it. -/
structure Works (since i n : Nat) (queued : QueuedRun) : Prop where
  started : since < i
  before : i ≤ n
  picked : Stands σ .scheduler i (.executeRun queued)
  existing : (σ.config i).state.db.hasRun queued.id = true
  drives : ∀ j, i ≤ j → j ≤ n → ((σ.config j).threads .scheduler).point.drives = some queued.id

end

structure Execution.Proceeds (x y : Execution) : Prop where
  run : y.run = x.run
  nodeIds : y.nodeIds = x.nodeIds
  fewer : y.unsettled ≤ x.unsettled

theorem Execution.Proceeds.trans {x y z : Execution} (first : x.Proceeds y) (rest : y.Proceeds z) : x.Proceeds z :=
  ⟨rest.run.trans first.run, rest.nodeIds.trans first.nodeIds, rest.fewer.trans first.fewer⟩

theorem Execution.Visit.proceeds {x x' : Execution} {newlyQueued newlyQueued' : List (String × Nat)}
    {node : ResolvedNodeDefinition} (visits : x.Visit newlyQueued node x' newlyQueued') : x.Proceeds x' := by
  cases visits with
  | keep => exact ⟨rfl, rfl, Nat.le_refl _⟩
  | skip => exact ⟨rfl, rfl, Execution.unsettled_record_le _⟩
  | queue id known => exact ⟨rfl, rfl, Nat.le_refl _⟩
  | fail =>
    have fewer : (x.record node.id .failed).unsettled ≤ x.unsettled := Execution.unsettled_record_le _
    exact ⟨rfl, rfl, fewer⟩

theorem Meets.widen {ext : External} {settings : Settings} {start : Config} {σ : (system ext settings).Trace start}
    {slot : Slot} {hits : (op : Op) → op.Reply → Prop} {n n' m m' : Nat} (meets : Meets σ slot hits n m)
    (earlier : n' ≤ n) (later : m ≤ m') : Meets σ slot hits n' m' := by
  obtain ⟨k, first, last, met⟩ := meets
  exact ⟨k, Nat.le_trans earlier first, Nat.lt_of_lt_of_le last later, met⟩

theorem boot_ticks {ext : External} {settings : Settings} {c after : Config} {hostname : String}
    (moved : step ext settings c (.boot hostname) = some after) :
    after.threads .scheduler = enter ext settings .schedulerTick := by
  cases step_moved moved with
  | boot registered => rfl

theorem Works.next {ext : External} {settings : Settings} {files : String → Option String} {clock : Nat}
    {σ : Life ext settings files clock} {since i n : Nat} {queued : QueuedRun} (works : Works σ since i n queued)
    (same : ((σ.config (n + 1)).threads .scheduler).point.drives = ((σ.config n).threads .scheduler).point.drives) :
    Works σ since i (n + 1) queued where
  started := works.started
  before := Nat.le_succ_of_le works.before
  picked := works.picked
  existing := works.existing
  drives := by
    intro j first last
    rcases Nat.lt_or_eq_of_le last with earlier | rfl
    · exact works.drives j first (Nat.le_of_lt_succ earlier)
    · exact same.trans (works.drives n works.before (Nat.le_refl n))

theorem foremost_picked {db : Db} {now : Timestamp} (timed : db.Timed now) {id : Nat} (waits : db.Waits id)
    (foremost : ∀ earlier, earlier < id → ¬db.Waits earlier) :
    Select.nextQueuedRun.answers db ≠ [] ∧
      ∀ row ∈ Select.nextQueuedRun.answers db, ∃ queued : QueuedRun, row = some queued ∧ queued.id = id := by
  obtain ⟨run, found, isQueued⟩ := waits
  have listed : (id, run) ∈ db.jobRuns.rows.filter fun row => row.2.status = .queued :=
    List.mem_filter.mpr ⟨Serial.find_eq_some.mp found, by simpa using isQueued⟩
  let before (first second : Nat × JobRun) : Bool :=
    first.2.createdAt < second.2.createdAt || (first.2.createdAt = second.2.createdAt && first.1 < second.1)
  -- no run that waits has a smaller id, and so none was created before
  have first : ∀ other ∈ db.jobRuns.rows.filter (fun row => row.2.status = .queued), before other (id, run) = false := by
    intro other inside
    obtain ⟨stored, alsoQueued⟩ := List.mem_filter.mp inside
    have found' := Serial.find_eq_some.mpr stored
    have after : id ≤ other.1 := by
      by_contra less
      exact foremost other.1 (Nat.lt_of_not_le less) ⟨other.2, found', by simpa using alsoQueued⟩
    have older : run.createdAt ≤ other.2.createdAt := by
      rcases Nat.eq_or_lt_of_le after with same | less
      · rw [same, found'] at found
        rw [Option.some.inj found]
      · exact timed.runs.le found found' less
    simp only [before, Bool.or_eq_false_iff, Bool.and_eq_false_iff, decide_eq_false_iff_not]
    exact ⟨not_lt.mpr older, .inr (not_lt.mpr after)⟩
  obtain ⟨picked, never⟩ := limitOne_first listed first
  refine ⟨List.ne_nil_of_mem (List.mem_map_of_mem picked), fun row member => ?_⟩
  cases row with
  | none =>
    obtain ⟨answer, inside, same⟩ := List.mem_map.mp member
    rw [Option.map_eq_none_iff.mp same] at inside
    exact absurd inside never
  | some queued =>
    obtain ⟨run', found', isQueued', -⟩ := RunLife.mem_nextQueuedRun member
    refine ⟨queued, rfl, Nat.le_antisymm ?_ ?_⟩
    · exact Nat.le_of_not_lt fun less => (picked_foremost timed member).2 id run less found isQueued
    · exact Nat.le_of_not_lt fun less => foremost queued.id less ⟨run', found', isQueued'⟩

namespace Serves

variable {ext : External} {settings : Settings} {files : String → Option String} {clock : Nat}
  {σ : Life ext settings files clock} {since n m : Nat}

theorem path (σ : Life ext settings files clock) (n : Nat) :
    ∃ history, (system ext settings).Path everything (Config.initial ext settings files clock) history (σ.config n) :=
  σ.path (fun _ => trivial) n

theorem placed (σ : Life ext settings files clock) (n : Nat) : (σ.config n).Placed := by
  obtain ⟨history, run⟩ := path σ n
  exact reached_placed (Config.initial_idle ext settings files clock) run.reaches

theorem attended (serves : Serves σ since) : Attended σ .scheduler (since + 1) where
  recurs := serves.scheduled
  unbroken := by
    intro n later point entry
    have stays := fun hostname => serves.stays n hostname later
    generalize σ.label n = label at entry stays
    cases entry with
    | boot hostname slot => exact stays hostname rfl

theorem timed (serves : Serves σ since) (n : Nat) : (σ.config n).state.db.Timed (σ.config n).state.now := by
  obtain ⟨history, run⟩ := σ.path serves.onward n
  exact (reaches_timed run.reaches).2

theorem begun_later {id : Nat} (later : n ≤ m) (begun : (σ.config n).state.db.Begun id) :
    (σ.config m).state.db.Begun id := by
  induction m, later using Nat.le_induction with
  | base => exact begun
  | succ m later ih =>
    obtain ⟨history, run⟩ := path σ m
    exact step_begun (Config.initial_idle ext settings files clock) run (σ.moves m) ih

theorem run_later {id : Nat} (later : n ≤ m) (exist : (σ.config n).state.db.hasRun id = true) :
    (σ.config m).state.db.hasRun id = true := by
  induction m, later using Nat.le_induction with
  | base => exact exist
  | succ m later ih => exact step_hasRun (σ.moves m) ih

/-! ## Answers -/

theorem answer (serves : Serves σ since) (later : since < n) {op : Op} {reply : op.Reply}
    (does : Does σ .scheduler n op reply) : ∃ choice, (∀ text, choice ≠ .fail text) ∧
      op.run ext choice (σ.config n).state = some (reply, (σ.config (n + 1)).state) := by
  obtain ⟨choice, rest, label, code, ran⟩ := does
  refine ⟨choice, ?_, ran⟩
  rintro text rfl
  exact serves.answered n text later label

theorem answer_select (serves : Serves σ since) (later : since < n) {query : Select} {reply : Except SqlError query.Row}
    (does : Does σ .scheduler n (.select query) reply) (answers : query.answers (σ.config n).state.db ≠ []) :
    ∃ row ∈ query.answers (σ.config n).state.db, reply = .ok row := by
  obtain ⟨choice, works, ran⟩ := serves.answer later does
  exact select_answered ran works answers

theorem ended_of_closes (serves : Serves σ since) (later : since < n) {runId : Nat} {op : Op} {reply : op.Reply}
    (does : Does σ .scheduler n op reply) (closes : op.closes runId reply)
    (exist : (σ.config n).state.db.hasRun runId = true) : (σ.config (n + 1)).state.db.Ended runId := by
  obtain ⟨choice, works, ran⟩ := serves.answer later does
  obtain ⟨run, found⟩ := Option.isSome_iff_exists.mp exist
  cases op with
  | write write =>
    cases write with
    | updateJob id change =>
      have updated := updateJob_answered ran works
      cases change with
      | finished toStatus message =>
        obtain ⟨rfl, terminal⟩ := closes
        exact ⟨_, by rw [updated, Serial.find_updateAt_self, found]; rfl, terminal⟩
      | failBeforeStart reason =>
        cases closes
        exact ⟨_, by rw [updated, Serial.find_updateAt_self, found]; rfl, rfl⟩
      | _ => exact closes.elim
    | _ => exact closes.elim
  | _ => exact closes.elim

theorem never_disorders (m : Nat) : ¬Meets σ .scheduler Op.disorders n m := by
  rintro ⟨k, -, -, op, reply, ⟨choice, rest, -, -, ran⟩, disorders⟩
  cases op with
  | order keys =>
    cases choice with
    | answer index =>
      obtain ⟨order, found, same⟩ := Option.map_eq_some_iff.mp ran
      obtain rfl := (Prod.mk.inj same).1
      exact disorders (List.mem_permutations'.mp (List.mem_of_getElem? found))
    | _ => cases ran
  | _ => exact disorders.elim

theorem never_overlooks (serves : Serves σ since) (later : since < n) {id : Nat}
    (begun : (σ.config n).state.db.Begun id) (calm : ∀ k, n ≤ k → ¬(σ.config k).state.db.Busy id) :
    ¬Meets σ .scheduler (Op.overlooks id) n m := by
  rintro ⟨k, first, -, op, reply, does, overlooks⟩
  cases op with
  | select query =>
    cases query with
    | nodeStatus other =>
      obtain ⟨rfl, unreported⟩ := overlooks
      obtain ⟨node, found, reported⟩ := (begun_later first begun).reported (calm k first)
      have answers : (Select.nodeStatus other).answers (σ.config k).state.db = [node.status] := by
        show (((σ.config k).state.db.nodeRuns.find other).map (·.status)).toList = _
        rw [found]
        rfl
      obtain ⟨row, member, rfl⟩ := serves.answer_select (Nat.lt_of_lt_of_le later first) does (by rw [answers]; simp)
      rw [answers] at member
      cases List.mem_singleton.mp member
      exact absurd (unreported _ rfl) (by rw [reported]; simp)
    | _ => exact overlooks.elim
  | _ => exact overlooks.elim

/-! ## From block to block -/

/-- A block of `execute_run` is executed to its end, and leads back to the queue only if the run has ended. -/
theorem leaves (serves : Serves σ since) (later : since < n) {point : Point} {runId : Nat}
    (stands : Stands σ .scheduler n point) (drives : point.drives = some runId) :
    ∃ m next, n ≤ m ∧ ((σ.config m).threads .scheduler).code = .done next ∧ Stands σ .scheduler (m + 1) next ∧
      point.Leads next ∧ (next = .schedulerTick → Returns σ runId n (m + 1)) ∧
      ∀ hits ends, (block ext settings point).Until hits ends (fun why => why.elim) →
        ends next ∨ Meets σ .scheduler hits n m := by
  obtain ⟨m, next, last, ended, stands', outcome⟩ := serves.attended.leaves later
  have arrived : ((σ.config m).threads .scheduler).code = .done next := by rw [ended]
  have leads := ((placed σ m).follows arrived).2 rfl
  rw [stands] at outcome ended
  rw [ended] at leads
  refine ⟨m, next, last, arrived, stands', leads, ?_, outcome⟩
  rintro rfl
  rcases outcome _ _ (until_closes ext settings drives) with away | closes
  · exact absurd rfl away
  · exact ⟨stands', closes.widen (Nat.le_refl n) (Nat.le_succ m)⟩

theorem looping {x : Execution} {point : Point} (ended : ((σ.config n).threads .scheduler).code = .done point)
    (inside : ∀ s, (starting.regime ext).assertion point s → (starting.regime ext).Looping x s) :
    x.Sound [] ∧ ∀ key id, x.runningNodes.lookup key = some id → (σ.config (n + 1)).state.db.Begun id := by
  obtain ⟨history, run⟩ := path σ n
  have idle := Config.initial_idle ext settings files clock
  have here := inside _ ((starting_governs idle).at_point run ended)
  exact ⟨here.sound, fun key id running => begun_later (Nat.le_succ n) (looping_begun here running)⟩

theorem finalizes (serves : Serves σ since) (later : since < n) {x : Execution}
    (stands : Stands σ .scheduler n (.finalizing x)) : ∃ m, n < m ∧ Returns σ x.run.id n m := by
  obtain ⟨m, next, last, -, stands', leads, returns, -⟩ := serves.leaves later stands rfl
  cases leads with
  | finalize | abandon => exact ⟨m + 1, Nat.lt_succ_of_le last, returns rfl⟩

theorem passes (serves : Serves σ since) (todo : List ResolvedNodeDefinition) {x : Execution}
    {newlyQueued : List (String × Nat)} (later : since < n) (stands : Stands σ .scheduler n (.pass x newlyQueued todo)) :
    ∃ m, n < m ∧ (Returns σ x.run.id n m ∨ ∃ y, Waiting σ m y ∧ x.Proceeds y) := by
  -- node by node, until the pass is over or an error ends the run
  induction todo generalizing x newlyQueued n with
  | nil =>
    obtain ⟨m, next, last, ended, stands', leads, returns, outcome⟩ := serves.leaves later stands rfl
    have waits := (outcome (fun _ _ => False) _ (until_waits ext settings x newlyQueued)).resolve_right
      fun ⟨_, _, _, _, _, _, never⟩ => never
    have proceeds : x.Proceeds (x.launch newlyQueued) := ⟨rfl, rfl, Nat.le_refl _⟩
    rcases waits with rfl | ⟨rfl, running⟩
    · obtain ⟨k, last', home, closes⟩ := serves.finalizes (by omega) stands'
      exact ⟨k, by omega, .inl ⟨home, closes.widen (by omega) (Nat.le_refl k)⟩⟩
    · obtain ⟨sound, begun⟩ := looping ended fun _ holds => holds
      exact ⟨m + 1, Nat.lt_succ_of_le last, .inr ⟨_, ⟨stands', sound, begun, running⟩, proceeds⟩⟩
  | cons node todo ih =>
    obtain ⟨m, next, last, ended, stands', leads, returns, -⟩ := serves.leaves later stands rfl
    cases leads with
    | visit _ x' _ newlyQueued' _ _ visits =>
      obtain ⟨k, last', reached⟩ := ih (by omega) stands'
      have proceeds := visits.proceeds
      rcases reached with ⟨home, closes⟩ | ⟨y, waiting, rest⟩
      · rw [proceeds.run] at closes
        exact ⟨k, by omega, .inl ⟨home, closes.widen (by omega) (Nat.le_refl k)⟩⟩
      · exact ⟨k, by omega, .inr ⟨y, waiting, proceeds.trans rest⟩⟩
    | abandon => exact ⟨m + 1, Nat.lt_succ_of_le last, .inl (returns rfl)⟩

theorem iterates (serves : Serves σ since) {x : Execution} (later : since < n)
    (stands : Stands σ .scheduler n (.scheduling x)) :
    ∃ m, n < m ∧ (Returns σ x.run.id n m ∨ ∃ y, Waiting σ m y ∧ x.Proceeds y) := by
  obtain ⟨m, next, last, ended, stands', leads, returns, -⟩ := serves.leaves later stands rfl
  cases leads with
  | observe _ canceled =>
    obtain ⟨k, last', reached⟩ := serves.passes _ (by omega) stands'
    rcases reached with ⟨home, closes⟩ | ⟨y, waiting, ⟨run, nodeIds, fewer⟩⟩
    · exact ⟨k, by omega, .inl ⟨home, closes.widen (by omega) (Nat.le_refl k)⟩⟩
    · exact ⟨k, by omega, .inr ⟨y, waiting, ⟨run, nodeIds, fewer⟩⟩⟩
  | abandon => exact ⟨m + 1, Nat.lt_succ_of_le last, .inl (returns rfl)⟩

/-- One round over the rows, which finds the node of a settled row. -/
theorem polls (serves : Serves σ since) (todo : List String) {x : Execution} (later : since < n)
    (stands : Stands σ .scheduler n (.polling x todo)) (sound : x.Sound []) (running : x.runningNodes.entries ≠ [])
    (begun : ∀ key id, x.runningNodes.lookup key = some id → (σ.config n).state.db.Begun id) :
    ∃ m, n < m ∧ (Returns σ x.run.id n m ∨
      (∃ y, Stands σ .scheduler m (.scheduling y) ∧ x.Proceeds y ∧ (Settled σ x todo n → y.unsettled < x.unsettled)) ∨
      Waiting σ m x ∧ ¬Settled σ x todo n) := by
  -- row by row: a row that the workers have left ends the wait when its turn comes
  induction todo generalizing n with
  | nil =>
    obtain ⟨m, next, last, ended, stands', leads, returns, -⟩ := serves.leaves later stands rfl
    have unsettled : ¬Settled σ x [] n := fun ⟨_, member, _⟩ => by cases member
    refine ⟨m + 1, Nat.lt_succ_of_le last, ?_⟩
    cases leads with
    | cancel =>
      have fewer : (x.record "" .canceled).unsettled ≤ x.unsettled := Execution.unsettled_record_le _
      exact .inr (.inl ⟨_, stands', ⟨rfl, rfl, fewer⟩, fun settled => absurd settled unsettled⟩)
    | again =>
      obtain ⟨-, begun'⟩ := looping ended fun _ holds => holds
      exact .inr (.inr ⟨⟨stands', sound, begun', running⟩, unsettled⟩)
    | abandon => exact .inl (returns rfl)
  | cons key todo ih =>
    obtain ⟨m, next, last, ended, stands', leads, returns, outcome⟩ := serves.leaves later stands rfl
    cases leads with
    | next =>
      have settled : Settled σ x (key :: todo) n → Settled σ x todo (m + 1) := by
        rintro ⟨other, member, id, found, idle⟩
        rcases List.mem_cons.mp member with rfl | inside
        · -- the row of this node would have ended the wait
          rcases outcome _ _ (until_reported ext settings x found todo) with (same | ⟨_, same⟩) | overlooked
          · cases same
          · cases same
          · exact absurd overlooked (serves.never_overlooks later (begun other id found) idle)
        · exact ⟨other, inside, id, found, fun k first => idle k (by omega)⟩
      obtain ⟨k, last', reached⟩ := ih (by omega) stands' fun key id found => begun_later (by omega) (begun key id found)
      refine ⟨k, by omega, ?_⟩
      rcases reached with ⟨home, closes⟩ | ⟨y, there, proceeds, fewer⟩ | ⟨waiting, unsettled⟩
      · exact .inl ⟨home, closes.widen (by omega) (Nat.le_refl k)⟩
      · exact .inr (.inl ⟨y, there, proceeds, fun here => fewer (settled here)⟩)
      · exact .inr (.inr ⟨waiting, fun here => unsettled (settled here)⟩)
    | complete _ _ _ outcome' reported =>
      refine ⟨m + 1, Nat.lt_succ_of_le last, .inr (.inl ⟨_, stands', ?_⟩)⟩
      rcases outcome (fun _ _ => False) _ (until_running ext settings x key todo) with (⟨id, found⟩ | never) | never
      · obtain ⟨-, listed, missing⟩ := sound.running key id found
        have fewer : (x.record key outcome'.status).unsettled < x.unsettled :=
          Execution.unsettled_record_lt listed missing _
        exact ⟨⟨rfl, rfl, Nat.le_of_lt fewer⟩, fun _ => fewer⟩
      · exact absurd rfl (never _)
      · obtain ⟨_, _, _, _, _, _, never⟩ := never
        exact never.elim
    | abandon => exact ⟨m + 1, Nat.lt_succ_of_le last, .inl (returns rfl)⟩

/-- From one wait to the next; once the workers have left the nodes of the run, each wait settles one. -/
theorem waits (serves : Serves σ since) {x : Execution} (later : since < n) (waiting : Waiting σ n x) :
    ∃ m, n < m ∧ (Returns σ x.run.id n m ∨ ∃ y, Waiting σ m y ∧ x.Proceeds y ∧
      ((∀ key id, x.nodeIds.lookup key = some id → ∀ k, n ≤ k → ¬(σ.config k).state.db.Busy id) →
        y.unsettled < x.unsettled)) := by
  obtain ⟨stands, sound, begun, running⟩ := waiting
  obtain ⟨m, next, last, ended, stands', leads, returns, outcome⟩ := serves.leaves later stands rfl
  cases leads with
  | poll _ keys =>
    obtain ⟨keys', same, order⟩ := (outcome _ _ (until_ordered ext settings x)).resolve_right (never_disorders m)
    cases same
    have settled : (∀ key id, x.nodeIds.lookup key = some id → ∀ k, n ≤ k → ¬(σ.config k).state.db.Busy id) →
        Settled σ x keys (m + 1) := by
      intro idle
      obtain ⟨entry, inside⟩ := List.exists_mem_of_ne_nil _ running
      have listed : entry.1 ∈ x.runningNodes := List.mem_map_of_mem inside
      obtain ⟨id, found⟩ := Option.isSome_iff_exists.mp (AList.lookup_isSome.mpr listed)
      refine ⟨entry.1, order.mem_iff.mpr listed, id, found, fun k first => ?_⟩
      exact idle entry.1 id (sound.running entry.1 id found).1 k (by omega)
    obtain ⟨k, last', reached⟩ := serves.polls keys (by omega) stands' sound running
      fun key id found => begun_later (by omega) (begun key id found)
    rcases reached with ⟨home, closes⟩ | ⟨y, there, proceeds, fewer⟩ | ⟨waiting, unsettled⟩
    · exact ⟨k, by omega, .inl ⟨home, closes.widen (by omega) (Nat.le_refl k)⟩⟩
    · obtain ⟨j, last'', reached⟩ := serves.iterates (by omega) there
      rcases reached with ⟨home, closes⟩ | ⟨z, waiting, rest⟩
      · rw [proceeds.run] at closes
        exact ⟨j, by omega, .inl ⟨home, closes.widen (by omega) (Nat.le_refl j)⟩⟩
      · exact ⟨j, by omega, .inr ⟨z, waiting, proceeds.trans rest, fun idle =>
          Nat.lt_of_le_of_lt rest.fewer (fewer (settled idle))⟩⟩
    · exact ⟨k, by omega, .inr ⟨x, waiting, ⟨rfl, rfl, Nat.le_refl _⟩, fun idle => absurd (settled idle) unsettled⟩⟩
  | abandon => exact ⟨m + 1, Nat.lt_succ_of_le last, .inl (returns rfl)⟩

theorem calms (serves : Serves σ since) (nodeIds : StringMap Nat) :
    ∀ᶠ n in atTop, ∀ key id, nodeIds.lookup key = some id → ∀ k, n ≤ k → ¬(σ.config k).state.db.Busy id := by
  have each : ∀ key ∈ {key | key ∈ nodeIds.keys}, ∀ᶠ n in atTop, ∀ id, nodeIds.lookup key = some id →
      ∀ k, n ≤ k → ¬(σ.config k).state.db.Busy id := by
    intro key _
    cases found : nodeIds.lookup key with
    | none => exact .of_forall fun n id same => by cases same
    | some id =>
      filter_upwards [eventually_forall_ge_atTop.mpr (serves.settles id)] with n idle
      rintro _ ⟨⟩
      exact idle
  filter_upwards [(eventually_all_finite (List.finite_toSet nodeIds.keys)).mpr each] with n idle key id found
  exact idle key (AList.lookup_isSome.mp (by rw [found]; rfl)) id found

theorem wait_ends (serves : Serves σ since) {x : Execution} (later : since < n) (waiting : Waiting σ n x) :
    ∃ m, n ≤ m ∧ Returns σ x.run.id n m := by
  -- the rank is the number of nodes without a result, and it falls once the workers have left all nodes of the run
  let loop (y : Execution) (k : Nat) : Prop := n ≤ k ∧ Waiting σ k y ∧ y.run = x.run ∧ y.nodeIds = x.nodeIds
  have round : ∀ y k, loop y k → ∃ m, k < m ∧ (Returns σ x.run.id n m ∨ ∃ z, loop z m ∧
      ((∀ key id, x.nodeIds.lookup key = some id → ∀ j, k ≤ j → ¬(σ.config j).state.db.Busy id) →
        z.unsettled < y.unsettled)) := by
    rintro y k ⟨first, waiting, run, nodeIds⟩
    obtain ⟨m, last, reached⟩ := serves.waits (by omega) waiting
    refine ⟨m, last, ?_⟩
    rcases reached with ⟨home, closes⟩ | ⟨z, waiting', proceeds, fewer⟩
    · rw [run] at closes
      exact .inl ⟨home, closes.widen first (Nat.le_refl m)⟩
    · rw [nodeIds] at fewer
      exact .inr ⟨z, ⟨by omega, waiting', proceeds.run.trans run, proceeds.nodeIds.trans nodeIds⟩, fewer⟩
  exact LeadsTo.ranked Execution.unsettled round (serves.calms x.nodeIds) x n ⟨Nat.le_refl n, waiting, rfl, rfl⟩

theorem iteration_ends (serves : Serves σ since) {x : Execution} (later : since < n)
    (stands : Stands σ .scheduler n (.scheduling x)) : ∃ m, n ≤ m ∧ Returns σ x.run.id n m := by
  obtain ⟨m, last, returns | ⟨y, waiting, proceeds⟩⟩ := serves.iterates later stands
  · exact ⟨m, by omega, returns⟩
  · obtain ⟨k, last', home, closes⟩ := serves.wait_ends (by omega) waiting
    rw [proceeds.run] at closes
    exact ⟨k, by omega, home, closes.widen (by omega) (Nat.le_refl k)⟩

/-- A run that is driven comes to its end. -/
theorem run_ends (serves : Serves σ since) {queued : QueuedRun} (later : since < n)
    (stands : Stands σ .scheduler n (.executeRun queued)) : ∃ m, n ≤ m ∧ Returns σ queued.id n m := by
  obtain ⟨m, next, last, ended, stands', leads, returns, -⟩ := serves.leaves later stands rfl
  cases leads with
  | prepare _ nodes nodeIds =>
    obtain ⟨k, last', home, closes⟩ := serves.iteration_ends (by omega) stands'
    exact ⟨k, by omega, home, closes.widen (by omega) (Nat.le_refl k)⟩
  | abandon => exact ⟨m + 1, by omega, returns rfl⟩

/-! ## The scheduler comes back -/

theorem existing_run {queued : QueuedRun} (picked : Stands σ .scheduler n (.executeRun queued)) :
    (σ.config n).state.db.hasRun queued.id = true := by
  obtain ⟨history, run⟩ := path σ n
  exact driven_exists (Config.initial_idle ext settings files clock) run (by rw [picked]; rfl)

theorem engaged (serves : Serves σ since) (later : since < n) :
    ((σ.config n).threads .scheduler).point = .schedulerTick ∨ ∃ i queued, Works σ since i n queued := by
  -- the induction is on the steps since the start, which has put the scheduler at the queue
  induction n, Nat.succ_le_of_lt later using Nat.le_induction with
  | base =>
    obtain ⟨hostname, booted⟩ := serves.starts
    have moved := σ.moves since
    rw [booted] at moved
    exact .inl (congrArg Thread.point (boot_ticks moved))
  | succ n first ih =>
    have turn := scheduler_step (σ.moves n)
    have stays := fun hostname => serves.stays n hostname first
    have stands : ∀ point, (σ.config (n + 1)).threads .scheduler = enter ext settings point →
        Stands σ .scheduler (n + 1) point := fun _ there => there
    have goes : ((σ.config (n + 1)).threads .scheduler).point.drives = ((σ.config n).threads .scheduler).point.drives →
        (∃ i queued, Works σ since i n queued) → ∃ i queued, Works σ since i (n + 1) queued :=
      fun same ⟨i, queued, works⟩ => ⟨i, queued, works.next same⟩
    generalize (σ.config (n + 1)).threads .scheduler = thread at turn stands goes ⊢
    generalize σ.label n = label at turn stays
    cases turn with
    | same other => exact (ih first).imp_right (goes rfl)
    | exec next ran => exact (ih first).imp_right (goes rfl)
    | resume ended =>
      rcases (((placed σ n).follows ended).2 rfl).engages with rfl | ⟨queued, rfl⟩ | ⟨same, away⟩
      · exact .inl rfl
      · exact .inr ⟨n + 1, queued, by omega, Nat.le_refl _, stands _ rfl, existing_run (stands _ rfl),
          fun j first last => by
            cases Nat.le_antisymm last first
            rw [stands _ rfl]
            rfl⟩
      · exact .inr (goes same ((ih first).resolve_left away))
    | boot => exact absurd rfl (stays _)

theorem works_return (serves : Serves σ since) {i : Nat} {queued : QueuedRun} (works : Works σ since i n queued) :
    ∃ m, n < m ∧ Returns σ queued.id i m := by
  obtain ⟨m, last, returns⟩ := serves.run_ends works.started works.picked
  refine ⟨m, ?_, returns⟩
  -- at the queue the scheduler does not drive a run
  by_contra before
  have driving := works.drives m last (Nat.not_lt.mp before)
  rw [returns.1] at driving
  cases driving

theorem frees (serves : Serves σ since) (later : since < n) : ∃ m, n ≤ m ∧ Stands σ .scheduler m .schedulerTick := by
  rcases serves.engaged later with waiting | ⟨i, queued, works⟩
  · obtain ⟨m, next, last, ended, stands, -⟩ := serves.attended.leaves later
    have leads := ((placed σ m).follows (by rw [ended])).2 rfl
    rw [ended, waiting] at leads
    rcases leads.engages with rfl | ⟨queued, rfl⟩ | ⟨-, away⟩
    · exact ⟨m + 1, by omega, stands⟩
    · obtain ⟨k, last', returns⟩ := serves.run_ends (by omega) stands
      exact ⟨k, by omega, returns.1⟩
    · exact absurd rfl away
  · obtain ⟨m, last, returns⟩ := serves.works_return works
    exact ⟨m, Nat.le_of_lt last, returns.1⟩

/-! ## Leaving the queue -/

theorem left_later {id : Nat} (later : n ≤ m) (exist : (σ.config n).state.db.hasRun id = true)
    (left : ¬(σ.config n).state.db.Waits id) : ¬(σ.config m).state.db.Waits id := by
  induction m, later using Nat.le_induction with
  | base => exact left
  | succ m later ih =>
    rintro ⟨run', found', isQueued⟩
    obtain ⟨run, found⟩ := Option.isSome_iff_exists.mp (run_later later exist)
    exact step_dequeued (placed σ m) (σ.moves m) found found' (fun same => ih ⟨run, found, same⟩) isQueued

theorem ended_left {id : Nat} {db : Db} (ended : db.Ended id) : ¬db.Waits id := by
  rintro ⟨run, found, isQueued⟩
  obtain ⟨run', found', terminal⟩ := ended
  cases found.symm.trans found'
  rw [isQueued] at terminal
  cases terminal

/-- A run that waited ends after the scheduler has picked it. -/
theorem driven_ends (serves : Serves σ since) {id : Nat} (waits : (σ.config n).state.db.Waits id)
    (begun : since < m) (driving : ((σ.config m).threads .scheduler).point.drives = some id) :
    ∃ k, n ≤ k ∧ (σ.config k).state.db.Ended id := by
  rcases serves.engaged begun with waiting | ⟨i, queued, works⟩
  · rw [waiting] at driving
    cases driving
  · cases (works.drives m works.before (Nat.le_refl m)).symm.trans driving
    obtain ⟨-, -, -, k, first, -, op, reply, does, closes⟩ := serves.works_return works
    have exist := run_later first works.existing
    have ended := serves.ended_of_closes (Nat.lt_of_lt_of_le works.started first) does closes exist
    refine ⟨k + 1, ?_, ended⟩
    -- a run that has ended does not wait again
    by_contra before
    exact left_later (Nat.le_of_not_le before) (run_later (Nat.le_succ k) exist) (ended_left ended) waits

theorem leaves_queue (serves : Serves σ since) (later : since < n) {id : Nat} (waits : (σ.config n).state.db.Waits id)
    (left : ¬(σ.config (n + 1)).state.db.Waits id) :
    ∃ k, n ≤ k ∧ ((σ.config k).state.db.Ended id ∨ (σ.config k).Withdrawn id) := by
  have ⟨run, found, isQueued⟩ := waits
  obtain ⟨run', found', changed⟩ := runStep (σ.moves n) found
  cases changed with
  | same => exact absurd ⟨run, found', isQueued⟩ left
  | update slot choice change executed next =>
    obtain ⟨rfl, revises⟩ := revises_scheduler (placed σ n) next
    obtain ⟨k, last, ended⟩ := serves.driven_ends waits later (Queueing.revises_drives revises)
    exact ⟨k, last, .inl ended⟩
  | cancel slot choice fromStatus executed next =>
    -- the scheduler may have picked the run just before it was canceled
    by_cases driving : ((σ.config (n + 1)).threads .scheduler).point.drives = some id
    · obtain ⟨k, last, ended⟩ := serves.driven_ends waits (by omega) driving
      exact ⟨k, last, .inl ended⟩
    · exact ⟨n + 1, Nat.le_succ n, .inr ⟨⟨_, found', rfl⟩, driving⟩⟩

theorem gone_left {c : Config} {id : Nat} (gone : c.state.db.Ended id ∨ c.Withdrawn id) :
    c.state.db.hasRun id = true ∧ ¬c.state.db.Waits id := by
  rcases gone with ended | ⟨⟨run, found, requested⟩, -⟩
  · refine ⟨?_, ended_left ended⟩
    obtain ⟨run, found, -⟩ := ended
    exact Option.isSome_iff_exists.mpr ⟨run, found⟩
  · refine ⟨Option.isSome_iff_exists.mpr ⟨run, found⟩, ?_⟩
    rintro ⟨run', found', isQueued⟩
    cases found.symm.trans found'
    rw [isQueued] at requested
    cases requested

theorem picks (serves : Serves σ since) {id : Nat} (later : since < n) (stands : Stands σ .scheduler n .schedulerTick)
    (waits : ∀ k, n ≤ k → (σ.config k).state.db.Waits id)
    (foremost : ∀ k, n ≤ k → ∀ earlier, earlier < id → ¬(σ.config k).state.db.Waits earlier) :
    ∃ m, n ≤ m ∧ ((σ.config m).threads .scheduler).point.drives = some id := by
  obtain ⟨m, next, last, -, stands', outcome⟩ := serves.attended.leaves later
  rw [stands] at outcome
  rcases outcome _ _ (until_picks ext settings id) with ⟨queued, rfl, rfl⟩ | missed
  · exact ⟨m + 1, by omega, by rw [stands']; rfl⟩
  · obtain ⟨k, first, -, op, reply, does, misses⟩ := missed
    cases op with
    | select query =>
      cases query with
      | nextQueuedRun =>
        obtain ⟨answers, picked⟩ := foremost_picked (serves.timed k) (waits k first) (foremost k first)
        obtain ⟨row, member, rfl⟩ := serves.answer_select (Nat.lt_of_lt_of_le later first) does answers
        obtain ⟨queued, rfl, same⟩ := picked row member
        exact absurd same (misses queued rfl)
      | _ => exact misses.elim
    | _ => exact misses.elim

theorem queue_ends (serves : Serves σ since) (id : Nat) : ∀ n, since < n → (σ.config n).state.db.Waits id →
    ∃ m, n ≤ m ∧ ((σ.config m).state.db.Ended id ∨ (σ.config m).Withdrawn id) := by
  -- runs with smaller ids go first
  induction id using Nat.strong_induction_on with
  | _ id ih =>
    intro n later waits
    by_cases stays : ∀ k, n ≤ k → (σ.config k).state.db.Waits id
    · have ahead : ∀ earlier ∈ {earlier | earlier < id}, ∀ᶠ k in atTop,
          ¬(since < k ∧ (σ.config k).state.db.Waits earlier) := by
        intro earlier less
        refine eventually_not fun k ⟨after, there⟩ => ?_
        obtain ⟨m, last, gone⟩ := ih earlier less k after there
        obtain ⟨exist, left⟩ := gone_left gone
        exact ⟨m, last, fun j first there => left_later first exist left there.2⟩
      obtain ⟨alone, clear⟩ := eventually_atTop.mp ((eventually_all_finite (Set.finite_lt_nat id)).mpr ahead)
      obtain ⟨m, last, stands⟩ := serves.frees (n := max n alone) (by omega)
      obtain ⟨k, last', driving⟩ := serves.picks (by omega) stands (fun k first => stays k (by omega))
        fun k first earlier less there => clear k (by omega) earlier less ⟨by omega, there⟩
      obtain ⟨j, last'', ended⟩ := serves.driven_ends waits (by omega) driving
      exact ⟨j, last'', .inl ended⟩
    · obtain ⟨k, first, left⟩ : ∃ k, n ≤ k ∧ ¬(σ.config k).state.db.Waits id := by
        simpa only [not_forall, exists_prop] using stays
      obtain ⟨j, last, -, there, left⟩ := exists_loss (P := fun k => (σ.config k).state.db.Waits id) first waits left
      obtain ⟨m, last', gone⟩ := serves.leaves_queue (by omega) there left
      exact ⟨m, by omega, gone⟩

end Serves

/-! ## The queue is served -/

section
variable {ext : External} {settings : Settings} {files : String → Option String} {clock : Nat}
  {σ : Life ext settings files clock} {since : Nat}

/-- The scheduler comes back to the queue for ever, and no run waits for ever. -/
structure Drains (σ : Life ext settings files clock) (since : Nat) : Prop where
  returns : ∀ n, since < n → ∃ m, n ≤ m ∧ Stands σ .scheduler m .schedulerTick
  ends : ∀ n id, since < n → (σ.config n).state.db.Waits id →
    ∃ m, n ≤ m ∧ ((σ.config m).state.db.Ended id ∨ (σ.config m).Withdrawn id)

/-- A server that runs on brings every run that is queued to its end, unless it is canceled in the queue. -/
theorem queue_drains (serves : Serves σ since) : Drains σ since where
  returns := fun _ later => serves.frees later
  ends := fun n id later waits => serves.queue_ends id n later waits

end

/-! ## A server that runs on -/

namespace Sample

/-- Nothing to do: no run waits and no worker has a node run. -/
def quiet (db : Db) : Bool :=
  (db.jobRuns.rows.all fun row => row.2.status ≠ .queued) &&
    db.nodeRuns.rows.all fun row => row.2.status ≠ .queued && row.2.status ≠ .running

/-- The clock goes on, the server is not started again, and no statement of the scheduler fails. -/
def steady (c : Config) : Label → Bool
  | .boot _ | .exec .scheduler (.fail _) => false
  | label => onward c label

def requested : List Label := (started "fork.yaml" "fork").tail

def executed : List Label := forkFinished.drop (requested.length + 1) ++ block 0 ++ turns .scheduler 3

theorem quiet_answers {db : Db} (still : quiet db = true) : Select.nextQueuedRun.answers db = [none] := by
  simp only [quiet, Bool.and_eq_true, List.all_eq_true, decide_eq_true_eq] at still
  have nobody : (db.jobRuns.rows.filter fun row => row.2.status = .queued) = [] :=
    List.filter_eq_nil_iff.mpr fun row inside => by simpa using still.1 row inside
  simp only [Select.answers, nobody]
  rfl

theorem quiet_idle {db : Db} (still : quiet db = true) (id : Nat) : ¬db.Busy id := by
  rintro ⟨node, found, busy⟩
  simp only [quiet, Bool.and_eq_true, List.all_eq_true, decide_eq_true_eq] at still
  obtain ⟨notQueued, notRunning⟩ := still.2 _ (Serial.find_eq_some.mp found)
  exact busy.elim notQueued notRunning

theorem steady_keeps {c : Config} {label : Label} (checked : steady c label = true) :
    Onward c label ∧ (∀ hostname, label ≠ .boot hostname) ∧ ∀ text, label ≠ .exec .scheduler (.fail text) := by
  refine ⟨?_, ?_, ?_⟩
  · rintro now rfl
    exact onward_sound c (.clock now) checked now rfl
  · rintro hostname rfl
    cases checked
  · rintro text rfl
    cases checked

theorem asks {c : Config} (there : c.threads .scheduler = enter ext settings .schedulerTick)
    (still : quiet c.state.db = true) : ∃ after, step ext settings c (.exec .scheduler (.answer 0)) = some after ∧
      after.state = c.state ∧ (after.threads .scheduler).code = .done .schedulerTick := by
  obtain ⟨rest, code, answered⟩ : ∃ rest, (c.threads .scheduler).code = .call (.select .nextQueuedRun) rest ∧
      rest (.ok none) = .done .schedulerTick := by
    rw [there]
    exact ⟨_, rfl, rfl⟩
  have ran : (Op.select .nextQueuedRun).run ext (.answer 0) c.state = some (.ok none, c.state) := by
    rw [Op.run, quiet_answers still]
    rfl
  refine ⟨c.put .scheduler ⟨(c.threads .scheduler).point, rest (.ok none)⟩, ?_, rfl, by rw [Config.put_self, answered]⟩
  simp only [step, code, ran]
  rfl

theorem idles {c : Config} (ended : (c.threads .scheduler).code = .done .schedulerTick)
    (still : quiet c.state.db = true) :
    ∃ σ : (system ext settings).Trace c, ∀ n, (σ.config n).state = c.state ∧
      (σ.label n).acts .scheduler ∧ steady (σ.config n) (σ.label n) = true := by
  let next (c : Config) : Label := if (c.ended .scheduler).isSome then .resume .scheduler else .exec .scheduler (.answer 0)
  let stays (after : Config) : Prop := after.state = c.state ∧
    ((after.threads .scheduler).code = .done .schedulerTick ∨
      after.threads .scheduler = enter ext settings .schedulerTick)
  have goes : ∀ before, stays before →
      ∃ after, (system ext settings).step before (next before) = some after ∧ stays after := by
    rintro before ⟨same, there | there⟩
    · have resumes : next before = .resume .scheduler := if_pos (by rw [ended_eq_some.mpr there]; rfl)
      refine ⟨before.put .scheduler (enter ext settings .schedulerTick), ?_, same, .inr (Config.put_self _ _ _)⟩
      rw [resumes]
      simp only [system, step, there]
    · have executes : next before = .exec .scheduler (.answer 0) := by
        refine if_neg fun done => ?_
        rw [Config.ended, there] at done
        cases done
      obtain ⟨after, moved, kept, done⟩ := asks there (by rw [same]; exact still)
      rw [executes]
      exact ⟨after, moved, kept.trans same, .inl done⟩
  obtain ⟨σ, always⟩ := Machine.exists_trace next goes ⟨rfl, .inl ended⟩
  refine ⟨σ, fun n => ?_⟩
  obtain ⟨⟨same, -⟩, label⟩ := always n
  refine ⟨same, ?_⟩
  rw [label]
  by_cases done : ((σ.config n).ended .scheduler).isSome
  · rw [show next (σ.config n) = .resume .scheduler from if_pos done]
    exact ⟨rfl, rfl⟩
  · rw [show next (σ.config n) = .exec .scheduler (.answer 0) from if_neg done]
    exact ⟨rfl, rfl⟩

/-- A start, steps that pass the check, and at last nothing to do but to ask for runs. -/
theorem serves {σ : Life ext settings files 1000000} {db : Db} (starts : σ.label 0 = .boot "localhost")
    (checked : ∀ n, steady (σ.config (n + 1)) (σ.label (n + 1)) = true) (still : quiet db = true)
    (rests : ∀ᶠ n in atTop, (σ.config n).state.db = db ∧ (σ.label n).acts .scheduler) : Serves σ 0 where
  starts := ⟨"localhost", starts⟩
  stays := by
    intro n hostname later
    cases n with
    | zero => exact absurd later (Nat.lt_irrefl 0)
    | succ n => exact (steady_keeps (checked n)).2.1 hostname
  onward := by
    intro n
    cases n with
    | zero =>
      intro now same
      rw [starts] at same
      cases same
    | succ n => exact (steady_keeps (checked n)).1
  scheduled := (rests.mono fun n rest => rest.2).frequently
  answered := by
    intro n text later
    cases n with
    | zero => exact absurd later (Nat.lt_irrefl 0)
    | succ n => exact (steady_keeps (checked n)).2.2 text
  settles := by
    intro id
    filter_upwards [rests] with n rest
    rw [rest.1]
    exact quiet_idle still id

end Sample

/-- A run of the fork is queued and executed, and then the scheduler asks for further ones for ever. -/
theorem queue_drains_fork : ∃ (σ : Life Sample.ext Sample.settings Sample.files 1000000) (n : Nat),
    0 < n ∧ (σ.config n).state.db.Waits 1 ∧ Drains σ 0 := by
  have passed : ((system Sample.ext Sample.settings).step Sample.initial (.boot "localhost")).any (fun booted =>
      ((system Sample.ext Sample.settings).follow Sample.steady booted Sample.requested).any fun c =>
        (c.state.db.jobRuns.find 1).any (·.status = .queued) &&
          ((system Sample.ext Sample.settings).follow Sample.steady c Sample.executed).any fun last =>
            Sample.quiet last.state.db && (last.ended .scheduler).any Sample.atQueue) = true := by decide +kernel
  obtain ⟨booted, boots, passed⟩ := (Option.any_eq_true _ _).mp passed
  obtain ⟨c, requests, passed⟩ := (Option.any_eq_true _ _).mp passed
  obtain ⟨isQueued, passed⟩ := Bool.and_eq_true_iff.mp passed
  obtain ⟨last, executes, passed⟩ := (Option.any_eq_true _ _).mp passed
  obtain ⟨still, atQueue⟩ := Bool.and_eq_true_iff.mp passed
  obtain ⟨point, ended, atQueue⟩ := (Option.any_eq_true _ _).mp atQueue
  obtain rfl := Sample.atQueue_eq atQueue
  obtain ⟨run, found, isQueued⟩ := (Option.any_eq_true _ _).mp isQueued
  -- the infinite run: the start, the requests, the execution, and an idle scheduler
  obtain ⟨idle, idles⟩ := Sample.idles (ended_eq_some.mp ended) still
  obtain ⟨worked, steady, after⟩ := Machine.follow_trace executes idle
  obtain ⟨τ, steady', after'⟩ := Machine.follow_trace requests worked
  let σ : Life Sample.ext Sample.settings Sample.files 1000000 := τ.cons boots
  have rests : ∀ᶠ n in atTop, (σ.config n).state.db = last.state.db ∧ (σ.label n).acts .scheduler := by
    refine eventually_atTop.mpr ⟨Sample.requested.length + Sample.executed.length + 1, fun n later => ?_⟩
    obtain ⟨k, rfl⟩ := Nat.exists_eq_add_of_le later
    rw [show Sample.requested.length + Sample.executed.length + 1 + k =
      Sample.requested.length + (Sample.executed.length + k) + 1 by omega]
    show (τ.config _).state.db = last.state.db ∧ (τ.label _).acts .scheduler
    rw [(after' _).1, (after' _).2, (after k).1, (after k).2, (idles k).1]
    exact ⟨rfl, (idles k).2.1⟩
  have serves : Serves σ 0 := Sample.serves rfl (steady' (steady fun n => (idles n).2.2)) still rests
  refine ⟨σ, Sample.requested.length + 1, Nat.succ_pos _, ?_, queue_drains serves⟩
  show (τ.config Sample.requested.length).state.db.Waits 1
  have there := (after' 0).1
  rw [Nat.add_zero] at there
  rw [there, worked.first]
  exact ⟨run, found, by simpa using isQueued⟩

end PostJen.Server
