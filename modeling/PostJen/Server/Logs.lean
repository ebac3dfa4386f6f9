import PostJen.Foundations.Cursor
import PostJen.Server.Plans
import PostJen.Server.Rules
import PostJen.Server.Sample

/-! The sequence numbers of `run_logs` and their reader.

A writer reads the largest number of a run and counts on from it in statements
of its own. The numbers stay distinct as long as no writer counts on from a
number that another writer's row has overtaken.
-/

set_option autoImplicit false

open PostJen.Foundations PostJen.Core

namespace PostJen.Server

/-! ## The reader -/

structure RunLogsQuery where
  nodeId : Option String
  stream : Option String
  afterSequence : Option Int
  limit : Option Int

structure RunLogRow where
  sequence : Int
  nodeRunId : Option Nat
  stream : String
  content : String
  occurredAt : Timestamp
  deriving DecidableEq

/-- `unwrap_or(200).clamp(1, 1000)`. -/
def RunLogsQuery.pageSize (query : RunLogsQuery) : Nat :=
  (max 1 (min 1000 (query.limit.getD 200))).toNat

def RunLogsQuery.matches (query : RunLogsQuery) (db : Db) (log : RunLog) : Bool :=
  (query.nodeId.all fun wanted => ((log.nodeRunId.bind db.nodeRuns.find).map (·.nodeId)) = some wanted) &&
    query.stream.all fun wanted => log.stream = wanted

def RunLog.row (log : RunLog) : RunLogRow :=
  ⟨log.sequence, log.nodeRunId, log.stream, log.content, log.occurredAt⟩

def Db.logs (db : Db) (runId : Nat) : List RunLog :=
  (db.runLogs.rows.map Prod.snd).filter fun log => log.jobRunId = runId

def Db.matchingLogs (db : Db) (runId : Nat) (query : RunLogsQuery) : List RunLogRow :=
  ((db.logs runId).filter (query.matches db)).map RunLog.row

/-- Every answer of `get_run_logs`: `ORDER BY sequence ASC LIMIT`, behind `after_sequence`. -/
def getRunLogs (db : Db) (runId : Nat) (query : RunLogsQuery) : List (List RunLogRow) :=
  pages RunLogRow.sequence (db.matchingLogs runId query) query.pageSize query.afterSequence

/-- What a client receives that asks again behind the last row of each page. -/
inductive Received (db : Db) (runId : Nat) : RunLogsQuery → List RunLogRow → Prop where
  | done {query : RunLogsQuery} (answered : [] ∈ getRunLogs db runId query) : Received db runId query []
  | more {query : RunLogsQuery} {page rest : List RunLogRow} {last : RunLogRow}
      (answered : page ∈ getRunLogs db runId query) (ends : page.getLast? = some last)
      (continued : Received db runId { query with afterSequence := some last.sequence } rest) :
      Received db runId query (page ++ rest)

/-- Whatever a client asks for, it receives each matching row behind its cursor
exactly once, in order, and comes to an end. -/
structure Pageable (db : Db) (runId : Nat) : Prop where
  ends : ∀ query, ∃ rows, Received db runId query rows
  exact : ∀ query rows, Received db runId query rows →
    rows.Perm (beyond RunLogRow.sequence (db.matchingLogs runId query) query.afterSequence) ∧
      rows.Pairwise fun first second => first.sequence < second.sequence

/-- No two rows of the run carry the same number. -/
def Db.Numbered (db : Db) (runId : Nat) : Prop := ((db.logs runId).map (·.sequence)).Nodup

section
variable {db : Db} {runId : Nat} {query : RunLogsQuery} {rows : List RunLogRow}

theorem RunLogsQuery.pageSize_pos (query : RunLogsQuery) : 0 < query.pageSize := by
  unfold pageSize
  omega

theorem received_iff :
    Received db runId query rows ↔
      Collects RunLogRow.sequence (db.matchingLogs runId query) query.pageSize query.afterSequence rows := by
  constructor
  · intro received
    induction received with
    | done answered => exact .done answered
    | more answered ends _ ih => exact .more answered ends ih
  · have from_cursor : ∀ cursor rows,
        Collects RunLogRow.sequence (db.matchingLogs runId query) query.pageSize cursor rows →
          Received db runId { query with afterSequence := cursor } rows := by
      intro cursor rows collected
      induction collected with
      | done answered => exact .done answered
      | more answered ends _ ih => exact .more answered ends ih
    exact from_cursor query.afterSequence rows

theorem Db.Numbered.matching (numbered : db.Numbered runId) (query : RunLogsQuery) :
    ((db.matchingLogs runId query).map RunLogRow.sequence).Nodup := by
  have numbers : (db.matchingLogs runId query).map RunLogRow.sequence =
      (((db.logs runId).filter (query.matches db)).map (·.sequence)).map Int.ofNat := by
    simp only [matchingLogs, List.map_map]
    rfl
  rw [numbers]
  exact (numbered.sublist (List.filter_sublist.map _)).map fun _ _ same => Int.ofNat.inj same

theorem Db.Numbered.pageable (numbered : db.Numbered runId) : Pageable db runId where
  ends query := by
    obtain ⟨rows, collected⟩ : ∃ rows, Collects RunLogRow.sequence (db.matchingLogs runId query) query.pageSize
        query.afterSequence rows :=
      collects_exists _ _ _
    exact ⟨rows, received_iff.mpr collected⟩
  exact query rows received :=
    (received_iff.mp received).exact (numbered.matching query) query.pageSize_pos

end

/-! ## The code of the writers -/

def counting : Protocol Sig (Option (Nat × Nat)) where
  permits
    | memory, .write (.log new) => ∃ last, memory = some (new.jobRunId, last) ∧ new.sequence = last + 1
    | _, _ => True
  advance
    | .select (.maxSequence runId), .ok last, _ => some (runId, last)
    | .write (.log new), .ok _, _ => some (new.jobRunId, new.sequence)
    | _, _, _ => none

def counters : Plan (Option (Nat × Nat)) := ⟨counting, fun _ _ => True⟩

def Point.logs : Point → Bool
  | .localTask _ | .received (.reportLogs _ _) => true
  | _ => false

theorem Point.makes_log (point : Point) (new : NewLog) : point.makes (.log new) = point.logs := by
  cases point with
  | received request => cases request <;> rfl
  | _ => rfl

section
variable {E A : Type} {post : A → Option (Nat × Nat) → Prop} {memory : Option (Nat × Nat)}

def Op.unlogged (op : Op) : Prop := ∀ new, op ≠ .write (.log new)

theorem counting_free (op : Op) (memory : Option (Nat × Nat)) (unlogged : op.unlogged) : counting.permits memory op := by
  unfold counting
  dsimp only
  split
  · exact absurd rfl (unlogged _)
  · trivial

theorem unlogged_minor (op : Op) (minor : op.minor = true) : op.unlogged := by
  rintro new rfl
  cases minor

theorem counts_free {program : Proc Sig E A} (within : program.Within Op.unlogged fun _ => True)
    (memory : Option (Nat × Nat)) :
    program.Holds counting.discipline (fun _ _ => True) (fun _ _ => True) memory :=
  (Protocol.holds_free within counting_free memory).mono (fun _ _ _ => trivial) fun _ _ _ => trivial

theorem counts_recordLogs [FromSql E] (runId nodeRunId last : Nat) (logs : List (String × String)) :
    (recordLogs runId nodeRunId last logs : Proc Sig E Unit).Holds counting.discipline (fun _ _ => True)
      (fun _ _ => True) (some (runId, last)) := by
  induction logs generalizing last with
  | nil => trivial
  | cons log rest ih =>
    refine Protocol.holds_call.mpr fun reply => ⟨⟨last, rfl, rfl⟩, ?_⟩
    cases reply with
    | ok _ => exact ih (last + 1)
    | error why => trivial

theorem counts_from [FromSql E] {runId nodeRunId : Nat} {logs : List (String × String)} {next : Proc Sig E A}
    (rest : ∀ memory, next.Holds counting.discipline (fun _ _ => True) (fun _ _ => True) memory) :
    (fetch (.maxSequence runId) >>= fun last => recordLogs runId nodeRunId last logs >>= fun _ => next :
      Proc Sig E A).Holds counting.discipline (fun _ _ => True) (fun _ _ => True) memory := by
  refine Protocol.holds_call.mpr fun reply => ⟨trivial, ?_⟩
  cases reply with
  | ok last =>
    exact (Proc.holds_bind (recordLogs runId nodeRunId last logs) (fun _ => next) _).mpr
      ((counts_recordLogs runId nodeRunId last logs).mono (fun _ memory _ => rest memory) fun _ _ _ => trivial)
  | error why => trivial

end

theorem counts_executeLocalTask (ext : External) (settings : Settings) (task : Task) (memory : Option (Nat × Nat)) :
    (executeLocalTask ext settings task).Holds counting.discipline (fun _ _ => True) (fun _ _ => True) memory := by
  unfold executeLocalTask
  refine (Proc.holds_bind _ _ _).mpr ((counts_free (within_loadOutputs (reads_of unlogged_minor) task) memory).mono
    (fun outputs memory _ => ?_) fun _ _ _ => trivial)
  refine Protocol.holds_call.mpr fun result => ⟨trivial, counts_from fun memory => counts_free ?_ memory⟩
  refine (within_checkAfter (reads_of unlogged_minor) _ _ _).bind fun results _ => ?_
  refine (within_recordLocalArtifacts (reads_of unlogged_minor) settings task (fun _ _ => nofun) results).bind fun _ _ => ?_
  exact (within_run fun _ => nofun).bind fun _ _ => within_event unlogged_minor _

theorem counts_reportLogs (ext : External) (headers : Headers) (payload : ReportLogsRequest)
    (memory : Option (Nat × Nat)) :
    (reportLogs ext headers payload).Holds counting.discipline (fun _ _ => True) (fun _ _ => True) memory := by
  unfold reportLogs
  refine (Proc.holds_bind _ _ _).mpr ((counts_free (within_authenticateAgent (reads_of unlogged_minor) ext headers) memory).mono
    (fun _ memory _ => ?_) fun _ _ _ => trivial)
  refine (Proc.holds_bind _ _ _).mpr ((counts_free (within_nodeJobRun (reads_of unlogged_minor) _ _) memory).mono
    (fun runId memory _ => ?_) fun _ _ _ => trivial)
  exact counts_from fun _ => trivial

variable {ext : External} {settings : Settings}

theorem counters_valid : counters.Valid ext settings where
  begins _ _ _ _ := ⟨none, trivial⟩
  blocks := by
    rintro slot point memory hosted -
    cases logs : point.logs with
    | false =>
      have within := block_within ext settings hosted
      refine (Protocol.holds_free (within.mono (fun op may => ?_) fun _ there => there) counting_free memory).mono
        (fun _ _ _ => trivial) fun why => why.elim
      rintro new rfl
      have made : point.makes (.log new) = true := may
      rw [point.makes_log, logs] at made
      cases made
    | true =>
      cases point with
      | localTask task =>
        exact holds_otherwise ((Proc.holds_bind _ _ _).mpr ((counts_executeLocalTask ext settings task memory).mono
          (fun _ _ _ => trivial) fun _ _ _ => trivial))
      | received request =>
        cases request with
        | reportLogs headers payload =>
          exact holds_respond ((counts_reportLogs ext headers payload memory).mono
            (fun _ _ _ => trivial) fun _ _ _ => trivial)
        | _ => cases logs
      | _ => cases logs

/-! ## The numbers of a run -/

def Db.lastSequence (db : Db) (runId : Nat) : Nat := ((db.logs runId).map (·.sequence)).foldl Nat.max 0

theorem mem_maxSequence {db : Db} {runId last : Nat} (member : last ∈ (Select.maxSequence runId).answers db) :
    last = db.lastSequence runId := by
  rw [List.mem_singleton.mp member, Db.lastSequence, Db.logs, List.filter_map, List.map_map]
  rfl

private theorem le_foldl_max (numbers : List Nat) (first : Nat) :
    first ≤ numbers.foldl Nat.max first ∧ ∀ n ∈ numbers, n ≤ numbers.foldl Nat.max first := by
  induction numbers generalizing first with
  | nil => exact ⟨Nat.le_refl _, nofun⟩
  | cons head rest ih =>
    obtain ⟨above, all⟩ := ih (Nat.max first head)
    refine ⟨(Nat.le_max_left _ _).trans above, fun n member => ?_⟩
    rcases List.mem_cons.mp member with rfl | later
    · exact (Nat.le_max_right _ _).trans above
    · exact all n later

theorem le_lastSequence {db : Db} {runId : Nat} {log : RunLog} (member : log ∈ db.logs runId) :
    log.sequence ≤ db.lastSequence runId :=
  (le_foldl_max _ 0).2 _ (List.mem_map_of_mem member)

variable {c after : Config} {label : Label} {slot other : Slot} {runId : Nat} {history : List Label}

def Config.Counting (c : Config) (slot : Slot) (runId : Nat) : Prop :=
  ∃ new, c.pending slot = some (.write (.log new)) ∧ new.jobRunId = runId

def Appends (slot : Slot) (runId : Nat) (before : Config) (label : Label) (after : Config) : Prop :=
  ∃ choice new, label = .exec slot choice ∧ before.pending slot = some (.write (.log new)) ∧
    new.jobRunId = runId ∧
    after.state.db.runLogs = before.state.db.runLogs.insert (new.row before.state.now)

theorem exec_runLogs {op : Op} {reply : op.Reply} {before after : State} (ran : op.exec ext before reply after) :
    after.db.runLogs = before.db.runLogs ∨
      ∃ new, op = .write (.log new) ∧ after.db.runLogs = before.db.runLogs.insert (new.row before.now) := by
  cases op with
  | write write =>
    rcases exec_write ran with ⟨-, rfl⟩ | ⟨result, db, applied, -, rfl⟩
    · exact .inl rfl
    · cases write with
      | log new =>
        simp only [Write.apply] at applied
        split at applied
        · cases applied
        · split at applied <;> cases applied
          exact .inr ⟨new, rfl, rfl⟩
      | insertNode _ | event _ | artifact _ | agents _ =>
        simp only [Write.apply] at applied
        repeat' split at applied
        all_goals cases applied
        all_goals exact .inl rfl
      | _ =>
        cases applied
        exact .inl rfl
  | transact transaction =>
    rcases exec_transact ran with ⟨-, rfl⟩ | ⟨result, db, applied, -, rfl⟩
    · exact .inl rfl
    · cases transaction <;> simp only [Transaction.apply] at applied <;> split at applied <;> cases applied <;>
        exact .inl rfl
  | _ => exact .inl (by rw [exec_reads rfl ran])

theorem exec_logged {new : NewLog} {id : Nat} {before after : State}
    (ran : (Op.write (.log new)).exec ext before (.ok id) after) :
    after.db.runLogs = before.db.runLogs.insert (new.row before.now) := by
  rcases exec_write ran with ⟨⟨why, never⟩, -⟩ | ⟨result, db, applied, -, rfl⟩
  · cases never
  · simp only [Write.apply] at applied
    split at applied
    · cases applied
    · split at applied <;> cases applied
      rfl

theorem step_runLogs (moved : step ext settings c label = some after) :
    after.state.db.runLogs = c.state.db.runLogs ∨ ∃ slot runId, Appends slot runId c label after := by
  rcases step_db moved with ⟨same, -⟩ | ⟨slot, choice, op, reply, rfl, next, ran⟩ |
    ⟨hostname, affected, rfl, registered⟩
  · exact .inl (by rw [same])
  · rcases exec_runLogs ran with same | ⟨new, rfl, inserted⟩
    · exact .inl same
    · exact .inr ⟨slot, _, choice, new, rfl, next, rfl, inserted⟩
  · obtain ⟨agents, same⟩ := registered_agents registered
    exact .inl (by rw [same])

theorem step_logs (moved : step ext settings c label = some after) (runId : Nat) :
    (after.state.db.logs runId = c.state.db.logs runId ∧ ∀ slot, ¬Appends slot runId c label after) ∨
      ∃ slot choice new, label = .exec slot choice ∧ c.pending slot = some (.write (.log new)) ∧
        new.jobRunId = runId ∧ Appends slot runId c label after ∧
        after.state.db.logs runId = c.state.db.logs runId ++ [new.row c.state.now] := by
  rcases step_runLogs moved with same | ⟨slot, other, choice, new, rfl, next, rfl, inserted⟩
  · refine .inl ⟨by rw [Db.logs, Db.logs, same], ?_⟩
    rintro slot ⟨choice, new, -, -, -, inserted⟩
    have counted := congrArg Serial.next (same.symm.trans inserted)
    exact Nat.succ_ne_self _ counted.symm
  · have rows : after.state.db.runLogs.rows.map Prod.snd =
        c.state.db.runLogs.rows.map Prod.snd ++ [new.row c.state.now] := by
      rw [inserted]
      exact List.map_append
    unfold Db.logs
    rw [rows, List.filter_append]
    by_cases here : new.jobRunId = runId
    · exact .inr ⟨slot, choice, new, rfl, next, here, ⟨choice, new, rfl, next, here, inserted⟩,
        congrArg _ (List.filter_eq_self.mpr (by simpa [NewLog.row] using here))⟩
    · refine .inl ⟨(congrArg _ (List.filter_eq_nil_iff.mpr (by simpa [NewLog.row] using here))).trans
        (List.append_nil _), ?_⟩
      rintro slot' ⟨choice', new', same, next', here', -⟩
      cases same
      cases next.symm.trans next'
      exact here here'

/-- Where the number of a pending row comes from. -/
inductive NumberFrom (c : Config) (label : Label) (after : Config) (slot : Slot) (new : NewLog) : Prop where
  | same (next : c.pending slot = some (.write (.log new))) (other : ∀ choice, label ≠ .exec slot choice) :
      NumberFrom c label after slot new
  | read (choice : Choice) (executed : label = .exec slot choice)
      (next : c.pending slot = some (.select (.maxSequence new.jobRunId)))
      (number : new.sequence = c.state.db.lastSequence new.jobRunId + 1) : NumberFrom c label after slot new
  | wrote (old : NewLog) (next : c.pending slot = some (.write (.log old)))
      (appends : Appends slot new.jobRunId c label after) (number : new.sequence = old.sequence + 1) :
      NumberFrom c label after slot new

theorem unlogged_enter {point : Point} {new : NewLog} {rest : Op.Reply (.write (.log new)) → Proc Sig Empty Point}
    (hosted : slot.hosts point = true) : (enter ext settings point).code ≠ .call (.write (.log new)) rest := by
  intro starts
  have follows := (counters_valid : counters.Valid ext settings).blocks slot point none hosted trivial
  unfold Plan.Follows Thread.Holds at follows
  rw [starts] at follows
  obtain ⟨⟨last, never, -⟩, -⟩ := Protocol.holds_call.mp follows (.ok 0)
  cases never

theorem numberFrom (placed : c.Placed) (kept : counters.Kept c) (moved : step ext settings c label = some after)
    {new : NewLog} (next : after.pending slot = some (.write (.log new))) : NumberFrom c label after slot new := by
  obtain ⟨rest, code⟩ := pending_eq_some.mp next
  have turn := thread_step moved slot
  generalize after.threads slot = thread at turn code
  cases turn with
  | same other => exact .same (pending_eq_some.mpr ⟨rest, code⟩) other
  | @exec choice op rest' reply state next' ran =>
    obtain ⟨memory, -, goes⟩ := kept.at next'
    have follows := (goes reply).2
    unfold Plan.Follows Thread.Holds at follows
    rw [code] at follows
    obtain ⟨⟨last, memorized, number⟩, -⟩ := Protocol.holds_call.mp follows (.ok 0)
    have executed : c.pending slot = some op := pending_eq_some.mpr ⟨_, next'⟩
    change counting.advance op reply memory = _ at memorized
    unfold counting at memorized
    dsimp only at memorized
    split at memorized
    · rename_i runId found
      obtain ⟨rfl, rfl⟩ := Prod.mk.inj (Option.some.inj memorized)
      obtain ⟨-, ⟨why, never⟩ | ⟨row, member, same⟩⟩ := exec_select ⟨choice, ran⟩
      · cases never
      · cases same
        exact .read choice rfl executed (by rw [number, mem_maxSequence member])
    · rename_i old result
      obtain ⟨run, rfl⟩ := Prod.mk.inj (Option.some.inj memorized)
      exact .wrote old executed ⟨choice, old, rfl, executed, run, exec_logged ⟨choice, ran⟩⟩ number
    · cases memorized
  | resume ended => exact absurd code (unlogged_enter (placed.follows ended).1)
  | entered entry => exact absurd code (unlogged_enter entry.hosted)

/-! ## Writers that overtake each other -/

section
variable (ext : External) (settings : Settings) (start : Config) (slot : Slot) (runId : Nat)

/-- Since the task has read the number that it counts on from, another task
has inserted a row of the run. -/
inductive Overtaken : List Label → Config → Prop where
  | now {history : List Label} {before after : Config} {label : Label} {other : Slot}
      (run : (system ext settings).Path everything start history before)
      (moved : step ext settings before label = some after) (counting : before.Counting slot runId)
      (ne : other ≠ slot) (appends : Appends other runId before label after) : Overtaken (label :: history) after
  | still {history : List Label} {before after : Config} {label : Label} (earlier : Overtaken history before)
      (moved : step ext settings before label = some after) (counting : after.Counting slot runId) :
      Overtaken (label :: history) after

end

inductive OutOfTurn (ext : External) (settings : Settings) (start : Config) (runId : Nat) : List Label → Prop where
  | now {slot : Slot} {history : List Label} {before after : Config} {label : Label}
      (overtaken : Overtaken ext settings start slot runId history before)
      (moved : step ext settings before label = some after) (appends : Appends slot runId before label after) :
      OutOfTurn ext settings start runId (label :: history)
  | later {history : List Label} {label : Label} (earlier : OutOfTurn ext settings start runId history) :
      OutOfTurn ext settings start runId (label :: history)

section
variable {start : Config}

theorem Overtaken.path (overtaken : Overtaken ext settings start slot runId history c) :
    (system ext settings).Path everything start history c := by
  induction overtaken with
  | now run moved _ _ _ => exact run.cons trivial moved
  | still _ moved _ ih => exact ih.cons trivial moved

theorem Overtaken.cons (run : (system ext settings).Path everything start history c)
    (overtaken : Overtaken ext settings start slot runId (label :: history) after) :
    (∃ other, other ≠ slot ∧ c.Counting slot runId ∧ Appends other runId c label after) ∨
      Overtaken ext settings start slot runId history c := by
  cases overtaken with
  | now run' moved counting ne appends =>
    cases run.unique run'
    exact .inl ⟨_, ne, counting, appends⟩
  | still earlier moved counting =>
    cases run.unique earlier.path
    exact .inr earlier

theorem Overtaken.counting (overtaken : Overtaken ext settings start slot runId history c) :
    c.Counting slot runId := by
  cases overtaken with
  | @now history before after label other run moved counting ne appends =>
    obtain ⟨choice, new, rfl, -, -, -⟩ := appends
    obtain ⟨old, next, here⟩ := counting
    refine ⟨old, ?_, here⟩
    have turn := thread_step moved slot
    generalize same : c.threads slot = thread at turn
    cases turn with
    | same _ =>
      unfold Config.pending
      rw [same]
      exact next
    | exec _ _ => exact absurd rfl ne
    | entered entry => cases entry
  | still _ _ counting => exact counting

theorem appends_once (first : Appends slot runId c label after) (second : Appends other runId c label after) :
    slot = other := by
  obtain ⟨choice, new, rfl, -⟩ := first
  obtain ⟨choice', new', same, -⟩ := second
  cases same
  rfl

/-- Each writer of a run either counts on from the last number, or has been
overtaken and its number is taken. -/
structure Orderly (ext : External) (settings : Settings) (start : Config) (runId : Nat) (history : List Label)
    (c : Config) : Prop where
  numbered : c.state.db.Numbered runId
  writers : ∀ slot new, c.pending slot = some (.write (.log new)) → new.jobRunId = runId →
    (Overtaken ext settings start slot runId history c ∧ ∃ log ∈ c.state.db.logs runId, log.sequence = new.sequence) ∨
      (¬Overtaken ext settings start slot runId history c ∧ new.sequence = c.state.db.lastSequence runId + 1)

theorem Orderly.idle (orderly : Orderly ext settings start runId history c)
    (run : (system ext settings).Path everything start history c) (placed : c.Placed) (kept : counters.Kept c)
    (moved : step ext settings c label = some after) (same : after.state.db.logs runId = c.state.db.logs runId)
    (none : ∀ slot, ¬Appends slot runId c label after) :
    Orderly ext settings start runId (label :: history) after := by
  have ahead : ∀ slot, Overtaken ext settings start slot runId (label :: history) after →
      Overtaken ext settings start slot runId history c := by
    intro slot overtaken
    rcases overtaken.cons run with ⟨other, -, -, appends⟩ | earlier
    · exact absurd appends (none other)
    · exact earlier
  refine ⟨?_, ?_⟩
  · rw [Db.Numbered, same]
    exact orderly.numbered
  · rintro slot new next rfl
    have last : after.state.db.lastSequence new.jobRunId = c.state.db.lastSequence new.jobRunId := by
      rw [Db.lastSequence, Db.lastSequence, same]
    rw [last, same]
    cases numberFrom placed kept moved next with
    | same before _ =>
      rcases orderly.writers slot new before rfl with ⟨overtaken, taken⟩ | ⟨first, number⟩
      · exact .inl ⟨overtaken.still moved ⟨new, next, rfl⟩, taken⟩
      · exact .inr ⟨fun overtaken => first (ahead slot overtaken), number⟩
    | read choice executed before number =>
      refine .inr ⟨fun overtaken => ?_, number⟩
      obtain ⟨old, impossible, -⟩ := (ahead slot overtaken).counting
      cases before.symm.trans impossible
    | wrote old before appends number => exact absurd appends (none slot)

theorem Orderly.append (orderly : Orderly ext settings start runId history c)
    (run : (system ext settings).Path everything start history c) (placed : c.Placed) (kept : counters.Kept c)
    (moved : step ext settings c label = some after) {new : NewLog}
    (next : c.pending slot = some (.write (.log new))) (appends : Appends slot runId c label after)
    (rows : after.state.db.logs runId = c.state.db.logs runId ++ [new.row c.state.now])
    (number : new.sequence = c.state.db.lastSequence runId + 1)
    (inTurn : ¬Overtaken ext settings start slot runId history c) :
    Orderly ext settings start runId (label :: history) after := by
  have last : after.state.db.lastSequence runId = new.sequence := by
    rw [Db.lastSequence, rows, List.map_append, List.foldl_append]
    have above : c.state.db.lastSequence runId ≤ new.sequence := by omega
    exact Nat.max_eq_right above
  have executed : ∃ choice, label = .exec slot choice := by
    obtain ⟨choice, _, same, -⟩ := appends
    exact ⟨choice, same⟩
  refine ⟨?_, ?_⟩
  · rw [Db.Numbered, rows, List.map_append, List.nodup_append]
    refine ⟨orderly.numbered, List.nodup_singleton _, ?_⟩
    intro old member fresh single same
    obtain ⟨log, inside, rfl⟩ := List.mem_map.mp member
    have below := le_lastSequence inside
    rw [List.mem_singleton.mp single] at same
    have equal : log.sequence = new.sequence := same
    omega
  · rintro writer pending next' rfl
    -- a writer that counted on from the same number is overtaken; the task itself goes on from its row
    rw [last]
    cases numberFrom placed kept moved next' with
    | same before other =>
      have ne : slot ≠ writer := by
        rintro rfl
        obtain ⟨choice, same⟩ := executed
        exact other choice same
      have overtaken : Overtaken ext settings start writer pending.jobRunId (label :: history) after := by
        rcases orderly.writers writer pending before rfl with ⟨overtaken, -⟩ | -
        · exact overtaken.still moved ⟨pending, next', rfl⟩
        · exact .now run moved ⟨pending, before, rfl⟩ ne appends
      refine .inl ⟨overtaken, ?_⟩
      rw [rows]
      rcases orderly.writers writer pending before rfl with ⟨-, log, member, same⟩ | ⟨-, same⟩
      · exact ⟨log, List.mem_append_left _ member, same⟩
      · exact ⟨_, List.mem_append_right _ List.mem_cons_self, number.trans same.symm⟩
    | read choice executed' before _ =>
      obtain ⟨choice', same⟩ := executed
      cases executed'.symm.trans same
      cases before.symm.trans next
    | wrote old before appends' succeeds =>
      cases appends_once appends appends'
      cases before.symm.trans next
      refine .inr ⟨fun overtaken => ?_, succeeds⟩
      rcases overtaken.cons run with ⟨other, ne, -, other'⟩ | earlier
      · exact ne (appends_once other' appends)
      · exact inTurn earlier

/-- The numbers are distinct until the first row is inserted out of turn, and never since. -/
theorem numbered_or_outOfTurn (idle : ∀ slot, start.threads slot = enter ext settings .idle)
    (empty : start.state.db.logs runId = []) (run : (system ext settings).Path everything start history c) :
    (¬OutOfTurn ext settings start runId history ∧ Orderly ext settings start runId history c) ∨
      (OutOfTurn ext settings start runId history ∧ ¬c.state.db.Numbered runId) := by
  induction run with
  | nil =>
    refine .inl ⟨nofun, ?_, ?_⟩
    · rw [Db.Numbered, empty]
      exact List.nodup_nil
    · intro slot new next
      rw [Config.pending, idle] at next
      cases next
  | @cons history before after label run _ moved ih =>
    rcases ih with ⟨inTurn, orderly⟩ | ⟨outOfTurn, repeated⟩
    · have placed := reached_placed idle run.reaches
      have kept := counters_valid.sound idle run.reaches
      rcases step_logs moved runId with ⟨same, none⟩ | ⟨slot, choice, new, executed, next, here, appends, rows⟩
      · refine .inl ⟨fun outOfTurn => ?_, orderly.idle run placed kept moved same none⟩
        cases outOfTurn with
        | now overtaken moved' appends =>
          cases run.unique overtaken.path
          cases moved.symm.trans moved'
          exact none _ appends
        | later earlier => exact inTurn earlier
      -- a row in turn is numbered behind all others; the first one out of turn repeats a number
      · rcases orderly.writers slot new next here with ⟨overtaken, log, member, taken⟩ | ⟨first, number⟩
        · refine .inr ⟨.now overtaken moved appends, fun numbered => ?_⟩
          rw [Db.Numbered, rows, List.map_append, List.nodup_append] at numbered
          exact numbered.2.2 _ (List.mem_map_of_mem member) _ List.mem_cons_self taken
        · refine .inl ⟨fun outOfTurn => ?_, orderly.append run placed kept moved next appends rows number first⟩
          cases outOfTurn with
          | now overtaken moved' appends' =>
            cases run.unique overtaken.path
            cases moved.symm.trans moved'
            cases appends_once appends appends'
            exact first overtaken
          | later earlier => exact inTurn earlier
    · refine .inr ⟨outOfTurn.later, fun numbered => repeated ?_⟩
      rcases step_logs moved runId with ⟨same, -⟩ | ⟨_, _, _, -, -, -, -, rows⟩
      · rwa [Db.Numbered, same] at numbered
      · rw [Db.Numbered, rows, List.map_append] at numbered
        exact (List.nodup_append.mp numbered).1

/-- A run's log is numbered without repetition, and its reader receives every
row once, exactly when no task has inserted a row out of turn. -/
theorem log_numbers {files : String → Option String} {clock : Nat}
    (run : (system ext settings).Path everything (Config.initial ext settings files clock) history c) (runId : Nat) :
    (c.state.db.Numbered runId ∧ Pageable c.state.db runId) ↔
      ¬OutOfTurn ext settings (Config.initial ext settings files clock) runId history := by
  have empty : (Config.initial ext settings files clock).state.db.logs runId = [] := rfl
  rcases numbered_or_outOfTurn (Config.initial_idle ext settings files clock) empty run with
    ⟨inTurn, orderly⟩ | ⟨outOfTurn, repeated⟩
  · exact iff_of_true ⟨orderly.numbered, orderly.numbered.pageable⟩ inTurn
  · exact iff_of_false (fun holds => repeated holds.1) (not_not_intro outOfTurn)

end

def Sample.startLogging (n : Nat) : List Label :=
  turns .localWorker 3 ++ [.spawn n] ++ turns (.localTask n) 1 ++
    [.exec (.localTask n) (.child ⟨.exited (some 0), "built", "warned"⟩)] ++ turns (.localTask n) 1

theorem log_numbers_local : ∃ history c,
    (system Sample.ext Sample.settings).Path everything Sample.initial history c ∧ c.state.db.logs 1 ≠ [] ∧
    ((c.state.db.Numbered 1 ∧ Pageable c.state.db 1) ↔
      ¬OutOfTurn Sample.ext Sample.settings Sample.initial 1 history) := by
  have passed : (Sample.run (fun _ _ => true)
      (Sample.forkQueued ++ Sample.startLogging 0 ++ Sample.turns (.localTask 0) 2)).any (fun c =>
        decide (c.state.db.logs 1 ≠ [])) = true := by
    decide +kernel
  obtain ⟨history, c, run, holds⟩ := Sample.arrives_freely passed
  exact ⟨history, c, run, of_decide_eq_true holds, log_numbers run 1⟩

/-- Two local tasks read the largest number before either has inserted a row. -/
theorem log_numbers_two_tasks : ¬∀ history c runId,
    (system Sample.ext Sample.settings).Path everything Sample.initial history c →
    c.state.db.Numbered runId ∧ Pageable c.state.db runId := by
  intro claim
  have passed : (Sample.run (fun _ _ => true) (Sample.forkQueued ++ Sample.startLogging 0 ++ Sample.startLogging 1 ++
      Sample.turns (.localTask 0) 1 ++ Sample.turns (.localTask 1) 1)).any (fun c =>
        decide (¬((c.state.db.logs 1).map (·.sequence)).Nodup)) = true := by
    decide +kernel
  obtain ⟨history, c, run, holds⟩ := Sample.arrives_freely passed
  exact of_decide_eq_true holds (claim history c 1 run).1

end PostJen.Server
