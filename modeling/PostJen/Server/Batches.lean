import PostJen.Server.Agreement
import PostJen.Server.Logs
import PostJen.Server.Parity

/-! The log batches of agents.

`report_logs` inserts the entries of a batch one statement at a time. The first
refused entry ends the request; what stood before it in the batch has been
inserted by then.
-/

set_option autoImplicit false

open PostJen.Foundations PostJen.Core

namespace PostJen.Server

def Db.logRows (db : Db) : List RunLog := db.runLogs.rows.map Prod.snd

def batchRows (runId nodeRunId last : Nat) (now : Timestamp) (entries : List (String × String)) : List RunLog :=
  (numbered last entries).map fun entry => ⟨runId, some nodeRunId, entry.2.1, entry.1, entry.2.2, now⟩

/-- The response is OK and the entries follow the last row of the run, or it is an error and no row is added. -/
def AllOrNothing (payload : ReportLogsRequest) (s : State) (outcome : Except ApiError Answer) (s' : State) : Prop :=
  (outcome = .ok (ok .empty) ∧ ∃ node, s.db.nodeRuns.find payload.nodeRunId = some node ∧
    s'.db.logRows = s.db.logRows ++
      batchRows node.jobRunId payload.nodeRunId (s.db.lastSequence node.jobRunId) s.now payload.logs) ∨
  (∃ why, outcome = .error why) ∧ s'.db.runLogs = s.db.runLogs

/-- The request comes from an agent that is online and names a node run that is there. -/
structure Admitted (ext : External) (s : State) (headers : Headers) (payload : ReportLogsRequest) : Prop where
  agent : ∃ token agentId agent, bearer headers = some token ∧ s.db.agents.find agentId = some agent ∧
    agent.tokenHash = ext.sha256Hex token ∧ agent.status = .online
  node : s.db.hasNode payload.nodeRunId = true

def Recordable (entry : String × String) : Prop := entry.1 ∈ ["stdout", "stderr", "system"]

def Torn (entries : List (String × String)) : Prop :=
  ∃ first rest, entries = first :: rest ∧ Recordable first ∧ ∃ entry ∈ rest, ¬Recordable entry

def Divisible (entries : List (String × String)) : Prop :=
  ∃ first rest, entries = first :: rest ∧ Recordable first ∧ rest ≠ []

/-- When a batch is all or nothing: if only the CHECK can refuse an entry, and if any statement can fail. -/
structure BatchAtomic (ext : External) (s : State) (headers : Headers) (payload : ReportLogsRequest) : Prop where
  checked : (∀ outcome s', Handles ext (reportLogs ext headers payload) s outcome s' →
      AllOrNothing payload s outcome s') ↔ ¬(Admitted ext s headers payload ∧ Torn payload.logs)
  failing : (∀ outcome s', ((reportLogs ext headers payload).attempt (F := Empty)).Returns (fun op : Op => op.exec ext)
      s outcome s' → AllOrNothing payload s outcome s') ↔ ¬(Admitted ext s headers payload ∧ Divisible payload.logs)

namespace Batches

variable {ext : External} {s s' : State} {exec : (op : Op) → State → op.Reply → State → Prop}
  {headers : Headers} {payload : ReportLogsRequest} {runId nodeRunId : Nat}

/-! ## Executions -/

theorem anyOne_ne_nil {B : Type} (rows : List B) : anyOne rows ≠ [] := by
  cases rows with
  | nil => exact List.cons_ne_nil _ _
  | cons row rest =>
    rw [Parity.anyOne_some (List.cons_ne_nil _ _)]
    exact List.cons_ne_nil _ _

def alone (exec : (op : Op) → State → op.Reply → State → Prop) : Discipline Sig State where
  exec := exec
  rely before after := after = before
  guarantee _ _ _ := True

def failing (ext : External) (chosen : Op → Prop) (op : Op) (before : State) (reply : op.Reply) (after : State) : Prop :=
  (chosen op ∧ op.run ext (.fail "disk I/O error") before = some (reply, after)) ∨
    ¬chosen op ∧ op.unfailing ext before reply after

theorem unfailing_exec {op : Op} {reply : op.Reply} (ran : op.unfailing ext s reply s') : op.exec ext s reply s' := by
  obtain ⟨choice, -, ran⟩ := ran
  exact ⟨choice, ran⟩

theorem failing_exec {chosen : Op → Prop} {op : Op} {reply : op.Reply} (ran : failing ext chosen op s reply s') :
    op.exec ext s reply s' := by
  rcases ran with ⟨-, ran⟩ | ⟨-, ran⟩
  · exact ⟨_, ran⟩
  · exact unfailing_exec ran

theorem failing_total {new : NewLog} (op : Op) (s : State) :
    ∃ reply s', failing ext (fun op => op = .write (.log new)) op s reply s' := by
  by_cases chosen : op = .write (.log new)
  · subst chosen
    exact ⟨_, s, .inl ⟨rfl, rfl⟩⟩
  · obtain ⟨reply, s', ran⟩ := Parity.unfailing_total op s
    exact ⟨reply, s', .inr ⟨chosen, ran⟩⟩

/-! ## The loop over the entries -/

theorem apply_log (present : Present runId nodeRunId s) {stream : String} (recordable : stream ∈ ["stdout", "stderr", "system"])
    (sequence : Nat) (content : String) :
    (Write.log ⟨runId, nodeRunId, stream, sequence, content⟩).apply s.now s.db = .ok (s.db.runLogs.next,
      { s.db with runLogs := s.db.runLogs.insert (NewLog.row ⟨runId, nodeRunId, stream, sequence, content⟩ s.now) }) := by
  simp only [Write.apply, recordable, not_true_eq_false, if_false, present.run, present.node, Bool.not_true, Bool.or_self,
    Bool.false_eq_true]

theorem log_cases (sound : ∀ op s reply s', exec op s reply s' → op.exec ext s reply s') {blamed : String × String → Prop}
    (blames : ∀ s reply s' new, Present new.jobRunId new.nodeRunId s → exec (.write (.log new)) s (.error reply) s' →
      blamed (new.stream, new.content))
    (present : Present runId nodeRunId s) {entry : String × String} {sequence : Nat} {reply : Except SqlError Nat}
    (ran : exec (.write (.log ⟨runId, nodeRunId, entry.1, sequence, entry.2⟩)) s reply s') :
    ((∃ why, reply = .error why) ∧ s' = s ∧ blamed entry) ∨
      Recordable entry ∧ (∃ id, reply = .ok id) ∧ Present runId nodeRunId s' ∧ s'.now = s.now ∧
        s'.db.logRows = s.db.logRows ++ [⟨runId, some nodeRunId, entry.1, sequence, entry.2, s.now⟩] := by
  rcases exec_write (sound _ _ _ _ ran) with ⟨⟨why, rfl⟩, rfl⟩ | ⟨affected, db, applied, rfl, rfl⟩
  · exact .inl ⟨⟨why, rfl⟩, rfl, blames _ _ _ _ present ran⟩
  · have recordable : Recordable entry := by
      by_contra refused
      simp only [Write.apply, if_pos (show entry.1 ∉ ["stdout", "stderr", "system"] from refused)] at applied
      cases applied
    rw [apply_log present recordable] at applied
    cases applied
    refine .inr ⟨recordable, ⟨_, rfl⟩, ⟨present.run, present.node⟩, rfl, ?_⟩
    simp only [Db.logRows, Serial.rows_insert, List.map_append, List.map_cons, List.map_nil, NewLog.row]

/-- What the loop leaves: all entries, nothing, or the first entry and something to blame after it. -/
theorem holds_recordLogs (sound : ∀ op s reply s', exec op s reply s' → op.exec ext s reply s')
    {blamed : String × String → Prop}
    (blames : ∀ s reply s' new, Present new.jobRunId new.nodeRunId s → exec (.write (.log new)) s (.error reply) s' →
      blamed (new.stream, new.content))
    (entries : List (String × String)) (last : Nat) (present : Present runId nodeRunId s) :
    (recordLogs runId nodeRunId last entries : Proc Sig ApiError Unit).Holds (alone exec)
      (fun _ now => now.db.logRows = s.db.logRows ++ batchRows runId nodeRunId last s.now entries)
      (fun _ now => (∃ entry ∈ entries, blamed entry) ∧ (now = s ∨ ∃ first rest, entries = first :: rest ∧
        Recordable first ∧ ∃ entry ∈ rest, blamed entry)) s := by
  induction entries generalizing s last with
  | nil => exact (List.append_nil _).symm
  | cons entry rest ih =>
    rintro s rfl reply after ran
    refine ⟨trivial, ?_⟩
    rcases log_cases sound blames present ran with ⟨⟨why, rfl⟩, rfl, blamed⟩ |
      ⟨recordable, ⟨id, rfl⟩, there, same, inserted⟩
    · -- the refused entry ends the batch: as the first it leaves the state as it was
      exact ⟨⟨entry, List.mem_cons_self, blamed⟩, .inl rfl⟩
    · refine (ih (last + 1) there).mono ?_ ?_
      · intro _ now appended
        rw [appended, inserted, same, List.append_assoc]
        rfl
      · rintro _ now ⟨⟨other, member, blamed⟩, -⟩
        exact ⟨⟨other, List.mem_cons_of_mem _ member, blamed⟩,
          .inr ⟨entry, rest, rfl, recordable, other, member, blamed⟩⟩

def newLogs (runId nodeRunId last : Nat) (entries : List (String × String)) : List NewLog :=
  (numbered last entries).map fun entry => ⟨runId, nodeRunId, entry.2.1, entry.1, entry.2.2⟩

theorem holds_refused (sound : ∀ op s reply s', exec op s reply s' → op.exec ext s reply s') {refused : NewLog → Prop}
    (refuses : ∀ new s reply s', refused new → exec (.write (.log new)) s reply s' → ∃ why, reply = .error why)
    (entries : List (String × String)) (last : Nat) (hopeless : ∃ new ∈ newLogs runId nodeRunId last entries, refused new) :
    (recordLogs runId nodeRunId last entries : Proc Sig ApiError Unit).Holds (alone exec) (fun _ _ => False)
      (fun _ now => s.db.logRows.length ≤ now.db.logRows.length) s := by
  -- the loop comes to the refused entry, unless an earlier statement fails
  induction entries generalizing s last with
  | nil =>
    obtain ⟨_, never, -⟩ := hopeless
    cases never
  | cons entry rest ih =>
    rintro s rfl reply after ran
    refine ⟨trivial, ?_⟩
    have grows : s.db.logRows.length ≤ after.db.logRows.length := by
      rcases exec_runLogs (sound _ _ _ _ ran) with same | ⟨_, -, inserted⟩
      · rw [Db.logRows, Db.logRows, same]
      · rw [Db.logRows, Db.logRows, inserted, Serial.rows_insert, List.map_append, List.length_append]
        exact Nat.le_add_right _ _
    obtain ⟨new, member, isRefused⟩ := hopeless
    cases reply with
    | error why => exact grows
    | ok id =>
      rcases List.mem_cons.mp member with rfl | member
      · obtain ⟨why, impossible⟩ := refuses _ _ _ _ isRefused ran
        cases impossible
      · exact (ih (last + 1) ⟨new, member, isRefused⟩).mono (fun _ _ never => never) fun _ _ more => grows.trans more

theorem holds_divided (sound : ∀ op s reply s', exec op s reply s' → op.exec ext s reply s') {refused : NewLog → Prop}
    (refuses : ∀ new s reply s', refused new → exec (.write (.log new)) s reply s' → ∃ why, reply = .error why)
    {entry : String × String} {rest : List (String × String)} {last : Nat}
    (records : ∀ reply s', exec (.write (.log ⟨runId, nodeRunId, entry.1, last + 1, entry.2⟩)) s reply s' →
      ∃ id, reply = .ok id)
    (hopeless : ∃ new ∈ newLogs runId nodeRunId (last + 1) rest, refused new) :
    (recordLogs runId nodeRunId last (entry :: rest) : Proc Sig ApiError Unit).Holds (alone exec) (fun _ _ => False)
      (fun _ now => s.db.logRows.length < now.db.logRows.length) s := by
  rintro s rfl reply after ran
  refine ⟨trivial, ?_⟩
  obtain ⟨id, rfl⟩ := records reply after ran
  have inserted := exec_logged (sound _ _ _ _ ran)
  have grown : after.db.logRows.length = s.db.logRows.length + 1 := by
    rw [Db.logRows, Db.logRows, inserted, Serial.rows_insert, List.map_append, List.length_append]
    rfl
  refine (holds_refused sound refuses rest (last + 1) hopeless).mono (fun _ _ never => never) fun _ now more => ?_
  exact Nat.lt_of_lt_of_le (by omega) more

/-! ## The handler -/

theorem holds_reportLogs (sound : ∀ op s reply s', exec op s reply s' → op.exec ext s reply s') (linked : s.db.Linked)
    {post : Answer → State → Prop} {failed : ApiError → State → Prop}
    (stops : ¬(Admitted ext s headers payload ∧ ∀ query s reply s', exec (.select query) s reply s' →
      (Op.select query).unfailing ext s reply s') → ∀ why, failed why s)
    (continues : ∀ node, Admitted ext s headers payload → s.db.nodeRuns.find payload.nodeRunId = some node →
      Present node.jobRunId payload.nodeRunId s →
      (recordLogs node.jobRunId payload.nodeRunId (s.db.lastSequence node.jobRunId) payload.logs : Proc Sig ApiError Unit).Holds
        (alone exec) (fun _ => post (ok .empty)) failed s) :
    (reportLogs ext headers payload).Holds (alone exec) post failed s := by
  -- A query that has an answer only fails for a reason outside the server.
  have failure : ∀ (query : Select) (why : SqlError), query.answers s.db ≠ [] →
      exec (.select query) s (.error why) s → ∀ why, failed why s := by
    intro query why answers ran
    refine stops fun both => ?_
    obtain ⟨-, row, -, impossible⟩ := Parity.unfailing_select (both.2 _ _ _ _ ran) answers
    cases impossible
  unfold reportLogs authenticateAgent
  split
  · rename_i absent
    refine stops (fun both => ?_) _
    obtain ⟨token, _, _, given, -⟩ := both.1.agent
    cases absent.symm.trans given
  · rename_i token given
    rintro s rfl reply after ran
    refine ⟨trivial, ?_⟩
    obtain ⟨rfl, ⟨why, rfl⟩ | ⟨found, member, rfl⟩⟩ := exec_select (sound _ _ _ _ ran)
    · exact failure (.agentByToken (ext.sha256Hex token)) why (anyOne_ne_nil _) ran _
    · cases found with
      | none =>
        refine stops (fun both => ?_) _
        obtain ⟨token', agentId, agent, given', found, named, online⟩ := both.1.agent
        cases given.symm.trans given'
        have inside : (agentId, agent) ∈ after.db.agents.rows.filter fun entry =>
            entry.2.tokenHash = ext.sha256Hex token && entry.2.status = .online :=
          List.mem_filter.mpr ⟨Table.find_eq_some.mp found, by simp [named, online]⟩
        have listed : agentId ∈ (after.db.agents.rows.filter fun entry =>
            entry.2.tokenHash = ext.sha256Hex token && entry.2.status = .online).map Prod.fst :=
          List.mem_map_of_mem inside
        simp only [Select.answers] at member
        rw [Parity.anyOne_some (List.ne_nil_of_mem listed)] at member
        simp at member
      | some agentId =>
        obtain ⟨⟨id, agent⟩, inside, rfl⟩ := List.mem_map.mp (mem_anyOne member)
        obtain ⟨inside, fits⟩ := List.mem_filter.mp inside
        simp only [Bool.and_eq_true, decide_eq_true_eq] at fits
        have agentFound := Table.find_eq_some.mpr inside
        rintro s rfl reply after ran
        refine ⟨trivial, ?_⟩
        obtain ⟨rfl, ⟨why, rfl⟩ | ⟨run, member, rfl⟩⟩ := exec_select (sound _ _ _ _ ran)
        · exact failure (.nodeJobRun payload.nodeRunId) why (List.cons_ne_nil _ _) ran _
        · cases run with
          | none =>
            refine stops (fun both => ?_) _
            have absent := Option.map_eq_none_iff.mp (List.mem_singleton.mp member).symm
            have there := both.1.node
            rw [Db.hasNode, absent] at there
            cases there
          | some runId =>
            obtain ⟨node, here, rfl⟩ := Option.map_eq_some_iff.mp (List.mem_singleton.mp member).symm
            rintro s rfl reply after ran
            refine ⟨trivial, ?_⟩
            obtain ⟨rfl, ⟨why, rfl⟩ | ⟨last, member, rfl⟩⟩ := exec_select (sound _ _ _ _ ran)
            · exact failure (.maxSequence node.jobRunId) why (List.cons_ne_nil _ _) ran _
            · rw [mem_maxSequence member]
              have hasNode : after.db.hasNode payload.nodeRunId = true := by
                rw [Db.hasNode, here]
                rfl
              refine (Proc.holds_bind (recordLogs node.jobRunId payload.nodeRunId (after.db.lastSequence node.jobRunId)
                payload.logs) _ after).mpr (continues node
                  ⟨⟨token, id, agent, given, agentFound, fits.1, fits.2⟩, hasNode⟩ here ⟨linked _ _ here, hasNode⟩)

/-- A batch without an entry to blame after a recorded first one is all or nothing. -/
theorem all_or_nothing (sound : ∀ op s reply s', exec op s reply s' → op.exec ext s reply s') (linked : s.db.Linked)
    {blamed : String × String → Prop}
    (blames : ∀ s reply s' new, Present new.jobRunId new.nodeRunId s → exec (.write (.log new)) s (.error reply) s' →
      blamed (new.stream, new.content))
    (whole : ¬(Admitted ext s headers payload ∧ ∃ first rest, payload.logs = first :: rest ∧ Recordable first ∧
      ∃ entry ∈ rest, blamed entry)) {outcome : Except ApiError Answer}
    (returned : ((reportLogs ext headers payload).attempt (F := Empty)).Returns exec s outcome s') :
    AllOrNothing payload s outcome s' := by
  have holds : (reportLogs ext headers payload).Holds (alone exec)
      (fun answer now => AllOrNothing payload s (.ok answer) now) (fun _ now => now.db.runLogs = s.db.runLogs) s := by
    refine holds_reportLogs sound linked (fun _ _ => rfl) fun node admitted found present => ?_
    refine (holds_recordLogs sound blames payload.logs _ present).mono ?_ ?_
    · exact fun _ now appended => .inl ⟨rfl, node, found, appended⟩
    · rintro _ now ⟨-, rfl | torn⟩
      · rfl
      · exact absurd ⟨admitted, torn⟩ whole
  have ended := holds.returns (fun _ => rfl) returned
  cases outcome with
  | ok answer => exact ended.1 answer rfl
  | error why => exact .inr ⟨⟨why, rfl⟩, ended.2 why rfl⟩

theorem not_all_or_nothing (sound : ∀ op s reply s', exec op s reply s' → op.exec ext s reply s') (linked : s.db.Linked)
    (total : ∀ op s, ∃ reply s', exec op s reply s') (admitted : Admitted ext s headers payload)
    (reads : ∀ query s reply s', exec (.select query) s reply s' → (Op.select query).unfailing ext s reply s')
    (divided : ∀ node, s.db.nodeRuns.find payload.nodeRunId = some node → Present node.jobRunId payload.nodeRunId s →
      (recordLogs node.jobRunId payload.nodeRunId (s.db.lastSequence node.jobRunId) payload.logs : Proc Sig ApiError Unit).Holds
        (alone exec) (fun _ _ => False) (fun _ now => s.db.logRows.length < now.db.logRows.length) s) :
    ∃ outcome s', ((reportLogs ext headers payload).attempt (F := Empty)).Returns exec s outcome s' ∧
      ¬AllOrNothing payload s outcome s' := by
  obtain ⟨outcome, s', returned⟩ := Proc.returns_exists total (reportLogs ext headers payload) s
  refine ⟨outcome, s', returned, ?_⟩
  have holds : (reportLogs ext headers payload).Holds (alone exec) (fun _ _ => False)
      (fun _ now => s.db.logRows.length < now.db.logRows.length) s :=
    holds_reportLogs sound linked (fun never => absurd ⟨admitted, reads⟩ never)
      fun node _ found present => divided node found present
  have ended := holds.returns (fun _ => rfl) returned
  rintro (⟨rfl, -⟩ | ⟨⟨why, rfl⟩, same⟩)
  · exact ended.1 _ rfl
  · have grown := ended.2 why rfl
    rw [Db.logRows, Db.logRows, same] at grown
    exact absurd grown (lt_irrefl _)

theorem mem_newLogs {entries : List (String × String)} {entry : String × String} (member : entry ∈ entries) (last : Nat) :
    ∃ new ∈ newLogs runId nodeRunId last entries, new.stream = entry.1 := by
  induction entries generalizing last with
  | nil => cases member
  | cons head rest ih =>
    rcases List.mem_cons.mp member with rfl | member
    · exact ⟨_, List.mem_cons_self, rfl⟩
    · obtain ⟨new, listed, same⟩ := ih member (last + 1)
      exact ⟨new, List.mem_cons_of_mem _ listed, same⟩

theorem unfailing_log {new : NewLog} (present : Present new.jobRunId new.nodeRunId s) {reply : Except SqlError Nat}
    (ran : (Op.write (.log new)).unfailing ext s reply s') :
    (∃ id, reply = .ok id) ↔ Recordable (new.stream, new.content) := by
  obtain ⟨choice, proper, ran⟩ := ran
  cases choice with
  | answer index =>
    by_cases recordable : Recordable (new.stream, new.content)
    · simp only [Op.run, apply_log present recordable] at ran
      cases ran
      exact ⟨fun _ => recordable, fun _ => ⟨_, rfl⟩⟩
    · simp only [Op.run, Write.apply, if_pos (show new.stream ∉ ["stdout", "stderr", "system"] from recordable)] at ran
      cases ran
      exact ⟨by rintro ⟨_, ⟨⟩⟩, fun recorded => absurd recorded recordable⟩
  | fail text => exact absurd rfl (proper text)
  | _ => cases ran

theorem unfailing_refused {new : NewLog} (refused : ¬Recordable (new.stream, new.content)) {reply : Except SqlError Nat}
    (ran : (Op.write (.log new)).unfailing ext s reply s') : ∃ why, reply = .error why := by
  obtain ⟨choice, proper, ran⟩ := ran
  cases choice with
  | answer index =>
    simp only [Op.run, Write.apply, if_pos (show new.stream ∉ ["stdout", "stderr", "system"] from refused)] at ran
    cases ran
    exact ⟨_, rfl⟩
  | fail text => exact absurd rfl (proper text)
  | _ => cases ran

end Batches

theorem batch_atomic {ext : External} {settings : Settings} {files : String → Option String} {clock : Nat} {c : Config}
    (run : (system ext settings).Reaches everything (Config.initial ext settings files clock) c) (headers : Headers)
    (payload : ReportLogsRequest) : BatchAtomic ext c.state headers payload where
  checked := by
    have linked := reaches_linked run
    have sound : ∀ (op : Op) s (reply : op.Reply) s', op.unfailing ext s reply s' → op.exec ext s reply s' :=
      fun _ _ _ _ => Batches.unfailing_exec
    have refuses : ∀ (new : NewLog) s reply s', ¬Recordable (new.stream, new.content) →
        (Op.write (.log new)).unfailing ext s reply s' → ∃ why, reply = .error why :=
      fun _ _ _ _ refused ran => Batches.unfailing_refused refused ran
    constructor
    · rintro law ⟨admitted, first, rest, split, recordable, entry, member, refused⟩
      obtain ⟨outcome, s', returned, torn⟩ := Batches.not_all_or_nothing sound linked Parity.unfailing_total admitted
        (fun _ _ _ _ ran => ran) fun node found present => by
          rw [split]
          refine Batches.holds_divided sound refuses (fun reply s' ran => (Batches.unfailing_log present ran).mpr recordable) ?_
          obtain ⟨new, listed, same⟩ := Batches.mem_newLogs member (c.state.db.lastSequence node.jobRunId + 1)
          exact ⟨new, listed, by rw [Recordable, same]; exact refused⟩
      exact torn (law outcome s' returned)
    · intro whole outcome s' returned
      have blames : ∀ s why s' (new : NewLog), Present new.jobRunId new.nodeRunId s →
          (Op.write (.log new)).unfailing ext s (.error why) s' → ¬Recordable (new.stream, new.content) := by
        intro s why s' new present ran recordable
        obtain ⟨id, impossible⟩ := (Batches.unfailing_log present ran).mpr recordable
        cases impossible
      exact Batches.all_or_nothing sound linked blames whole returned
  failing := by
    have linked := reaches_linked run
    constructor
    · rintro law ⟨admitted, first, rest, split, recordable, more⟩
      obtain ⟨second, rest, rfl⟩ := List.exists_cons_of_ne_nil more
      obtain ⟨node, found⟩ := Option.isSome_iff_exists.mp admitted.node
      -- The execution in which the second INSERT fails.
      let doomed : NewLog := ⟨node.jobRunId, payload.nodeRunId, second.1,
        c.state.db.lastSequence node.jobRunId + 1 + 1, second.2⟩
      let chosen : Op → Prop := fun op => op = .write (.log doomed)
      have sound : ∀ (op : Op) s (reply : op.Reply) s', Batches.failing ext chosen op s reply s' →
          op.exec ext s reply s' := fun _ _ _ _ => Batches.failing_exec
      have refuses : ∀ (new : NewLog) s reply s', new = doomed →
          Batches.failing ext chosen (.write (.log new)) s reply s' → ∃ why, reply = .error why := by
        rintro new s reply s' rfl (⟨-, ran⟩ | ⟨other, -⟩)
        · cases ran
          exact ⟨_, rfl⟩
        · exact absurd rfl other
      have spared : ∀ (op : Op) s (reply : op.Reply) s', op ≠ .write (.log doomed) →
          Batches.failing ext chosen op s reply s' → op.unfailing ext s reply s' := by
        rintro op s reply s' other (⟨here, -⟩ | ⟨-, ran⟩)
        · exact absurd here other
        · exact ran
      obtain ⟨outcome, s', returned, torn⟩ := Batches.not_all_or_nothing sound linked Batches.failing_total admitted
        (fun query s reply s' ran => spared _ s reply s' (fun same => by cases same) ran) fun node' found' present => by
          cases found.symm.trans found'
          rw [split]
          refine Batches.holds_divided sound refuses (fun reply s' ran => ?_) ⟨doomed, List.mem_cons_self, rfl⟩
          refine (Batches.unfailing_log present (spared _ _ _ _ (fun same => ?_) ran)).mpr recordable
          have sequence : c.state.db.lastSequence node.jobRunId + 1 = c.state.db.lastSequence node.jobRunId + 1 + 1 := by
            injection same with same
            injection same with same
            exact congrArg NewLog.sequence same
          omega
      exact torn (law outcome s' (Proc.returns_mono sound returned))
    · intro whole outcome s' returned
      let any : String × String → Prop := fun _ => True
      have blames : ∀ s why s' (new : NewLog), Present new.jobRunId new.nodeRunId s →
          (Op.write (.log new)).exec ext s (.error why) s' → any (new.stream, new.content) := fun _ _ _ _ _ _ => trivial
      refine Batches.all_or_nothing (fun _ _ _ _ ran => ran) linked blames ?_ returned
      rintro ⟨admitted, first, rest, split, recordable, entry, member, -⟩
      exact whole ⟨admitted, first, rest, split, recordable, List.ne_nil_of_mem member⟩

/-! ## Batches of a remote node -/

def Op.answeredBy (ext : External) (op : Op) (choice : Choice) (s : State) : Option (op.Reply × State) :=
  match choice with
  | .answer index => op.run ext (.answer index) s
  | _ => none

theorem Batches.answered_handles {ext : External} {program : Proc Sig ApiError Answer} {choices : List Choice}
    {s s' : State} {outcome : Except ApiError Answer}
    (played : program.play (fun op : Op => op.answeredBy ext) choices s = some (outcome, s')) :
    Handles ext program s outcome s' := by
  refine Proc.returns_mono ?_ (Proc.play_returns played)
  rintro op before reply after ⟨choice, ran⟩
  cases choice with
  | answer index => exact ⟨.answer index, by rintro _ ⟨⟩, ran⟩
  | _ => cases ran

theorem batch_atomic_remote : ∃ c, (system Sample.ext Sample.settings).Reaches everything Sample.initial c ∧
    c.state.db.hasNode 1 = true ∧ ∀ outcome s',
      Handles Sample.ext (reportLogs Sample.ext Sample.headers ⟨1, [("stdout", "built"), ("stderr", "warned")]⟩) c.state
        outcome s' → AllOrNothing ⟨1, [("stdout", "built"), ("stderr", "warned")]⟩ c.state outcome s' := by
  have passed : (Sample.run (fun _ _ => true) Sample.remoteQueued).any (fun c => c.state.db.hasNode 1) = true := by
    decide +kernel
  obtain ⟨c, followed, node⟩ := (Option.any_eq_true _ _).mp passed
  refine ⟨c, Sample.reached_freely followed, node, (batch_atomic (Sample.reached_freely followed) _ _).checked.mpr ?_⟩
  rintro ⟨-, first, rest, split, -, entry, member, refused⟩
  cases split
  cases List.mem_singleton.mp member
  exact refused (by simp [Recordable])

/-- The second entry names no stream: the first one stays. -/
theorem batch_torn : ¬∀ ext settings files clock c headers payload outcome s',
    (system ext settings).Reaches everything (Config.initial ext settings files clock) c →
    Handles ext (reportLogs ext headers payload) c.state outcome s' → AllOrNothing payload c.state outcome s' := by
  intro claim
  have passed : (Sample.run (fun _ _ => true) Sample.remoteQueued).any (fun c =>
      ((reportLogs Sample.ext Sample.headers ⟨1, [("stdout", "built"), ("debug", "traced")]⟩).play
        (fun op : Op => op.answeredBy Sample.ext) (List.replicate 5 (.answer 0)) c.state).any fun result =>
          result.1.toOption.isNone && decide (result.2.db.logRows.length ≠ c.state.db.logRows.length)) = true := by
    decide +kernel
  obtain ⟨c, followed, passed⟩ := (Option.any_eq_true _ _).mp passed
  obtain ⟨⟨outcome, s'⟩, played, passed⟩ := (Option.any_eq_true _ _).mp passed
  obtain ⟨refused, grown⟩ := Bool.and_eq_true_iff.mp passed
  rcases claim _ _ _ _ c _ _ outcome s' (Sample.reached_freely followed) (Batches.answered_handles played) with
    ⟨rfl, -⟩ | ⟨-, same⟩
  · cases refused
  · refine of_decide_eq_true grown ?_
    show s'.db.logRows.length = _
    rw [Db.logRows, Db.logRows, same]

end PostJen.Server
