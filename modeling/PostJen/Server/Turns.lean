import PostJen.Server.Recording

/-! What one statement does to a status and its events.

For each job run or node run a statement changes the status, records a change,
does both in a transaction, or leaves the row and its events alone.
-/

set_option autoImplicit false

open PostJen.Foundations PostJen.Core

namespace PostJen.Server

/-! ## Statuses and events in the tables -/

def RunEvent.subject (event : RunEvent) : Option Subject :=
  match event.scope with
  | .job => some (.job event.jobRunId)
  | .node => event.nodeRunId.map .node

def RunEvent.transition (event : RunEvent) : Transition := (event.fromStatus, event.toStatus)

def Db.transitions (db : Db) (subject : Subject) : List Transition :=
  ((db.runEvents.rows.map Prod.snd).filter fun event => event.subject = some subject).map RunEvent.transition

def Db.status (db : Db) : Subject → Option String
  | .job runId => (db.jobRuns.find runId).map (·.status.text)
  | .node nodeRunId => (db.nodeRuns.find nodeRunId).map (·.status.text)

/-- Where the recorded changes start: a node run is inserted as pending without an event. -/
def Subject.origin : Subject → Option String
  | .job _ => none
  | .node _ => some NodeStatus.pending.text

def Db.known (db : Db) (subject : Subject) : Option String := (db.status subject).or subject.origin

theorem NodeStatus.text_injective : Function.Injective NodeStatus.text := by
  intro first second same
  cases first <;> cases second <;> first | rfl | (revert same; decide)

theorem JobStatus.text_injective : Function.Injective JobStatus.text := by
  intro first second same
  cases first <;> cases second <;> first | rfl | (revert same; decide)

theorem NodeChange.records_apply {change : NodeChange} {t : Transition} {node : NodeRun} (now : Timestamp)
    (names : change.records = some t) (finds : some node.status.text = t.1) :
    some (change.apply now node).status.text = t.2 := by
  cases change with
  | assign _ => cases names
  | startQueued =>
    cases names
    have queued : node.status = .queued := NodeStatus.text_injective (Option.some.inj finds)
    rw [apply, if_pos queued]
    rfl
  | _ =>
    cases names
    rfl

theorem JobChange.records_apply {change : JobChange} {read : Option JobStatus} {t : Transition} {run : JobRun}
    (now : Timestamp) (names : change.records read = some t) (finds : some run.status.text = t.1) :
    some (change.apply now run).status.text = t.2 := by
  cases change with
  | running fromStatus =>
    cases names
    have same : run.status = fromStatus := JobStatus.text_injective (Option.some.inj finds)
    rw [apply, if_pos same]
    rfl
  | finished _ _ =>
    cases names
    rfl
  | failBeforeStart _ =>
    cases names
    rfl
  | _ => cases names

theorem NodeChange.records_named {change : NodeChange} {t : Transition} (names : change.records = some t) :
    t.1 ≠ none ∧ t.2 ≠ none := by
  cases change <;> cases names <;> exact ⟨nofun, nofun⟩

variable {subject : Subject} {db db' : Db}

private theorem transitions_append {event : RunEvent} (inserted : db'.runEvents = db.runEvents.insert event) :
    db'.transitions subject = db.transitions subject ++
      ([event].filter fun event => event.subject = some subject).map RunEvent.transition := by
  have rows : db'.runEvents.rows.map Prod.snd = db.runEvents.rows.map Prod.snd ++ [event] := by
    rw [inserted]
    exact List.map_append
  rw [Db.transitions, rows, List.filter_append, List.map_append]
  rfl

theorem transitions_insert {event : RunEvent} (inserted : db'.runEvents = db.runEvents.insert event)
    (about : event.subject = some subject) :
    db'.transitions subject = db.transitions subject ++ [event.transition] := by
  rw [transitions_append inserted, List.filter_eq_self.mpr (by simpa using about)]
  rfl

theorem transitions_other {event : RunEvent} (inserted : db'.runEvents = db.runEvents.insert event)
    (about : event.subject ≠ some subject) : db'.transitions subject = db.transitions subject := by
  rw [transitions_append inserted, List.filter_eq_nil_iff.mpr (by simpa using about)]
  exact List.append_nil _

theorem transitions_job {runId : Nat} (fromStatus : Option JobStatus) (toStatus : JobStatus) (message : Option String)
    {now : Timestamp} (inserted : db'.runEvents = db.runEvents.insert ((jobEvent runId fromStatus toStatus message).row now)) :
    db'.transitions (.job runId) =
      db.transitions (.job runId) ++ [(fromStatus.map (·.text), some toStatus.text)] :=
  transitions_insert inserted rfl

theorem transitions_same (same : db'.runEvents = db.runEvents) : db'.transitions subject = db.transitions subject := by
  rw [Db.transitions, Db.transitions, same]

theorem status_same (jobs : db'.jobRuns = db.jobRuns) (nodes : db'.nodeRuns = db.nodeRuns) :
    db'.status subject = db.status subject := by
  cases subject <;> simp only [Db.status, jobs, nodes]

structure Stays (db db' : Db) (subject : Subject) : Prop where
  known : db'.known subject = db.known subject
  kept : db'.status subject = none → db.status subject = none
  events : db'.transitions subject = db.transitions subject

theorem Stays.of (status : db'.status subject = db.status subject)
    (events : db'.transitions subject = db.transitions subject) : Stays db db' subject where
  known := by rw [Db.known, Db.known, status]
  kept := by
    rw [status]
    exact id
  events := events

/-! ## What one statement does -/

def Op.updates : Op → Option Subject
  | .write (.updateNode id _) => some (.node id)
  | .write (.updateJob id _) => some (.job id)
  | .transact (.cancelRun id _) => some (.job id)
  | _ => none

/-- The event of a request for cancellation, which is written together with its UPDATE. -/
def cancels (fromStatus : JobStatus) : Transition := JobStatus.leads fromStatus .cancelRequested

def Config.owes (c : Config) (slot : Slot) : Option (Subject × Transition) := Server.owes (c.threads slot).code

def Op.speaks : Op → Bool
  | .write (.event _) | .transact (.createRun _) | .transact (.cancelRun _ _) => true
  | _ => false

/-- What an operation of a task means for one subject. -/
inductive Turn (subject : Subject) (op : Op) (before after : Option (Subject × Transition)) (db db' : Db) : Prop where
  | idle (owed : ∀ t, before ≠ some (subject, t)) (owing : ∀ t, after ≠ some (subject, t))
      (stays : Stays db db' subject)
  | change (t : Transition) (updates : op.updates = some subject) (owed : before = none)
      (owing : after = some (subject, t)) (named : t.1 ≠ none ∧ t.2 ≠ none)
      (effect : db.status subject = t.1 → db'.status subject = t.2)
      (events : db'.transitions subject = db.transitions subject)
  | record (t : Transition) (speaks : op.speaks = true) (owed : before = some (subject, t)) (owing : after = none)
      (status : db'.status subject = db.status subject)
      (events : db'.transitions subject = db.transitions subject ++ [t])
  | lose (t : Transition) (owed : before = some (subject, t)) (owing : after = none)
      (events : db'.transitions subject = db.transitions subject)
  | cancel (id : Nat) (fromStatus : JobStatus) (same : subject = .job id)
      (executed : op = .transact (.cancelRun id fromStatus)) (owed : before = none) (owing : after = none)
      (status : db'.status subject = (cancels fromStatus).2)
      (events : db'.transitions subject = db.transitions subject ++ [cancels fromStatus])
  | create (id : Nat) (same : subject = .job id) (owed : before = none) (owing : after = none)
      (absent : db.status subject = none) (status : db'.status subject = some JobStatus.queued.text)
      (events : db'.transitions subject = db.transitions subject ++ [(none, some JobStatus.queued.text)])

def Op.someReply : (op : Op) → op.Reply
  | .select _ | .write _ | .transact _ => .error .rowNotFound
  | .load _ => .error (.msg "")
  | .readFile _ | .copyFile _ _ | .writeFile _ _ => .error ""
  | .order _ => []
  | .random _ => ""
  | .clock => 0
  | .process _ => ⟨.exited none, "", ""⟩
  | .metadata _ => none

variable {ext : External} {settings : Settings} {s s' : State} {note : Note}

theorem follows_owes {thread : Thread Sig Point} (follows : recorder.Follows thread note) :
    owes thread.code = note.owed := by
  unfold Plan.Follows Thread.Holds at follows
  cases code : thread.code with
  | done point =>
    rw [code] at follows
    exact follows.symm
  | halt why => exact why.elim
  | call op rest =>
    rw [code] at follows
    obtain ⟨permitted, -⟩ := Protocol.holds_call.mp follows op.someReply
    cases op with
    | write write =>
      cases write with
      | event event => exact permitted.symm
      | updateJob id change => exact permitted.1.symm
      | _ => exact permitted.symm
    | _ => exact permitted.symm

theorem exec_runEvents {op : Op} {reply : op.Reply} (ran : op.exec ext s reply s') (mute : op.speaks = false) :
    s'.db.runEvents = s.db.runEvents := by
  cases op with
  | write write =>
    rcases exec_write ran with ⟨-, rfl⟩ | ⟨result, db, applied, -, rfl⟩
    · rfl
    · cases write with
      | event _ => cases mute
      | insertNode _ | log _ | artifact _ | agents _ =>
        simp only [Write.apply] at applied
        repeat' split at applied
        all_goals cases applied
        all_goals rfl
      | _ =>
        cases applied
        rfl
  | transact transaction =>
    rcases exec_transact ran with ⟨-, rfl⟩ | ⟨result, db, applied, -, rfl⟩
    · rfl
    · cases transaction with
      | registerJob definition =>
        simp only [Transaction.apply] at applied
        split at applied <;> cases applied <;> rfl
      | _ => cases mute
  | _ => rw [exec_reads rfl ran]

theorem exec_event {event : NewEvent} {reply : Except SqlError Nat}
    (ran : (Op.write (.event event)).exec ext s reply s') :
    s' = s ∨ ∃ row, s' = { s with db := { s.db with runEvents := s.db.runEvents.insert row } } ∧
      row.subject = event.subject ∧ row.transition = event.transition := by
  rcases exec_write ran with ⟨-, rfl⟩ | ⟨result, db, applied, -, rfl⟩
  · exact .inl rfl
  · simp only [Write.apply] at applied
    split at applied <;> cases applied
    exact .inr ⟨event.row s.now, rfl, rfl, rfl⟩

section
variable {op : Op} {reply : op.Reply}

theorem exec_events_grow (ran : op.exec ext s reply s') :
    s'.db.runEvents = s.db.runEvents ∨ ∃ row, s'.db.runEvents = s.db.runEvents.insert row := by
  cases speaks : op.speaks with
  | false => exact .inl (exec_runEvents ran speaks)
  | true =>
    cases op with
    | write write =>
      cases write with
      | event event =>
        rcases exec_event ran with rfl | ⟨row, rfl, -⟩
        · exact .inl rfl
        · exact .inr ⟨row, rfl⟩
      | _ => cases speaks
    | transact transaction =>
      rcases exec_transact ran with ⟨-, rfl⟩ | ⟨result, db, applied, -, rfl⟩
      · exact .inl rfl
      · cases transaction with
        | registerJob _ => cases speaks
        | _ =>
          simp only [Transaction.apply] at applied
          split at applied <;> cases applied
          exact .inr ⟨_, rfl⟩
    | _ => cases speaks

theorem stays_silent (ran : op.exec ext s reply s') (mute : op.speaks = false) (kind : op.updates ≠ some subject) :
    Stays s.db s'.db subject := by
  have events : s'.db.transitions subject = s.db.transitions subject := transitions_same (exec_runEvents ran mute)
  cases subject with
  | job id =>
    refine .of ?_ events
    rcases exec_jobRuns ran with same | ⟨other, change, rfl, updated⟩ | ⟨_, _, rfl, -⟩ | ⟨_, rfl, -⟩
    · simp only [Db.status, same]
    · have ne : id ≠ other := fun same => kind (by rw [same]; rfl)
      simp only [Db.status, updated, Serial.find_updateAt_ne _ _ ne]
    · cases mute
    · cases mute
  | node id =>
    rcases exec_nodeRuns ran with same | ⟨other, change, rfl, updated⟩ | ⟨new, rfl, inserted⟩
    · exact .of (by simp only [Db.status, same]) events
    · have ne : id ≠ other := fun same => kind (by rw [same]; rfl)
      exact .of (by simp only [Db.status, updated, Serial.find_updateAt_ne _ _ ne]) events
    · by_cases here : id = s.db.nodeRuns.next
      · subst here
        have fresh : s'.db.status (.node s.db.nodeRuns.next) = some NodeStatus.pending.text := by
          simp only [Db.status, inserted, Serial.find_insert, if_true]
          rfl
        refine ⟨?_, ?_, events⟩
        · rw [Db.known, Db.known, fresh, Db.status, Serial.find_next]
          rfl
        · rw [fresh]
          nofun
      · exact .of (by simp only [Db.status, inserted, Serial.find_insert, if_neg here]) events

theorem turn_event {event : NewEvent} {reply : Except SqlError Nat}
    (ran : (Op.write (.event event)).exec ext s reply s') :
    Turn subject (.write (.event event)) event.owed none s.db s'.db := by
  by_cases about : event.subject = some subject
  · have owed : event.owed = some (subject, event.transition) := by
      rw [NewEvent.owed, about]
      rfl
    rcases exec_event ran with rfl | ⟨row, rfl, same, names⟩
    · exact .lose _ owed rfl rfl
    · refine .record _ rfl owed rfl rfl ?_
      rw [← names]
      exact transitions_insert rfl (same.trans about)
  · have other : ∀ t, event.owed ≠ some (subject, t) := by
      intro t owed
      obtain ⟨found, is, same⟩ := Option.map_eq_some_iff.mp owed
      exact about (is.trans (congrArg some (Prod.mk.inj same).1))
    refine .idle other nofun ?_
    rcases exec_event ran with rfl | ⟨row, rfl, same, -⟩
    · exact .of rfl rfl
    · exact .of rfl (transitions_other rfl (by rwa [same]))

theorem turn_node {id : Nat} {change : NodeChange} {reply : Except SqlError Nat} (clear : note.owed = none)
    (ran : (Op.write (.updateNode id change)).exec ext s reply s') :
    Turn subject (.write (.updateNode id change)) note.owed
      (recording.advance (.write (.updateNode id change)) reply note).owed s.db s'.db := by
  rw [clear]
  have same : (Op.write (.updateNode id change)).updates ≠ some subject → Stays s.db s'.db subject :=
    stays_silent ran rfl
  rcases exec_updateNode ran with ⟨⟨why, rfl⟩, rfl⟩ | ⟨rfl, updated⟩
  · exact .idle nofun nofun (.of rfl rfl)
  · cases names : change.records with
    | none =>
      -- a dispatch is the one change that no event records
      have nothing : (recording.advance (.write (.updateNode id change)) (.ok 1) note).owed = none :=
        congrArg (Option.map _) names
      rw [nothing]
      refine .idle nofun nofun ?_
      by_cases here : subject = .node id
      · subst here
        refine .of ?_ (transitions_same (exec_runEvents ran rfl))
        simp only [Db.status, updated, Serial.find_updateAt_self, Option.map_map]
        cases change with
        | assign _ => rfl
        | _ => cases names
      · exact same fun equal => here (Option.some.inj equal).symm
    | some t =>
      have owing : (recording.advance (.write (.updateNode id change)) (.ok 1) note).owed = some (.node id, t) :=
        congrArg (Option.map _) names
      rw [owing]
      by_cases here : subject = .node id
      · subst here
        refine .change t rfl rfl rfl (NodeChange.records_named names) (fun finds => ?_)
          (transitions_same (exec_runEvents ran rfl))
        simp only [Db.status, updated, Serial.find_updateAt_self] at finds ⊢
        cases found : s.db.nodeRuns.find id with
        | none =>
          rw [found] at finds
          cases change <;> cases names <;> cases finds
        | some node =>
          rw [found] at finds
          exact NodeChange.records_apply s.now names finds
      · exact .idle nofun (fun _ owing => here (Prod.mk.inj (Option.some.inj owing)).1.symm)
          (same fun equal => here (Option.some.inj equal).symm)

theorem exec_updateJob {id : Nat} {change : JobChange} {reply : Except SqlError Nat}
    (ran : (Op.write (.updateJob id change)).exec ext s reply s') :
    ((∃ why, reply = .error why) ∧ s' = s) ∨
      (reply = .ok 1 ∧ s'.db.jobRuns = s.db.jobRuns.updateAt id (change.apply s.now)) := by
  rcases exec_write ran with failed | ⟨result, db, applied, rfl, rfl⟩
  · exact .inl failed
  · cases applied
    exact .inr ⟨rfl, rfl⟩

theorem turn_job {id : Nat} {change : JobChange} {reply : Except SqlError Nat}
    (permitted : recording.permits note (.write (.updateJob id change)))
    (ran : (Op.write (.updateJob id change)).exec ext s reply s') :
    Turn subject (.write (.updateJob id change)) note.owed
      (recording.advance (.write (.updateJob id change)) reply note).owed s.db s'.db := by
  obtain ⟨clear, fromStatus, toStatus, names⟩ := permitted
  rw [clear]
  rcases exec_updateJob ran with ⟨⟨why, rfl⟩, rfl⟩ | ⟨rfl, updated⟩
  · exact .idle nofun nofun (.of rfl rfl)
  · have owing : (recording.advance (.write (.updateJob id change)) (.ok 1) note).owed =
        some (.job id, JobStatus.leads fromStatus toStatus) := congrArg (Option.map _) names
    rw [owing]
    by_cases here : subject = .job id
    · subst here
      refine .change _ rfl rfl rfl ⟨nofun, nofun⟩ (fun finds => ?_) (transitions_same (exec_runEvents ran rfl))
      simp only [Db.status, updated, Serial.find_updateAt_self] at finds ⊢
      obtain ⟨run, found, same⟩ := Option.map_eq_some_iff.mp finds
      rw [found]
      exact JobChange.records_apply s.now names (congrArg some same)
    · exact .idle nofun (fun _ owing => here (Prod.mk.inj (Option.some.inj owing)).1.symm)
        (stays_silent ran rfl fun equal => here (Option.some.inj equal).symm)

theorem turn_transact {transaction : Transaction} {reply : Except SqlError transaction.Row}
    (ran : (Op.transact transaction).exec ext s reply s') :
    Turn subject (.transact transaction) none none s.db s'.db := by
  rcases exec_transact ran with ⟨-, rfl⟩ | ⟨result, db, applied, -, rfl⟩
  · exact .idle nofun nofun (.of rfl rfl)
  · cases transaction with
    | registerJob definition => exact .idle nofun nofun (stays_silent ran rfl nofun)
    | cancelRun id fromStatus =>
      simp only [Transaction.apply] at applied
      split at applied
      · cases applied
      · rename_i known
        obtain ⟨run, found⟩ : ∃ run, s.db.jobRuns.find id = some run :=
          Option.ne_none_iff_exists'.mp (by simpa [Db.hasRun] using known)
        cases applied
        by_cases here : subject = .job id
        · subst here
          refine .cancel id fromStatus rfl rfl rfl rfl ?_ ?_
          · simp only [Db.status, Serial.find_updateAt_self, found]
            rfl
          · exact transitions_job (some fromStatus) .cancelRequested (some "cancel requested") rfl
        · refine .idle nofun nofun (.of ?_ ?_)
          · cases subject with
            | job other =>
              have ne : other ≠ id := fun same => here (congrArg _ same)
              simp only [Db.status, Serial.find_updateAt_ne _ _ ne]
            | node _ => rfl
          · exact transitions_other rfl fun about => here (Option.some.inj about).symm
    | createRun run =>
      simp only [Transaction.apply] at applied
      split at applied <;> cases applied
      by_cases here : subject = .job s.db.jobRuns.next
      · subst here
        refine .create _ rfl rfl rfl ?_ ?_ ?_
        · rw [Db.status, Serial.find_next]
          rfl
        · simp only [Db.status, Serial.find_insert, if_true]
          rfl
        · exact transitions_job none .queued (some run.message) rfl
      · refine .idle nofun nofun (.of ?_ ?_)
        · cases subject with
          | job other =>
            have ne : other ≠ s.db.jobRuns.next := fun same => here (congrArg _ same)
            simp only [Db.status, Serial.find_insert, if_neg ne]
          | node _ => rfl
        · exact transitions_other rfl fun about => here (Option.some.inj about).symm

theorem turn (permitted : recording.permits note op) (ran : op.exec ext s reply s') :
    Turn subject op note.owed (recording.advance op reply note).owed s.db s'.db := by
  have silent : op.plain → op.speaks = false → op.updates ≠ some subject → note.owed = none →
      Turn subject op note.owed (recording.advance op reply note).owed s.db s'.db := by
    intro plain mute kind clear
    rw [clear, (plain_kept plain clear reply).2]
    exact .idle nofun nofun (stays_silent ran mute kind)
  cases op with
  | write write =>
    cases write with
    | event event =>
      have owed : note.owed = event.owed := permitted
      rw [owed]
      exact turn_event ran
    | updateNode id change => exact turn_node permitted ran
    | updateJob id change => exact turn_job permitted ran
    | _ => exact silent trivial rfl nofun permitted
  | transact transaction =>
    have clear : note.owed = none := permitted
    rw [clear]
    exact turn_transact ran
  | _ => exact silent trivial rfl nofun permitted

end

end PostJen.Server
