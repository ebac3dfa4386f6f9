import PostJen.Server.DependencySafety

/-! How often a task is handed out.

Both pickers select a queued row first and update it later. A row is handed out
once, by the call whose UPDATE moved it to running, as long as no UPDATE of a
picker finds its row moved by another call in between.
-/

set_option autoImplicit false

open PostJen.Foundations PostJen.Core

namespace PostJen.Server

/-- The SET clauses of the two pickers. -/
def NodeChange.takes : NodeChange → Bool
  | .start | .startQueued => true
  | _ => false

/-- The call in the slot moves the row from queued to running. -/
def Takes (slot : Slot) (id : Nat) (before : Config) (label : Label) (after : Config) : Prop :=
  ∃ choice change row row', label = .exec slot choice ∧
    before.pending slot = some (.write (.updateNode id change)) ∧ change.takes = true ∧
    before.state.db.nodeRuns.find id = some row ∧ row.status = .queued ∧
    after.state.db.nodeRuns.find id = some row' ∧ row'.status = .running

def Config.renews (c : Config) (slot : Slot) : Label → Bool
  | .boot _ => true
  | .receive n _ | .drop n => slot = .request n
  | .spawn _ => slot = .localWorker
  | .resume other => other = slot && match c.ended slot with
      | some .workerTick => true
      | _ => false
  | _ => false

section
variable (ext : External) (settings : Settings) (admits : Config → Label → Prop) (start : Config)

/-- The call in progress in the slot has itself moved the row to running. -/
inductive Owns (slot : Slot) (id : Nat) : List Label → Config → Prop where
  | take {history : List Label} {before after : Config} {label : Label}
      (run : (system ext settings).Path admits start history before) (admitted : admits before label)
      (moved : step ext settings before label = some after) (takes : Takes slot id before label after) :
      Owns slot id (label :: history) after
  | keep {history : List Label} {before after : Config} {label : Label} (owns : Owns slot id history before)
      (admitted : admits before label) (moved : step ext settings before label = some after)
      (same : before.renews slot label = false) : Owns slot id (label :: history) after

end

def Point.carries : Point → Option Nat
  | .pickedLocal task | .picked task _ => some task.nodeRunId
  | .responded (.ok ⟨_, .task task _⟩) => some task.nodeRunId
  | _ => none

def Point.hands : Point → Option Nat
  | .picked _ _ => none
  | point => point.carries

def HandsOut (slot : Slot) (id : Nat) (_ : Config) (label : Label) (after : Config) : Prop :=
  (∃ choice, label = .exec slot choice) ∧ ∃ point, (after.threads slot).code = .done point ∧ point.hands = some id

structure AtMostOnce (ext : External) (settings : Settings) (admits : Config → Label → Prop) (start : Config) :
    Prop where
  once : ∀ history before label after slot id, (system ext settings).Path admits start history before →
    admits before label → step ext settings before label = some after → HandsOut slot id before label after →
    ¬(system ext settings).Happened admits start (fun c label c' => ∃ other, HandsOut other id c label c') history
  own : ∀ history before label after slot id, (system ext settings).Path admits start history before →
    admits before label → step ext settings before label = some after → HandsOut slot id before label after →
    Owns ext settings admits start slot id (label :: history) after

/-- No UPDATE of a picker finds its row moved since it was selected. -/
def takesQueued (c : Config) : Label → Bool
  | .exec slot (.answer _) =>
      match c.pending slot with
      | some (.write (.updateNode id change)) =>
          !change.takes || (c.state.db.nodeRuns.find id).any (·.status = .queued)
      | _ => true
  | _ => true

namespace Dispatch

variable {ext : External} {settings : Settings} {start : Config} {c after : Config} {label : Label}
  {history : List Label} {id : Nat} {slot : Slot}

/-! ## A row is queued once -/

def waiting : RowRegime where
  fact
    | .fresh, row | .assigned, row => row.status ≠ .queued ∧ row.startedAt = none
    | _, _ => True
  may before after :=
    before.status ≠ .queued → after.status ≠ .queued ∧ after.startedAt = before.startedAt

theorem waiting_valid : waiting.Valid where
  refl := fun row unqueued => ⟨unqueued, rfl⟩
  trans := by
    intro first second third one two unqueued
    obtain ⟨still, same⟩ := one unqueued
    exact ⟨(two still).1, (two still).2.trans same⟩
  stable := by
    intro phase before after may fact
    cases phase with
    | fresh => exact ⟨(may fact.1).1, (may fact.1).2.trans fact.2⟩
    | assigned => exact ⟨(may fact.1).1, (may fact.1).2.trans fact.2⟩
    | _ => trivial
  fresh := fun new now => ⟨by simp [NewNodeRun.row], rfl⟩
  advance := by
    intro phase change next now row advance fact
    cases advance with
    | assign agentId => exact fact
    | _ => trivial
  read := fun _ _ _ => trivial

theorem update_waiting {point : Point} {change : NodeChange} {now : Timestamp} {row : NodeRun}
    (other : slot ≠ .scheduler) (hosted : slot.hosts point = true) (updates : point.Updates id change)
    (found : change.takes = true → row.status = .queued) : waiting.may row (change.apply now row) := by
  intro unqueued
  cases updates with
  | pick => exact absurd (found rfl) unqueued
  | poll => exact absurd (found rfl) unqueued
  | finish task status exitCode reason reported => exact ⟨(by rintro rfl; cases reported), rfl⟩
  | report headers payload status exitCode reason reported => exact ⟨(by rintro rfl; cases reported), rfl⟩
  | lose => exact ⟨by simp [NodeChange.apply], rfl⟩
  | _ => cases slot <;> first | exact absurd rfl other | cases hosted

theorem found_queued (kept : takesQueued c label = true) {index : Nat} {change : NodeChange} {row : NodeRun}
    (executed : label = .exec slot (.answer index)) (next : c.pending slot = some (.write (.updateNode id change)))
    (found : c.state.db.nodeRuns.find id = some row) (takes : change.takes = true) : row.status = .queued := by
  subst executed
  simpa [takesQueued, next, found, takes] using kept

theorem waiting_governs (idle : ∀ slot, start.threads slot = enter ext settings .idle) :
    (waiting.regime ext).Governs ext settings start (fun c label => takesQueued c label = true)
      fun _ c => c.state := by
  refine waiting_valid.governs idle ?_
  intro history c slot choice after id row change run kept moved other next found found'
  have placed := reached_placed idle run.reaches
  rcases step_answered next rfl moved with same | ⟨index, rfl⟩
  · rw [same, found] at found'
    rw [← Option.some.inj found']
    exact waiting_valid.refl row
  · exact update_waiting other (placed slot).1 (placed.updates next) (found_queued kept rfl next found)

def Started (id : Nat) (c : Config) : Prop :=
  ∃ row, c.state.db.nodeRuns.find id = some row ∧ row.status ≠ .queued ∧ row.startedAt.isSome = true

theorem started_step (idle : ∀ slot, start.threads slot = enter ext settings .idle)
    (run : (system ext settings).Path (fun c label => takesQueued c label = true) start history c)
    (kept : takesQueued c label = true) (moved : step ext settings c label = some after)
    (started : Started id c) : Started id after := by
  obtain ⟨row, found, unqueued, since⟩ := started
  obtain ⟨row', found', changed⟩ := nodeStep moved found
  refine ⟨row', found', ?_⟩
  have placed := reached_placed idle run.reaches
  cases changed with
  | same => exact ⟨unqueued, since⟩
  | update slot choice change executed next =>
    subst executed
    rcases step_answered next rfl moved with same | ⟨index, rfl⟩
    · rw [same, found] at found'
      rw [← Option.some.inj found']
      exact ⟨unqueued, since⟩
    · by_cases isScheduler : slot = .scheduler
      · subst isScheduler
        obtain ⟨owner, phase, later, advance, ⟨other, there, -, -, fact⟩, -⟩ :=
          (waiting_governs idle).promised run kept moved next id change rfl
        cases found.symm.trans there
        cases advance with
        | queue =>
          rw [fact.2] at since
          cases since
        | assign => exact ⟨unqueued, since⟩
        | skip => exact ⟨by simp [NodeChange.apply], since⟩
        | unmatched => exact ⟨by simp [NodeChange.apply], since⟩
      · obtain ⟨still, same⟩ := update_waiting isScheduler (placed slot).1 (placed.updates next)
          (found_queued kept rfl next found) unqueued
        exact ⟨still, by rw [same]; exact since⟩

theorem takes_started (takes : Takes slot id c label after) (moved : step ext settings c label = some after) :
    Started id after := by
  obtain ⟨choice, change, row, row', rfl, next, taking, found, queued, found', running⟩ := takes
  obtain ⟨row'', found'', changed⟩ := nodeStep moved found
  cases found'.symm.trans found''
  refine ⟨row', found', by rw [running]; simp, ?_⟩
  cases changed with
  | same =>
    rw [queued] at running
    cases running
  | update slot' choice' change' executed next' =>
    cases executed
    cases next.symm.trans next'
    cases change with
    | start => rfl
    | startQueued => simp [NodeChange.apply, queued]
    | _ => cases taking

theorem takes_fresh (started : Started id c) : ¬Takes slot id c label after := by
  rintro ⟨-, -, row, -, -, -, -, found, queued, -⟩
  obtain ⟨row', found', unqueued, -⟩ := started
  cases found.symm.trans found'
  exact unqueued queued

/-! ## A row has one owner -/

variable {admits : Config → Label → Prop}

theorem owns_path (owns : Owns ext settings admits start slot id history c) :
    (system ext settings).Path admits start history c := by
  induction owns with
  | take run admitted moved _ => exact run.cons admitted moved
  | keep _ admitted moved _ ih => exact ih.cons admitted moved

section
variable (idle : ∀ slot, start.threads slot = enter ext settings .idle)
include idle

theorem owns_started (owns : Owns ext settings (fun c label => takesQueued c label = true) start slot id history c) :
    Started id c := by
  induction owns with
  | take _ _ moved takes => exact takes_started takes moved
  | keep owns kept moved _ ih => exact started_step idle (owns_path owns) kept moved ih

theorem owner_unique {other : Slot}
    (owns : Owns ext settings (fun c label => takesQueued c label = true) start slot id history c)
    (again : Owns ext settings (fun c label => takesQueued c label = true) start other id history c) :
    slot = other := by
  -- a row that was taken is never queued again, so there is only one call that can have taken it
  induction owns with
  | take run _ moved takes =>
    cases again with
    | take run' _ _ takes' =>
      obtain ⟨choice, -, -, -, executed, -⟩ := takes
      obtain ⟨choice', -, -, -, executed', -⟩ := takes'
      cases executed.symm.trans executed'
      rfl
    | keep owns' _ _ _ =>
      cases run.unique (owns_path owns')
      exact absurd takes (takes_fresh (owns_started idle owns'))
  | keep owns _ _ _ ih =>
    cases again with
    | take run' _ _ takes' =>
      cases run'.unique (owns_path owns)
      exact absurd takes' (takes_fresh (owns_started idle owns))
    | keep owns' _ _ _ =>
      cases (owns_path owns).unique (owns_path owns')
      exact ih owns'

end

def Finished (thread : Thread Sig Point) : Prop :=
  ∃ point, thread.code = .done point ∧ point.hands.isSome = true

theorem finished_step (finished : Finished (c.threads slot)) (moved : step ext settings c label = some after)
    (same : c.renews slot label = false) : Finished (after.threads slot) := by
  obtain ⟨point, ended, hands⟩ := finished
  have still : Finished (c.threads slot) := ⟨point, ended, hands⟩
  cases step_moved moved with
  | @exec other choice op rest reply state next ran =>
    by_cases isSlot : slot = other
    · subst isSlot
      cases ended.symm.trans next
    · rw [Config.put_ne _ _ isSlot]
      exact still
  | @resume other point' ended' =>
    by_cases isSlot : slot = other
    · subst isSlot
      cases ended.symm.trans ended'
      rw [Config.put_self]
      refine ⟨point, ?_, hands⟩
      cases point <;> first | rfl | cases hands
    · rw [Config.put_ne _ _ isSlot]
      exact still
  | @spawn n task picked free =>
    by_cases isTask : slot = .localTask n
    · subst isTask
      cases ended.symm.trans free
      cases hands
    · rw [Config.put_ne _ _ isTask, Config.put_ne]
      · exact still
      · simpa [Config.renews] using same
  | receive free =>
    rw [Config.put_ne]
    · exact still
    · simpa [Config.renews] using same
  | drop n =>
    rw [Config.put_ne]
    · exact still
    · simpa [Config.renews] using same
  | clock now => exact still
  | edit path contents => exact still
  | boot registered => cases same

/-! ## The code of a call -/

theorem carries_hands {point : Point} (hands : point.hands = some id) : point.carries = some id := by
  cases point with
  | picked => cases hands
  | _ => exact hands

def rely (before after : Nat → Prop) : Prop := ∀ id, before id → after id

def Entitles : (op : Op) → op.Reply → (Nat → Prop) → Prop
  | .write (.updateNode id change), reply, owned =>
      change.takes = true → (∃ result, (reply : Except SqlError Nat) = .ok result) → owned id
  | _, _, _ => True

def discipline : Discipline Sig (Nat → Prop) where
  exec op before reply after := rely before after ∧ Entitles op reply after
  rely := rely
  guarantee := fun _ _ _ => True

def assertion (slot : Slot) (point : Point) (owned : Nat → Prop) : Prop :=
  slot.hosts point = true ∧ ∀ id, point.carries = some id → owned id

theorem within_owned {E A : Type} {allowed : Op → Prop} {ends : A → Prop} {program : Proc Sig E A}
    {owned : Nat → Prop} (within : program.Within allowed ends) (id : Nat) (now : owned id) :
    program.Holds discipline (fun value owned => ends value ∧ owned id) (fun _ _ => True) owned := by
  have stable : discipline.Stable fun owned => owned id := fun _ _ moved => moved id
  exact (within.holds stable (fun _ _ _ _ _ mine ran => ⟨trivial, ran.1 id mine⟩) now).mono
    (fun _ _ ended => ended) fun _ _ _ => trivial

theorem within_bare {E A : Type} {allowed : Op → Prop} {ends : A → Prop} {program : Proc Sig E A}
    {owned : Nat → Prop} (within : program.Within allowed ends) :
    program.Holds discipline (fun value _ => ends value) (fun _ _ => True) owned := by
  have stable : discipline.Stable fun _ => True := fun _ _ _ _ => trivial
  exact (within.holds stable (fun _ _ _ _ _ _ _ => ⟨trivial, trivial⟩) trivial).mono
    (fun _ _ ended => ended.1) fun _ _ _ => trivial

theorem holds_take {E A : Type} [FromSql E] {change : NodeChange} (takes : change.takes = true)
    {next : Unit → Proc Sig E A} {post : A → (Nat → Prop) → Prop} {failed : E → (Nat → Prop) → Prop}
    {owned : Nat → Prop} (later : ∀ owned, owned id → (next ()).Holds discipline post failed owned)
    (fails : ∀ why owned, failed why owned) :
    (run (.updateNode id change) >>= next).Holds discipline post failed owned := by
  refine (Proc.holds_bind _ _ _).mpr ((Proc.holds_bind _ _ _).mpr ?_)
  rintro before - reply after ⟨-, entitled⟩
  refine ⟨trivial, ?_⟩
  cases reply with
  | error why => exact fails _ after
  | ok result => exact later after (entitled takes ⟨result, rfl⟩)

theorem bare {point : Point} (hosted : slot.hosts point = true) (plain : point.carries = none)
    (owned : Nat → Prop) : assertion slot point owned := by
  refine ⟨hosted, fun id carried => ?_⟩
  rw [plain] at carried
  cases carried

theorem holds_pollTask (headers : Headers) (owned : Nat → Prop) :
    (pollTask ext headers).Holds discipline
      (fun answer owned => ∀ id, (Answer.point answer).carries = some id → owned id) (fun _ _ => True) owned := by
  have minor : ∀ op : Op, op.minor = true → True := fun _ _ => trivial
  refine (Proc.holds_bind _ _ _).mpr ((within_bare (within_authenticateAgent (reads_of minor) ext headers)).mono
    (fun agentId owned _ => ?_) fun _ _ _ => trivial)
  refine (Proc.holds_bind _ _ _).mpr ((within_bare (within_fetch (reads_of minor) _ rfl)).mono (fun labels owned _ => ?_)
    fun _ _ _ => trivial)
  refine (Proc.holds_bind _ _ _).mpr ((within_bare (within_fetch (reads_of minor) _ rfl)).mono (fun task owned _ => ?_)
    fun _ _ _ => trivial)
  cases task with
  | none => rintro id ⟨⟩
  | some task =>
    refine (Proc.holds_bind _ _ _).mpr ((within_bare (within_loadOutputs (reads_of minor) task)).mono
      (fun outputs owned _ => ?_) fun _ _ _ => trivial)
    refine holds_take rfl (fun owned mine => ?_) fun _ _ => trivial
    rintro id ⟨⟩
    exact mine

theorem holds_pickLocalTask (owned : Nat → Prop) :
    pickLocalTask.Holds discipline (fun task owned => ∀ picked, task = some picked → owned picked.nodeRunId)
      (fun _ _ => True) owned := by
  have minor : ∀ op : Op, op.minor = true → True := fun _ _ => trivial
  refine (Proc.holds_bind _ _ _).mpr ((within_bare (within_fetch (reads_of minor) _ rfl)).mono (fun task owned _ => ?_)
    fun _ _ _ => trivial)
  cases task with
  | none => rintro _ ⟨⟩
  | some task =>
    refine holds_take rfl (fun owned mine => ?_) fun _ _ => trivial
    refine (Proc.holds_bind _ _ _).mpr ((within_owned (within_event minor _) _ mine).mono ?_ fun _ _ _ => trivial)
    rintro - owned ⟨-, mine⟩ picked ⟨⟩
    exact mine

theorem holds_block (calls : slot = .localWorker ∨ ∃ n, slot = .request n) (point : Point) (owned : Nat → Prop)
    (holds : assertion slot point owned) :
    (block ext settings point).Holds discipline (assertion slot) (fun why _ => why.elim) owned := by
  obtain ⟨hosted, carried⟩ := holds
  have minor : ∀ op : Op, op.minor = true → True := fun _ _ => trivial
  rcases calls with rfl | ⟨n, rfl⟩
  · cases point with
    | idle => exact ⟨rfl, carried⟩
    | pickedLocal task => exact ⟨rfl, carried⟩
    | workerTick =>
      refine holds_otherwise ((Proc.holds_bind _ _ _).mpr ((holds_pickLocalTask owned).mono ?_ ?_))
      · intro task owned mine
        cases task with
        | none => exact bare rfl rfl owned
        | some task =>
          refine ⟨rfl, ?_⟩
          rintro _ ⟨⟩
          exact mine task rfl
      · exact fun why owned _ => bare rfl rfl owned
    | _ => cases hosted
  · cases point with
    | idle => exact ⟨rfl, carried⟩
    | responded response => exact ⟨rfl, carried⟩
    | received request =>
      have refused : ∀ (why : ApiError) owned, assertion (.request n) (.responded (.error why)) owned :=
        fun why owned => bare rfl rfl owned
      by_cases polls : ∃ headers, request = .pollTask headers
      · obtain ⟨headers, rfl⟩ := polls
        refine holds_respond ((holds_pollTask headers owned).mono ?_ fun why owned _ => refused why owned)
        intro answer owned carried
        exact ⟨by cases answer <;> rfl, carried⟩
      · refine holds_respond ((within_bare (within_handle ext settings request)).mono ?_
          fun why owned _ => refused why owned)
        intro answer owned plain
        have plain := plain.resolve_left polls
        rcases answer with ⟨code, body⟩ | ⟨task, outputs⟩
        · cases body <;> first | exact bare rfl rfl owned | cases plain
        · cases plain
    | picked task outputs =>
      refine holds_respond ((Proc.holds_bind _ _ _).mpr ((within_owned (within_event minor _) _
        (carried _ rfl)).mono ?_ fun why owned _ => bare rfl rfl owned))
      rintro - owned ⟨-, mine⟩
      refine ⟨rfl, ?_⟩
      rintro _ ⟨⟩
      exact mine
    | _ => cases hosted

/-! ## Runs -/

def watch (slot : Slot) :
    Watch ext settings start (fun c label => takesQueued c label = true) slot (Nat → Prop) where
  view history c := fun id => Owns ext settings (fun c label => takesQueued c label = true) start slot id history c
  discipline _ := discipline
  assertion := assertion slot

theorem owns_rely (kept : takesQueued c label = true) (moved : step ext settings c label = some after)
    (same : c.renews slot label = false) :
    rely (fun id => Owns ext settings (fun c label => takesQueued c label = true) start slot id history c)
      fun id => Owns ext settings (fun c label => takesQueued c label = true) start slot id (label :: history) after :=
  fun _ owns => owns.keep kept moved same

theorem renews_entry (entry : ∀ point, ¬Entry label slot point) (other : label ≠ .resume slot) :
    c.renews slot label = false := by
  cases label with
  | resume slot' => simpa [Config.renews] using fun same => absurd (by rw [same]) other
  | spawn n =>
    simp only [Config.renews, decide_eq_false_iff_not]
    rintro rfl
    exact entry _ (.worker n)
  | receive n request =>
    simp only [Config.renews, decide_eq_false_iff_not]
    rintro rfl
    exact entry _ (.receive n request)
  | drop n =>
    simp only [Config.renews, decide_eq_false_iff_not]
    rintro rfl
    exact entry _ (.drop n)
  | boot hostname => exact absurd (.boot hostname slot) (entry _)
  | _ => rfl

theorem watch_valid (calls : slot = .localWorker ∨ ∃ n, slot = .request n) :
    (watch slot : Watch ext settings start (fun c label => takesQueued c label = true) slot (Nat → Prop)).Valid where
  refl := fun _ _ _ owned => owned
  blocks := fun point owned holds => holds_block calls point owned holds
  runs := by
    intro history c choice after op rest reply run kept moved next ran
    refine ⟨owns_rely kept moved rfl, ?_⟩
    cases op with
    | write write =>
      cases write with
      | updateNode id change =>
        rintro takes ⟨result, rfl⟩
        refine .take run kept moved ?_
        have pending : c.pending slot = some (.write (.updateNode id change)) := pending_eq_some.mpr ⟨rest, next⟩
        rcases exec_updateNode ⟨choice, ran⟩ with ⟨⟨why, impossible⟩, -⟩ | ⟨-, updated⟩
        · cases impossible
        · cases choice with
          | answer index =>
            -- the condition: the UPDATE of a picker finds the row queued
            have found : (c.state.db.nodeRuns.find id).any (·.status = .queued) = true := by
              simpa [takesQueued, pending, takes] using kept
            obtain ⟨row, found, isQueued⟩ := (Option.any_eq_true _ _).mp found
            have queued : row.status = .queued := by simpa using isQueued
            refine ⟨.answer index, change, row, change.apply c.state.now row, rfl, pending, takes, found, queued, ?_, ?_⟩
            · rw [updated, Serial.find_updateAt_self, found]
              rfl
            · cases change with
              | start => rfl
              | startQueued => simp [NodeChange.apply, queued]
              | _ => cases takes
          | fail text => simp [Op.run] at ran
          | _ => cases ran
      | _ => trivial
    | _ => trivial
  resumes := by
    rintro history c after point run kept moved ended ⟨hosted, carried⟩
    -- only a new tick ends the call, and it carries nothing
    by_cases ticks : point = .workerTick
    · subst ticks
      exact bare hosted rfl _
    · refine ⟨hosted, fun id carries => (carried id carries).keep kept moved ?_⟩
      simp only [Config.renews, decide_true, Bool.true_and, ended_eq_some.mpr ended]
      split
      · rename_i same
        cases same
        exact absurd rfl ticks
      · rfl
  suffers := by
    intro history c label after run kept moved notExec entry other holds
    have order : (discipline : Discipline Sig (Nat → Prop)).Preorder :=
      ⟨fun _ _ owned => owned, fun _ _ _ first second id owned => second id (first id owned)⟩
    refine Thread.Holds.rely order (fun point before after moved holds => ?_) holds
      (owns_rely kept moved (renews_entry entry other))
    exact ⟨holds.1, fun id carries => moved id (holds.2 id carries)⟩
  enters := by
    intro history c label after point run kept moved entry
    cases entry with
    | worker n => exact bare rfl rfl _
    | task n task => exact bare rfl rfl _
    | receive n request => exact bare rfl rfl _
    | drop n => exact bare rfl rfl _
    | boot hostname =>
      rcases calls with rfl | ⟨n, rfl⟩
      · exact bare rfl rfl _
      · exact bare rfl rfl _
  idle := bare slot.hosts_idle rfl _

theorem hands_owns (idle : ∀ slot, start.threads slot = enter ext settings .idle)
    (run : (system ext settings).Path (fun c label => takesQueued c label = true) start history c)
    (kept : takesQueued c label = true) (moved : step ext settings c label = some after)
    (hands : HandsOut slot id c label after) :
    Owns ext settings (fun c label => takesQueued c label = true) start slot id (label :: history) after := by
  obtain ⟨-, point, ended, carried⟩ := hands
  have later := run.cons kept moved
  have hosted := ((reached_placed idle later.reaches).follows ended).1
  have calls : slot = .localWorker ∨ ∃ n, slot = .request n := by
    cases slot with
    | localWorker => exact .inl rfl
    | request n => exact .inr ⟨n, rfl⟩
    | _ => cases point <;> cases hosted <;> cases carried
  have holds := (watch_valid calls).sound (idle slot) later
  exact (Thread.Holds.at_point holds ended).2 id (carries_hands carried)

def Spent (ext : External) (settings : Settings) (start : Config) (id : Nat) (history : List Label)
    (c : Config) : Prop :=
  Started id c ∧ ∀ slot, Owns ext settings (fun c label => takesQueued c label = true) start slot id history c →
    Finished (c.threads slot)

theorem hands_spent (idle : ∀ slot, start.threads slot = enter ext settings .idle)
    (run : (system ext settings).Path (fun c label => takesQueued c label = true) start history c)
    (kept : takesQueued c label = true) (moved : step ext settings c label = some after)
    (hands : HandsOut slot id c label after) : Spent ext settings start id (label :: history) after := by
  have owns := hands_owns idle run kept moved hands
  refine ⟨owns_started idle owns, fun other again => ?_⟩
  obtain rfl := owner_unique idle owns again
  obtain ⟨-, point, ended, carried⟩ := hands
  exact ⟨point, ended, by rw [carried]; rfl⟩

theorem spent_step (idle : ∀ slot, start.threads slot = enter ext settings .idle)
    (run : (system ext settings).Path (fun c label => takesQueued c label = true) start history c)
    (kept : takesQueued c label = true) (moved : step ext settings c label = some after)
    (spent : Spent ext settings start id history c) : Spent ext settings start id (label :: history) after := by
  refine ⟨started_step idle run kept moved spent.1, fun slot owns => ?_⟩
  cases owns with
  | take run' _ _ takes =>
    cases run.unique run'
    exact absurd takes (takes_fresh spent.1)
  | keep owns _ moved' same =>
    cases run.unique (owns_path owns)
    exact finished_step (spent.2 slot owns) moved same

end Dispatch

/-- A task is handed out once, by the call that moved its row to running, if no
picker updates a row that another call moved since it was selected. -/
theorem at_most_once (ext : External) (settings : Settings) (files : String → Option String) (clock : Nat) :
    AtMostOnce ext settings (fun c label => takesQueued c label = true)
      (Config.initial ext settings files clock) where
  once := by
    intro history before label after slot id run kept moved hands earlier
    have idle := Config.initial_idle ext settings files clock
    have spent := run.since (Dispatch.Spent ext settings _ id) earlier
      (fun _ _ _ _ run kept moved ⟨_, hands⟩ => Dispatch.hands_spent idle run kept moved hands)
      fun _ _ _ _ run kept moved spent => Dispatch.spent_step idle run kept moved spent
    have owns := Dispatch.hands_owns idle run kept moved hands
    obtain ⟨⟨choice, rfl⟩, -⟩ := hands
    cases owns with
    | take run' _ _ takes =>
      cases run.unique run'
      exact Dispatch.takes_fresh spent.1 takes
    | keep owns _ _ _ =>
      cases run.unique (Dispatch.owns_path owns)
      obtain ⟨point, ended, -⟩ := spent.2 slot owns
      obtain ⟨op, rest, reply, code, -⟩ := step_exec moved
      cases ended.symm.trans code
  own := fun history before label after slot id run kept moved hands =>
    Dispatch.hands_owns (Config.initial_idle ext settings files clock) run kept moved hands

/-- A retried poll that selects the queued row before the first poll updates it. -/
def Sample.retriedPoll : List Label :=
  Sample.remoteQueued ++ Sample.serve 3 (.pollTask Sample.headers) 4 ++ Sample.poll 4 ++ [.resume (.request 4)]

def handsTask (slot : Slot) (id : Nat) (c : Config) : Bool :=
  (c.ended slot).any fun point => point.hands = some id

theorem handsOut_of_test {slot : Slot} {id : Nat} {choice : Choice} {before after : Config}
    (test : handsTask slot id after = true) : HandsOut slot id before (.exec slot choice) after := by
  obtain ⟨point, ended, hands⟩ := (Option.any_eq_true _ _).mp test
  exact ⟨⟨choice, rfl⟩, point, ended_eq_some.mp ended, by simpa using hands⟩

theorem at_most_once_retried_poll : ¬AtMostOnce Sample.ext Sample.settings everything Sample.initial := by
  intro claim
  have passed : ((Sample.run (fun _ _ => true) Sample.retriedPoll).any fun c =>
      (step Sample.ext Sample.settings c (.exec (.request 4) (.answer 0))).any fun first =>
        handsTask (.request 4) 1 first &&
        ((system Sample.ext Sample.settings).follow (fun _ _ => true) first
          (Sample.turns (.request 3) 1 ++ [.resume (.request 3)])).any fun before =>
            (step Sample.ext Sample.settings before (.exec (.request 3) (.answer 0))).any
              (handsTask (.request 3) 1)) = true := by decide +kernel
  obtain ⟨c, followed, passed⟩ := (Option.any_eq_true _ _).mp passed
  obtain ⟨first, moved, passed⟩ := (Option.any_eq_true _ _).mp passed
  have moved : (system Sample.ext Sample.settings).step c (.exec (.request 4) (.answer 0)) = some first := moved
  obtain ⟨handed, passed⟩ := Bool.and_eq_true_iff.mp passed
  obtain ⟨before, continued, passed⟩ := (Option.any_eq_true _ _).mp passed
  obtain ⟨after, again, handedAgain⟩ := (Option.any_eq_true _ _).mp passed
  obtain ⟨earlier, run⟩ := (Sample.reached_freely followed).path
  have rest : (system Sample.ext Sample.settings).Reaches everything first before :=
    (system Sample.ext Sample.settings).follow_reaches (fun _ _ _ => trivial) continued
  obtain ⟨recent, path⟩ := (run.cons trivial moved).extend rest
  exact claim.once _ before _ after (.request 3) 1 path trivial again (handsOut_of_test handedAgain)
    ⟨recent, _, earlier, c, first, rfl, run, trivial, moved, .request 4, handsOut_of_test handed⟩

end PostJen.Server
