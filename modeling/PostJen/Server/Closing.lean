import PostJen.Server.Origins
import PostJen.Server.RunLife

/-! What a task has done when its block ends.

Until one of its statements is answered in a certain way, a block may be
bound to end in a certain way. A task at the end of such a block has ended as
it is bound to, or it has met that answer since it entered the block.
-/

set_option autoImplicit false

open PostJen.Foundations PostJen.Core

namespace PostJen.Server

/-- In the block of a control point, a statement of the task is answered in a certain way. -/
def Answers (ext : External) (slot : Slot) (point : Point) (hits : (op : Op) → op.Reply → Prop)
    (before : Config) (label : Label) (after : Config) : Prop :=
  ∃ (choice : Choice) (op : Op) (reply : op.Reply), label = .exec slot choice ∧ (before.threads slot).point = point ∧
    before.pending slot = some op ∧ op.run ext choice before.state = some (reply, after.state) ∧ hits op reply

section
variable {ext : External} {settings : Settings} {start c after : Config} {admits : Config → Label → Prop} {slot : Slot}
  {label : Label} {history : List Label} {event : Config → Label → Config → Prop}

theorem Current.imp {event' : Config → Label → Config → Prop} (current : Current ext settings start admits slot event history c)
    (implies : ∀ history before label after, (system ext settings).Path admits start history before →
      admits before label → step ext settings before label = some after → event before label after →
      event' before label after) : Current ext settings start admits slot event' history c := by
  induction current with
  | now run admitted moved happens => exact .now run admitted moved (implies _ _ _ _ run admitted moved happens)
  | keep _ moved here stays ih => exact ih.keep moved here stays

theorem Current.exists {X : Type} {events : X → Config → Label → Config → Prop}
    (current : Current ext settings start admits slot (fun before label after => ∃ x, events x before label after) history c) :
    ∃ x, Current ext settings start admits slot (events x) history c := by
  induction current with
  | now run admitted moved happens =>
    obtain ⟨x, happens⟩ := happens
    exact ⟨x, .now run admitted moved happens⟩
  | keep _ moved here stays ih =>
    obtain ⟨x, current⟩ := ih
    exact ⟨x, current.keep moved here stays⟩

theorem Current.or {first second : Config → Label → Config → Prop}
    (current : Current ext settings start admits slot (fun before label after =>
      first before label after ∨ second before label after) history c) :
    Current ext settings start admits slot first history c ∨ Current ext settings start admits slot second history c := by
  induction current with
  | now run admitted moved happens =>
    exact happens.imp (fun happens => .now run admitted moved happens) fun happens => .now run admitted moved happens
  | keep _ moved here stays ih =>
    exact ih.imp (fun current => current.keep moved here stays) fun current => current.keep moved here stays

/-! ## Until an answer -/

variable {point : Point} {hits : (op : Op) → op.Reply → Prop} {ends : Point → Prop}

variable (ext settings start admits slot point hits ends) in
/-- What is left of the block waits for an answer, or has met it. -/
def Awaits (history : List Label) (c : Config) : Prop :=
  (c.threads slot).point = point ∧ ((c.threads slot).code.Until hits ends (fun why => why.elim) ∨
    Current ext settings start admits slot (Answers ext slot point hits) history c)

theorem Awaits.keep (awaits : Awaits ext settings start admits slot point hits ends history c)
    (run : (system ext settings).Path admits start history c) (admitted : admits c label)
    (moved : step ext settings c label = some after) (here : label ≠ .resume slot)
    (stays : ∀ point, ¬Entry label slot point) :
    Awaits ext settings start admits slot point hits ends (label :: history) after := by
  obtain ⟨at', awaits | met⟩ := awaits
  · have stepped := thread_step moved slot
    generalize same : after.threads slot = thread at stepped
    cases stepped with
    | same => exact ⟨by rw [same, at'], .inl (by rw [same]; exact awaits)⟩
    | @exec choice op rest reply state next ran =>
      rw [next] at awaits
      refine ⟨by rw [same, at'], ?_⟩
      rcases awaits reply with hit | awaits
      · exact .inr (.now run admitted moved ⟨choice, op, reply, rfl, at', pending_eq_some.mpr ⟨rest, next⟩, ran, hit⟩)
      · exact .inl (by rw [same]; exact awaits)
    | resume => exact absurd rfl here
    | entered entry => exact absurd entry (stays _)
  · refine ⟨?_, .inr (met.keep moved here stays)⟩
    have stepped := thread_step moved slot
    generalize after.threads slot = thread at stepped ⊢
    cases stepped with
    | same => exact at'
    | exec => exact at'
    | resume => exact absurd rfl here
    | entered entry => exact absurd entry (stays _)

theorem reached_awaits (idle : ∀ slot, start.threads slot = enter ext settings .idle)
    (run : (system ext settings).Path admits start history c)
    (whole : (block ext settings point).Until hits ends fun why => why.elim) (here : (c.threads slot).point = point) :
    Awaits ext settings start admits slot point hits ends history c := by
  induction run with
  | nil =>
    refine ⟨here, .inl ?_⟩
    rw [idle] at here ⊢
    subst here
    exact whole
  | cons run admitted moved ih =>
    have stepped := thread_step moved slot
    generalize same : Config.threads _ slot = thread at stepped here
    cases stepped with
    | same other here' stays => exact (ih here).keep run admitted moved here' stays
    | exec next ran => exact (ih here).keep run admitted moved (by simp) fun _ entry => by cases entry
    | resume | entered =>
      refine ⟨by rw [same]; exact here, .inl ?_⟩
      rw [same]
      subst here
      exact whole

theorem Current.path (current : Current ext settings start admits slot event history c) :
    (system ext settings).Path everything start history c := by
  induction current with
  | now run _ moved _ => exact (run.mono fun _ _ _ => trivial).cons trivial moved
  | keep _ moved _ _ ih => exact ih.cons trivial moved

theorem Current.awaits (current : Current ext settings start admits slot event history c)
    (run : (system ext settings).Path admits start history c)
    (begins : ∀ before label after, step ext settings before label = some after → event before label after →
      (after.threads slot).point = point ∧ (after.threads slot).code.Until hits ends fun why => why.elim) :
    Awaits ext settings start admits slot point hits ends history c := by
  induction run with
  | nil => cases current
  | cons run admitted moved ih =>
    cases current with
    | now run' _ moved' happens =>
      obtain ⟨there, awaits⟩ := begins _ _ _ moved' happens
      exact ⟨there, .inl awaits⟩
    | keep current moved' here stays =>
      -- the labels of the history determine where they lead
      cases current.path.unique (run.mono fun _ _ _ => trivial)
      exact (ih current).keep run admitted moved here stays

/-- At the end of its block a task has ended as it was bound to, or it has met the answer. -/
theorem Awaits.ended (awaits : Awaits ext settings start admits slot point hits ends history c) {next : Point}
    (ended : (c.threads slot).code = .done next) :
    ends next ∨ Current ext settings start admits slot (Answers ext slot point hits) history c := by
  refine awaits.2.imp_left fun code => ?_
  rw [ended] at code
  exact code

end

/-! ## The run that the scheduler works on -/

section
variable {ext : External} {settings : Settings} {start c after : Config} {admits : Config → Label → Prop}
  {label : Label} {history : List Label} (idle : ∀ slot, start.threads slot = enter ext settings .idle)

theorem Point.Leads.engages {point next : Point} (leads : point.Leads next) :
    next = .schedulerTick ∨ (∃ queued, next = .executeRun queued) ∨
      next.drives = point.drives ∧ point ≠ .schedulerTick := by
  cases leads with
  | none | finalize | abandon => exact .inl rfl
  | pick queued => exact .inr (.inl ⟨queued, rfl⟩)
  | visit _ _ _ _ _ _ visits => exact .inr (.inr ⟨by cases visits <;> rfl, by simp⟩)
  | _ => exact .inr (.inr ⟨rfl, by simp⟩)

include idle

theorem picked_exists (run : (system ext settings).Path admits start history c) {queued : QueuedRun}
    (ended : (c.threads .scheduler).code = .done (.executeRun queued)) : c.state.db.hasRun queued.id = true := by
  have valid : (RunLife.outline : Outline ext settings start admits State).Valid := RunLife.outline_valid idle
  obtain ⟨-, live, -⟩ := ((valid.sound idle run) .scheduler).at_point ended rfl
  obtain ⟨run, found, -⟩ := live queued rfl
  exact Option.isSome_iff_exists.mpr ⟨run, found⟩

theorem driven_exists (run : (system ext settings).Path admits start history c) {id : Nat}
    (driving : (c.threads .scheduler).point.drives = some id) : c.state.db.hasRun id = true := by
  induction run with
  | nil =>
    rw [idle] at driving
    cases driving
  | cons run admitted moved ih =>
    have turn := scheduler_step moved
    have stays := @step_hasRun _ _ _ _ _ moved
    generalize Config.threads _ Slot.scheduler = thread at turn driving
    cases turn with
    | same | exec => exact stays (ih driving)
    | resume ended =>
      have leads := ((reached_placed idle run.reaches).follows ended).2 rfl
      rcases leads.engages with rfl | ⟨queued, rfl⟩ | ⟨same, -⟩
      · cases driving
      · cases driving
        exact stays (picked_exists idle run ended)
      · exact stays (ih (same ▸ driving))
    | boot => cases driving

end

/-! ## The end of a preparation -/

def Op.abandons (runId : Nat) : (op : Op) → op.Reply → Prop
  | .write (.updateJob id (.failBeforeStart _)), _ => id = runId
  | _, _ => False

/-- The scheduler executes this UPDATE, and the run is failed unless the statement itself has failed. -/
def FailsRun (runId : Nat) (before : Config) (label : Label) (after : Config) : Prop :=
  ∃ choice reason, label = .exec .scheduler choice ∧
    before.pending .scheduler = some (.write (.updateJob runId (.failBeforeStart reason))) ∧
    ((∃ text, choice = .fail text) ∨ ∃ run, after.state.db.jobRuns.find runId = some run ∧ run.status = .failed ∧
      run.failureReason = some reason)

section
variable {ext : External} {settings : Settings} {hits : (op : Op) → op.Reply → Prop} {ends : Point → Prop}

theorem until_recover {runId : Nat} {body : Proc Sig AnyError Point}
    (fails : (∀ reason reply, hits (.write (.updateJob runId (.failBeforeStart reason))) reply) ∨ ends .schedulerTick)
    (first : body.Until hits ends fun _ => True) : (recover runId body).Until hits ends fun why => why.elim := by
  have attempted : (body.attempt : Proc Sig Empty (Except AnyError Point)).Until hits
      (fun outcome => ∀ next, outcome = .ok next → ends next) fun why => why.elim := by
    refine Proc.Until.attempt (first.mono (fun next there => ?_) fun why _ => ?_)
    · rintro _ ⟨⟩
      exact there
    · rintro _ ⟨⟩
  refine attempted.bind fun outcome arrives => ?_
  cases outcome with
  | ok next => exact arrives next rfl
  | error why =>
    rcases fails with closes | home
    · exact fun reply => .inl (closes why.chain reply)
    · exact (Proc.until_true _ fun why => why.elim).bind fun _ _ => home

variable (ext settings) in
/-- A preparation that does not come to the loop fails its run. -/
theorem until_prepared (queued : QueuedRun)
    (fails : ∀ reason reply, hits (.write (.updateJob queued.id (.failBeforeStart reason))) reply) :
    (block ext settings (.executeRun queued)).Until hits (fun next => next ≠ .schedulerTick) fun why => why.elim := by
  have minor : ∀ op : Op, op.minor = true → True := fun _ _ => trivial
  have within : (prepareRun ext settings queued >>= fun x => pure (Point.scheduling x)).Within (fun _ => True)
      fun next => next ≠ .schedulerTick := by
    refine (within_prepareRun minor ext settings queued (fun _ => trivial) (fun _ _ => trivial) trivial).bind ?_
    rintro x -
    exact fun same => by cases same
  exact until_recover (.inl fails) (within.until fun _ => trivial)

variable {start c : Config} {admits : Config → Label → Prop} {history : List Label}

theorem abandons_fails (idle : ∀ slot, start.threads slot = enter ext settings .idle) {queued : QueuedRun}
    (current : Current ext settings start admits .scheduler
      (Answers ext .scheduler (.executeRun queued) (Op.abandons queued.id)) history c) :
    Current ext settings start admits .scheduler (FailsRun queued.id) history c := by
  refine current.imp ?_
  rintro history before _ after run - - ⟨choice, op, reply, rfl, here, next, ran, abandons⟩
  cases op with
  | write write =>
    cases write with
    | updateJob id change =>
      cases change with
      | failBeforeStart reason =>
        cases abandons
        refine ⟨choice, reason, rfl, next, or_iff_not_imp_left.mpr fun works => ?_⟩
        obtain ⟨row, found⟩ := Option.isSome_iff_exists.mp (driven_exists idle run (by rw [here]; rfl))
        refine ⟨(JobChange.failBeforeStart reason).apply before.state.now row, ?_, rfl, rfl⟩
        rw [updateJob_answered ran (not_exists.mp works), Serial.find_updateAt_self, found]
        rfl
      | _ => exact abandons.elim
    | _ => exact abandons.elim
  | _ => exact abandons.elim

/-- A preparation that leads back to the queue has failed its run. -/
theorem prepared_fails (idle : ∀ slot, start.threads slot = enter ext settings .idle)
    (run : (system ext settings).Path admits start history c) {queued : QueuedRun}
    (here : (c.threads .scheduler).point = .executeRun queued)
    (ended : (c.threads .scheduler).code = .done .schedulerTick) :
    Current ext settings start admits .scheduler (FailsRun queued.id) history c := by
  have waits : (block ext settings (.executeRun queued)).Until (Op.abandons queued.id) (fun next => next ≠ .schedulerTick)
      fun why => why.elim := until_prepared ext settings queued fun _ _ => rfl
  rcases (reached_awaits idle run waits here).ended ended with away | met
  · exact absurd rfl away
  · exact abandons_fails idle met

end

end PostJen.Server
