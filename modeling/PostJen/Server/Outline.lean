import PostJen.Server.System

/-! Proof outlines: an assertion at every control point of every task.

The tasks share a view of the configuration, which is its state or its state
with a fact about the run so far. A task's operations meet its
guarantee, and what one task guarantees the others rely on. An outline that
satisfies its conditions holds in every reachable configuration.
-/

set_option autoImplicit false

open PostJen.Foundations PostJen.Core

namespace PostJen.Server

/-- The steps of the server by their labels. -/
inductive Moved (ext : External) (settings : Settings) (c : Config) : Label → Config → Prop where
  | exec {slot : Slot} {choice : Choice} {op : Op} {rest : op.Reply → Proc Sig Empty Point}
      {reply : op.Reply} {state : State} (next : (c.threads slot).code = .call op rest)
      (ran : op.run ext choice c.state = some (reply, state)) :
      Moved ext settings c (.exec slot choice)
        (Config.put ⟨state, c.threads⟩ slot ⟨(c.threads slot).point, rest reply⟩)
  | resume {slot : Slot} {point : Point} (ended : (c.threads slot).code = .done point) :
      Moved ext settings c (.resume slot) (c.put slot (enter ext settings point))
  | spawn {n : Nat} {task : Task} (picked : (c.threads .localWorker).code = .done (.pickedLocal task))
      (free : (c.threads (.localTask n)).code = .done .idle) :
      Moved ext settings c (.spawn n) ((c.put .localWorker (enter ext settings .workerTick)).put
        (.localTask n) (enter ext settings (.localTask task)))
  | receive {n : Nat} {request : Request} (free : (c.threads (.request n)).code = .done .idle) :
      Moved ext settings c (.receive n request)
        (c.put (.request n) (enter ext settings (.received request)))
  | drop (n : Nat) :
      Moved ext settings c (.drop n) (c.put (.request n) (enter ext settings .idle))
  | clock (now : Nat) :
      Moved ext settings c (.clock now) { c with state := { c.state with clock := now } }
  | edit (path : String) (contents : Option String) :
      Moved ext settings c (.edit path contents)
        { c with state := { c.state with files := Function.update c.state.files path contents } }
  | boot {hostname : String} {affected : Nat} {db : Db}
      (registered : (registerLocalAgent ext hostname).apply c.state.now c.state.db = .ok (affected, db)) :
      Moved ext settings c (.boot hostname)
        ⟨{ c.state with db }, fun slot => enter ext settings slot.home⟩

variable {ext : External} {settings : Settings}

theorem step_moved {c after : Config} {label : Label} (moved : step ext settings c label = some after) :
    Moved ext settings c label after := by
  cases label with
  | exec slot choice =>
    simp only [step] at moved
    split at moved
    · rename_i op rest next
      obtain ⟨⟨reply, state⟩, ran, same⟩ := Option.map_eq_some_iff.mp moved
      subst same
      exact .exec next ran
    · cases moved
  | resume slot =>
    simp only [step] at moved
    split at moved
    · rename_i point ended
      cases moved
      exact .resume ended
    · cases moved
  | spawn n =>
    simp only [step] at moved
    split at moved
    · rename_i task picked free
      cases moved
      exact .spawn picked free
    · cases moved
  | receive n request =>
    simp only [step] at moved
    split at moved
    · rename_i free
      cases moved
      exact .receive free
    · cases moved
  | drop n =>
    cases moved
    exact .drop n
  | clock now =>
    cases moved
    exact .clock now
  | edit path contents =>
    cases moved
    exact .edit path contents
  | boot hostname =>
    simp only [step] at moved
    split at moved
    · rename_i registered
      cases moved
      exact .boot registered
    · cases moved

@[simp] theorem Config.put_state (c : Config) (slot : Slot) (thread : Thread Sig Point) :
    (c.put slot thread).state = c.state := rfl

@[simp] theorem Config.put_self (c : Config) (slot : Slot) (thread : Thread Sig Point) :
    (c.put slot thread).threads slot = thread := Function.update_self _ _ _

theorem Config.put_ne (c : Config) {slot other : Slot} (thread : Thread Sig Point)
    (ne : other ≠ slot) : (c.put slot thread).threads other = c.threads other :=
  Function.update_of_ne ne _ _

def Label.quiet : Label → Bool
  | .exec _ _ | .boot _ => false
  | _ => true

structure Outline (ext : External) (settings : Settings) (start : Config)
    (admits : Config → Label → Prop) (S : Type) where
  view : List Label → Config → S
  exec : Slot → Point → (op : Op) → S → op.Reply → S → Prop
  rely : Slot → S → S → Prop
  guarantee : Slot → Point → Op → S → S → Prop
  assertion : Slot → Point → S → Prop

namespace Outline

variable {start : Config} {admits : Config → Label → Prop} {S : Type}

def discipline (O : Outline ext settings start admits S) (slot : Slot) (point : Point) :
    Discipline Sig S where
  exec := O.exec slot point
  rely := O.rely slot
  guarantee := O.guarantee slot point

/-- Every task meets its obligations from where it stands. -/
def Holds (O : Outline ext settings start admits S) (history : List Label) (c : Config) : Prop :=
  ∀ slot, (c.threads slot).Holds (O.discipline slot) (O.assertion slot) (O.view history c)

structure Valid (O : Outline ext settings start admits S) : Prop where
  refl : ∀ slot s, O.rely slot s s
  trans : ∀ slot a b c, O.rely slot a b → O.rely slot b c → O.rely slot a c
  stable : ∀ slot point before after, O.rely slot before after →
    O.assertion slot point before → O.assertion slot point after
  blocks : ∀ slot point s, O.assertion slot point s →
    (block ext settings point).Holds (O.discipline slot point) (O.assertion slot)
      (fun why _ => why.elim) s
  runs : ∀ history c slot choice after (op : Op) (rest : op.Reply → Proc Sig Empty Point) reply,
    (system ext settings).Path admits start history c → admits c (.exec slot choice) →
    step ext settings c (.exec slot choice) = some after →
    (c.threads slot).code = .call op rest → op.run ext choice c.state = some (reply, after.state) →
    O.exec slot (c.threads slot).point op (O.view history c) reply
      (O.view (.exec slot choice :: history) after)
  suffers : ∀ slot other point op before after, other ≠ slot →
    O.guarantee slot point op before after → O.rely other before after
  quiet : ∀ history c label after, (system ext settings).Path admits start history c → admits c label →
    step ext settings c label = some after → label.quiet = true →
    ∀ slot, O.rely slot (O.view history c) (O.view (label :: history) after)
  boot : ∀ history c hostname after, (system ext settings).Path admits start history c →
    O.Holds history c → admits c (.boot hostname) → step ext settings c (.boot hostname) = some after →
    ∀ slot, O.assertion slot slot.home (O.view (.boot hostname :: history) after)
  idle : ∀ slot s, O.assertion slot .idle s
  received : ∀ n request s, O.assertion (.request n) (.received request) s
  spawned : ∀ n task s, O.assertion .localWorker (.pickedLocal task) s →
    O.assertion .localWorker .workerTick s ∧ O.assertion (.localTask n) (.localTask task) s

namespace Valid

variable {O : Outline ext settings start admits S} {history : List Label}

theorem preorder (valid : O.Valid) (slot : Slot) (point : Point) :
    (O.discipline slot point).Preorder := ⟨valid.refl slot, valid.trans slot⟩

theorem entered (valid : O.Valid) {slot : Slot} {point : Point} {s : S}
    (holds : O.assertion slot point s) :
    (enter ext settings point).Holds (O.discipline slot) (O.assertion slot) s :=
  valid.blocks slot point s holds

theorem relied (valid : O.Valid) {slot : Slot} {thread : Thread Sig Point} {before after : S}
    (holds : thread.Holds (O.discipline slot) (O.assertion slot) before)
    (moved : O.rely slot before after) :
    thread.Holds (O.discipline slot) (O.assertion slot) after :=
  holds.rely (valid.preorder slot _) (fun point => valid.stable slot point) moved

theorem replaced (valid : O.Valid) {c : Config} (holds : O.Holds history c) {after : Config}
    {later : List Label} {slot : Slot} {thread : Thread Sig Point}
    (threads : after.threads = (c.put slot thread).threads)
    (moved : ∀ other, other ≠ slot → O.rely other (O.view history c) (O.view later after))
    (here : thread.Holds (O.discipline slot) (O.assertion slot) (O.view later after)) :
    O.Holds later after := by
  intro other
  rw [threads]
  by_cases same : other = slot
  · subst same
    rw [Config.put_self]
    exact here
  · rw [Config.put_ne c thread same]
    exact valid.relied (holds other) (moved other same)

theorem guaranteed (valid : O.Valid) {c after : Config} (holds : O.Holds history c)
    (run : (system ext settings).Path admits start history c) {slot : Slot} {choice : Choice} {op : Op}
    {rest : op.Reply → Proc Sig Empty Point} {reply : op.Reply}
    (admitted : admits c (.exec slot choice))
    (moved : step ext settings c (.exec slot choice) = some after)
    (next : (c.threads slot).code = .call op rest)
    (ran : op.run ext choice c.state = some (reply, after.state)) :
    O.guarantee slot (c.threads slot).point op (O.view history c)
        (O.view (.exec slot choice :: history) after) ∧
      Thread.Holds (O.discipline slot) (O.assertion slot) ⟨(c.threads slot).point, rest reply⟩
        (O.view (.exec slot choice :: history) after) :=
  (holds slot).step (valid.preorder slot _) next
    (valid.runs history c slot choice after op rest reply run admitted moved next ran)

theorem step (valid : O.Valid) {c after : Config} {label : Label} (holds : O.Holds history c)
    (run : (system ext settings).Path admits start history c) (admitted : admits c label)
    (moved : Server.step ext settings c label = some after) : O.Holds (label :: history) after := by
  have quiet := valid.quiet history c label after run admitted moved
  cases step_moved moved with
  | @exec slot choice op rest reply state next ran =>
    obtain ⟨guarantee, continues⟩ := valid.guaranteed holds run admitted moved next ran
    exact valid.replaced holds rfl
      (fun other ne => valid.suffers slot other _ op _ _ ne guarantee) continues
  | @resume slot point ended =>
    have here := (valid.relied (holds slot) (quiet rfl slot)).at_point ended
    exact valid.replaced holds rfl (fun other _ => quiet rfl other) (valid.entered here)
  | @spawn n task picked free =>
    have here := (valid.relied (holds .localWorker) (quiet rfl .localWorker)).at_point picked
    obtain ⟨tick, spawned⟩ := valid.spawned n task _ here
    intro other
    by_cases isTask : other = .localTask n
    · subst isTask
      rw [Config.put_self]
      exact valid.entered spawned
    · rw [Config.put_ne _ _ isTask]
      by_cases isWorker : other = .localWorker
      · subst isWorker
        rw [Config.put_self]
        exact valid.entered tick
      · rw [Config.put_ne _ _ isWorker]
        exact valid.relied (holds other) (quiet rfl other)
  | receive free =>
    exact valid.replaced holds rfl (fun other _ => quiet rfl other)
      (valid.entered (valid.received _ _ _))
  | drop n =>
    exact valid.replaced holds rfl (fun other _ => quiet rfl other) (valid.entered (valid.idle _ _))
  | clock now => exact fun slot => valid.relied (holds slot) (quiet rfl slot)
  | edit path contents => exact fun slot => valid.relied (holds slot) (quiet rfl slot)
  | boot registered =>
    exact fun slot => valid.entered (valid.boot history c _ _ run holds admitted moved slot)

/-- A valid outline holds along every run that starts without tasks. -/
theorem sound (valid : O.Valid) (idle : ∀ slot, start.threads slot = enter ext settings .idle)
    {c : Config} (run : (system ext settings).Path admits start history c) : O.Holds history c := by
  induction run with
  | nil =>
    intro slot
    rw [idle]
    exact valid.entered (valid.idle slot _)
  | cons run admitted moved ih => exact valid.step ih run admitted moved

end Valid

end Outline

/-! ## One task -/

/-- The control points at which a step lets a slot begin anew. -/
inductive Entry : Label → Slot → Point → Prop where
  | worker (n : Nat) : Entry (.spawn n) .localWorker .workerTick
  | task (n : Nat) (task : Task) : Entry (.spawn n) (.localTask n) (.localTask task)
  | receive (n : Nat) (request : Request) : Entry (.receive n request) (.request n) (.received request)
  | drop (n : Nat) : Entry (.drop n) (.request n) .idle
  | boot (hostname : String) (slot : Slot) : Entry (.boot hostname) slot slot.home

/-- A step since the slot began its block was an event. -/
inductive Current (ext : External) (settings : Settings) (start : Config) (admits : Config → Label → Prop) (slot : Slot)
    (event : Config → Label → Config → Prop) : List Label → Config → Prop where
  | now {history : List Label} {before after : Config} {label : Label}
      (run : (system ext settings).Path admits start history before) (admitted : admits before label)
      (moved : step ext settings before label = some after) (happens : event before label after) :
      Current ext settings start admits slot event (label :: history) after
  | keep {history : List Label} {before after : Config} {label : Label}
      (current : Current ext settings start admits slot event history before)
      (moved : step ext settings before label = some after) (here : label ≠ .resume slot)
      (stays : ∀ point, ¬Entry label slot point) :
      Current ext settings start admits slot event (label :: history) after

theorem Current.happened {start : Config} {admits : Config → Label → Prop} {slot : Slot}
    {event : Config → Label → Config → Prop} {history : List Label} {c : Config}
    (current : Current ext settings start admits slot event history c) :
    (system ext settings).Happened admits start event history := by
  induction current with
  | now run admitted moved happens => exact run.happens admitted moved happens
  | keep _ _ _ _ ih => exact ih.later _

/-- Assertions about one slot, for laws in which its own steps matter. -/
structure Watch (ext : External) (settings : Settings) (start : Config) (admits : Config → Label → Prop)
    (slot : Slot) (S : Type) where
  view : List Label → Config → S
  discipline : Point → Discipline Sig S
  assertion : Point → S → Prop

namespace Watch

variable {start : Config} {admits : Config → Label → Prop} {slot : Slot} {S : Type}

def Holds (W : Watch ext settings start admits slot S) (history : List Label) (c : Config) : Prop :=
  (c.threads slot).Holds W.discipline W.assertion (W.view history c)

structure Valid (W : Watch ext settings start admits slot S) : Prop where
  refl : ∀ point s, (W.discipline point).rely s s
  blocks : ∀ point s, W.assertion point s →
    (block ext settings point).Holds (W.discipline point) W.assertion (fun why _ => why.elim) s
  runs : ∀ history c choice after (op : Op) (rest : op.Reply → Proc Sig Empty Point) reply,
    (system ext settings).Path admits start history c → admits c (.exec slot choice) →
    step ext settings c (.exec slot choice) = some after →
    (c.threads slot).code = .call op rest → op.run ext choice c.state = some (reply, after.state) →
    (W.discipline (c.threads slot).point).exec op (W.view history c) reply
      (W.view (.exec slot choice :: history) after)
  resumes : ∀ history c after point, (system ext settings).Path admits start history c →
    admits c (.resume slot) → step ext settings c (.resume slot) = some after →
    (c.threads slot).code = .done point → W.assertion point (W.view history c) →
    W.assertion point (W.view (.resume slot :: history) after)
  suffers : ∀ history c label after, (system ext settings).Path admits start history c → admits c label →
    step ext settings c label = some after → (∀ choice, label ≠ .exec slot choice) →
    (∀ point, ¬Entry label slot point) → label ≠ .resume slot → W.Holds history c →
    (c.threads slot).Holds W.discipline W.assertion (W.view (label :: history) after)
  enters : ∀ history c label after point, (system ext settings).Path admits start history c →
    admits c label → step ext settings c label = some after → Entry label slot point →
    W.assertion point (W.view (label :: history) after)
  idle : W.assertion .idle (W.view [] start)

namespace Valid

variable {W : Watch ext settings start admits slot S} {history : List Label}

theorem guaranteed (valid : W.Valid) {c after : Config} {choice : Choice} {op : Op}
    {rest : op.Reply → Proc Sig Empty Point} {reply : op.Reply} (holds : W.Holds history c)
    (run : (system ext settings).Path admits start history c) (admitted : admits c (.exec slot choice))
    (moved : Server.step ext settings c (.exec slot choice) = some after)
    (next : (c.threads slot).code = .call op rest) (ran : op.run ext choice c.state = some (reply, after.state)) :
    (W.discipline (c.threads slot).point).guarantee op (W.view history c)
      (W.view (.exec slot choice :: history) after) := by
  unfold Holds Thread.Holds at holds
  rw [next] at holds
  exact (holds _ (valid.refl _ _) reply _
    (valid.runs history c choice after op rest reply run admitted moved next ran)).1

theorem executed (valid : W.Valid) {c after : Config} {choice : Choice} {op : Op}
    {rest : op.Reply → Proc Sig Empty Point} {reply : op.Reply} (holds : W.Holds history c)
    (run : (system ext settings).Path admits start history c) (admitted : admits c (.exec slot choice))
    (moved : Server.step ext settings c (.exec slot choice) = some after)
    (next : (c.threads slot).code = .call op rest) (ran : op.run ext choice c.state = some (reply, after.state)) :
    Thread.Holds W.discipline W.assertion ⟨(c.threads slot).point, rest reply⟩
      (W.view (.exec slot choice :: history) after) := by
  unfold Holds Thread.Holds at holds
  rw [next] at holds
  exact (holds _ (valid.refl _ _) reply _
    (valid.runs history c choice after op rest reply run admitted moved next ran)).2

theorem step (valid : W.Valid) {c after : Config} {label : Label} (holds : W.Holds history c)
    (run : (system ext settings).Path admits start history c) (admitted : admits c label)
    (moved : Server.step ext settings c label = some after) : W.Holds (label :: history) after := by
  -- an own step continues the block, or begins one with what it enters; all other steps are suffered
  have entered : ∀ point, Entry label slot point →
      (enter ext settings point).Holds W.discipline W.assertion (W.view (label :: history) after) :=
    fun point entry => valid.blocks point _ (valid.enters history c label after point run admitted moved entry)
  have suffered := valid.suffers history c label after run admitted moved
  unfold Holds
  cases step_moved moved with
  | @exec other choice op rest reply state next ran =>
    by_cases same : slot = other
    · subst same
      rw [Config.put_self]
      exact valid.executed holds run admitted moved next ran
    · rw [Config.put_ne _ _ same]
      exact suffered (fun _ equal => same (by cases equal; rfl)) (fun _ entry => by cases entry) (by simp) holds
  | @resume other point ended =>
    by_cases same : slot = other
    · subst same
      rw [Config.put_self]
      exact valid.blocks point _ (valid.resumes history c _ point run admitted moved ended
        (Thread.Holds.at_point holds ended))
    · rw [Config.put_ne _ _ same]
      exact suffered (fun _ equal => by cases equal) (fun _ entry => by cases entry)
        (fun equal => same (by cases equal; rfl)) holds
  | @spawn n task picked free =>
    by_cases isTask : slot = .localTask n
    · subst isTask
      rw [Config.put_self]
      exact entered _ (.task n task)
    · rw [Config.put_ne _ _ isTask]
      by_cases isWorker : slot = .localWorker
      · subst isWorker
        rw [Config.put_self]
        exact entered _ (.worker n)
      · rw [Config.put_ne _ _ isWorker]
        refine suffered (fun _ equal => by cases equal) (fun _ entry => ?_) (by simp) holds
        cases entry <;> contradiction
  | @receive n request free =>
    by_cases same : slot = .request n
    · subst same
      rw [Config.put_self]
      exact entered _ (.receive n request)
    · rw [Config.put_ne _ _ same]
      refine suffered (fun _ equal => by cases equal) (fun _ entry => ?_) (by simp) holds
      cases entry
      contradiction
  | drop n =>
    by_cases same : slot = .request n
    · subst same
      rw [Config.put_self]
      exact entered _ (.drop n)
    · rw [Config.put_ne _ _ same]
      refine suffered (fun _ equal => by cases equal) (fun _ entry => ?_) (by simp) holds
      cases entry
      contradiction
  | clock now =>
    exact suffered (fun _ equal => by cases equal) (fun _ entry => by cases entry) (by simp) holds
  | edit path contents =>
    exact suffered (fun _ equal => by cases equal) (fun _ entry => by cases entry) (by simp) holds
  | boot registered => exact entered _ (.boot _ slot)

theorem sound (valid : W.Valid) (idle : start.threads slot = enter ext settings .idle) {c : Config}
    (run : (system ext settings).Path admits start history c) : W.Holds history c := by
  induction run with
  | nil =>
    unfold Holds
    rw [idle]
    exact valid.blocks .idle _ valid.idle
  | cons run admitted moved ih => exact valid.step ih run admitted moved

end Valid

end Watch

end PostJen.Server
