import PostJen.Server.Rules

/-! The outputs that are handed out with a task.

A worker loads the definition when it has taken a task. What `poll_task`
answers with a task is what this load declared for it, or nothing.
-/

set_option autoImplicit false

open PostJen.Foundations PostJen.Core

namespace PostJen.Server

def Performs (ext : External) (slot : Slot) (op : Op) (reply : op.Reply) (before : Config) (label : Label)
    (after : Config) : Prop :=
  ∃ choice, label = .exec slot choice ∧ before.pending slot = some op ∧
    op.run ext choice before.state = some (reply, after.state)

def Task.declared (task : Task) : Except AnyError ResolvedJobDefinition → List ResolvedNodeOutput
  | .error _ => []
  | .ok definition => ((definition.nodes.find? fun node => node.id = task.nodeId).map (·.outputs)).getD []

theorem loadOutputs_eq {E : Type} (task : Task) :
    (loadOutputs task : Proc Sig E _) = .call (.load task.definitionPath) fun reply => .done (task.declared reply) := by
  unfold loadOutputs
  congr 1
  funext reply
  cases reply <;> rfl

section
variable (ext : External) (settings : Settings) (admits : Config → Label → Prop) (start : Config)

/-- The task in the slot is about to load the definition of what it executes or hands out. -/
structure Dispatches (slot : Slot) (task : Task) (history : List Label) (c : Config) : Prop where
  next : c.pending slot = some (.load task.definitionPath)
  chosen : (c.threads slot).point = .localTask task ∨ ∃ agentId, Current ext settings start admits slot
    (Performs ext slot (.select (.queuedTask agentId)) (.ok (some task))) history c

/-- The task was dispatched with these outputs. -/
structure Dispatched (slot : Slot) (task : Task) (outputs : List ResolvedNodeOutput) (earlier : List Label)
    (before : Config) (choice : Choice) (history : List Label) : Prop where
  split : ∃ recent, history = recent ++ .exec slot choice :: earlier
  run : (system ext settings).Path admits start earlier before
  dispatches : Dispatches ext settings admits start slot task earlier before
  outputs : ∃ reply s, (Op.load task.definitionPath).run ext choice before.state = some (reply, s) ∧
    outputs = task.declared reply

end

def Handed (ext : External) (settings : Settings) (admits : Config → Label → Prop) (start : Config) (task : Task)
    (outputs : List ResolvedNodeOutput) (history : List Label) : Prop :=
  ∃ slot earlier before choice, Dispatched ext settings admits start slot task outputs earlier before choice history

def Point.parcel : Point → Option (Task × List ResolvedNodeOutput)
  | .picked task outputs => some (task, outputs)
  | .responded (.ok ⟨_, .task task outputs⟩) => some (task, outputs)
  | _ => none

theorem Handed.later {ext : External} {settings : Settings} {admits : Config → Label → Prop} {start : Config} {task : Task}
    {outputs : List ResolvedNodeOutput} {history : List Label}
    (handed : Handed ext settings admits start task outputs history) (label : Label) :
    Handed ext settings admits start task outputs (label :: history) := by
  obtain ⟨slot, earlier, before, choice, dispatched⟩ := handed
  obtain ⟨recent, rfl⟩ := dispatched.split
  exact ⟨slot, earlier, before, choice, { dispatched with split := ⟨label :: recent, rfl⟩ }⟩

namespace Handing

variable {ext : External} {settings : Settings} {admits : Config → Label → Prop} {start c after : Config}
  {label : Label} {history : List Label}

/-- What a call of `poll_task` has chosen, and what has been dispatched. -/
structure Errand where
  chosen : Task → Prop
  handed : Task → List ResolvedNodeOutput → Prop

structure Errand.Grows (before after : Errand) : Prop where
  chosen : ∀ task, before.chosen task → after.chosen task
  handed : ∀ task outputs, before.handed task outputs → after.handed task outputs

theorem Errand.Grows.trans {first second third : Errand} (one : first.Grows second) (two : second.Grows third) :
    first.Grows third :=
  ⟨fun task chosen => two.chosen task (one.chosen task chosen),
    fun task outputs handed => two.handed task outputs (one.handed task outputs handed)⟩

def Informs (op : Op) (reply : op.Reply) (before after : Errand) : Prop :=
  match op, reply with
  | .select (.queuedTask _), .ok (some task) => after.chosen task
  | .load path, reply => ∀ task : Task, before.chosen task → task.definitionPath = path → after.handed task (task.declared reply)
  | _, _ => True

def discipline : Discipline Sig Errand where
  exec op before reply after := before.Grows after ∧ Informs op reply before after
  rely := Errand.Grows
  guarantee := fun _ _ _ => True

def assertion (slot : Slot) (point : Point) (s : Errand) : Prop :=
  slot.hosts point = true ∧ ∀ task outputs, point.parcel = some (task, outputs) → s.handed task outputs

section
variable {E A : Type} {allowed : Op → Prop} {ends : A → Prop} {program : Proc Sig E A} {s : Errand}

theorem within_bare (within : program.Within allowed ends) (s : Errand) :
    program.Holds discipline (fun value _ => ends value) (fun _ _ => True) s := by
  have stable : discipline.Stable fun _ : Errand => True := fun _ _ _ _ => trivial
  exact (within.holds stable (fun _ _ _ _ _ _ _ => ⟨trivial, trivial⟩) trivial).mono (fun _ _ ended => ended.1)
    fun _ _ _ => trivial

theorem within_handed (within : program.Within allowed ends) {task : Task} {outputs : List ResolvedNodeOutput}
    (handed : s.handed task outputs) :
    program.Holds discipline (fun value s => ends value ∧ s.handed task outputs) (fun _ _ => True) s := by
  have stable : discipline.Stable fun s : Errand => s.handed task outputs := fun _ _ moved => moved.handed task outputs
  exact (within.holds stable (fun _ _ _ _ _ mine ran => ⟨trivial, ran.1.handed task outputs mine⟩) handed).mono
    (fun _ _ ended => ended) fun _ _ _ => trivial

end

theorem bare {slot : Slot} {point : Point} (hosted : slot.hosts point = true) (plain : point.parcel = none) (s : Errand) :
    assertion slot point s := by
  refine ⟨hosted, fun task outputs carried => ?_⟩
  rw [plain] at carried
  cases carried

theorem holds_choice {E : Type} [FromSql E] (agentId : String) (s : Errand) :
    (fetch (.queuedTask agentId) : Proc Sig E (Option Task)).Holds discipline
      (fun task s => ∀ chosen, task = some chosen → s.chosen chosen) (fun _ _ => True) s := by
  intro before _ reply after ran
  refine ⟨trivial, ?_⟩
  cases reply with
  | error why => trivial
  | ok task =>
    rintro chosen rfl
    exact ran.2

theorem holds_loadOutputs {E : Type} {task : Task} {s : Errand} (chosen : s.chosen task) :
    (loadOutputs task : Proc Sig E _).Holds discipline (fun outputs s => s.handed task outputs) (fun _ _ => True) s := by
  rw [loadOutputs_eq]
  exact fun before moved reply after ran => ⟨trivial, ran.2 task (moved.chosen task chosen) rfl⟩

theorem holds_pollTask (headers : Headers) (s : Errand) :
    (pollTask ext headers).Holds discipline
      (fun answer s => ∀ task outputs, (Answer.point answer).parcel = some (task, outputs) → s.handed task outputs)
      (fun _ _ => True) s := by
  have minor : ∀ op : Op, op.minor = true → True := fun _ _ => trivial
  refine (Proc.holds_bind _ _ _).mpr ((within_bare (within_authenticateAgent (reads_of minor) ext headers) s).mono
    (fun agentId s _ => ?_) fun _ _ _ => trivial)
  refine (Proc.holds_bind _ _ _).mpr ((within_bare (within_fetch (reads_of minor) _ rfl) s).mono (fun labels s _ => ?_)
    fun _ _ _ => trivial)
  refine (Proc.holds_bind _ _ _).mpr ((holds_choice agentId s).mono (fun task s chosen => ?_) fun _ _ _ => trivial)
  cases task with
  | none => rintro task outputs ⟨⟩
  | some task =>
    refine (Proc.holds_bind _ _ _).mpr ((holds_loadOutputs (chosen task rfl)).mono (fun outputs s handed => ?_)
      fun _ _ _ => trivial)
    refine (Proc.holds_bind _ _ _).mpr ((within_handed (Proc.within_true _) handed).mono ?_ fun _ _ _ => trivial)
    rintro - s ⟨-, handed⟩ task' outputs ⟨⟩
    exact handed

theorem holds_block {n : Nat} (point : Point) (s : Errand) (holds : assertion (.request n) point s) :
    (block ext settings point).Holds discipline (assertion (.request n)) (fun why _ => why.elim) s := by
  obtain ⟨hosted, carried⟩ := holds
  have minor : ∀ op : Op, op.minor = true → True := fun _ _ => trivial
  cases point with
  | idle => exact ⟨rfl, carried⟩
  | responded response => exact ⟨rfl, carried⟩
  | received request =>
    have refused : ∀ (why : ApiError) s, assertion (.request n) (.responded (.error why)) s := fun why s => bare rfl rfl s
    by_cases polls : ∃ headers, request = .pollTask headers
    · obtain ⟨headers, rfl⟩ := polls
      refine holds_respond ((holds_pollTask headers s).mono ?_ fun why s _ => refused why s)
      exact fun answer s carried => ⟨by cases answer <;> rfl, carried⟩
    · refine holds_respond ((within_bare (within_handle ext settings request) s).mono ?_ fun why s _ => refused why s)
      intro answer s plain
      have plain := plain.resolve_left polls
      rcases answer with ⟨code, body⟩ | ⟨task, outputs⟩
      · cases body <;> first | exact bare rfl rfl s | cases plain
      · cases plain
  | picked task outputs =>
    refine holds_respond ((Proc.holds_bind _ _ _).mpr ((within_handed (within_event minor _)
      (carried _ _ rfl)).mono ?_ fun why s _ => bare rfl rfl s))
    rintro - s ⟨-, handed⟩
    refine ⟨rfl, ?_⟩
    rintro _ _ ⟨⟩
    exact handed
  | _ => cases hosted

/-! ## Runs -/

def look (ext : External) (settings : Settings) (admits : Config → Label → Prop) (start : Config) (slot : Slot)
    (history : List Label) (c : Config) : Errand where
  chosen task := ∃ agentId, Current ext settings start admits slot
    (Performs ext slot (.select (.queuedTask agentId)) (.ok (some task))) history c
  handed task outputs := Handed ext settings admits start task outputs history

def watch (n : Nat) : Watch ext settings start admits (.request n) Errand where
  view := look ext settings admits start (.request n)
  discipline _ := discipline
  assertion := assertion (.request n)

theorem look_grows {slot : Slot} (moved : step ext settings c label = some after) (here : label ≠ .resume slot)
    (stays : ∀ point, ¬Entry label slot point) :
    (look ext settings admits start slot history c).Grows (look ext settings admits start slot (label :: history) after) where
  chosen := by
    rintro task ⟨agentId, current⟩
    exact ⟨agentId, current.keep moved here stays⟩
  handed := fun task outputs handed => handed.later label

theorem watch_valid (n : Nat) :
    (watch n : Watch ext settings start admits (.request n) Errand).Valid where
  refl := fun _ s => ⟨fun _ => id, fun _ _ => id⟩
  blocks := fun point s holds => holds_block point s holds
  runs := by
    intro history c choice after op rest reply run admitted moved next ran
    have pending := pending_eq_some.mpr ⟨rest, next⟩
    refine ⟨look_grows moved (by simp) (fun _ entry => by cases entry), ?_⟩
    cases op with
    | select query =>
      cases query with
      | queuedTask agentId =>
        cases reply with
        | error why => trivial
        | ok task =>
          cases task with
          | none => trivial
          | some task => exact ⟨agentId, .now run admitted moved ⟨choice, rfl, pending, ran⟩⟩
      | _ => trivial
    | load path =>
      rintro task chosen rfl
      exact ⟨_, history, c, choice, ⟨[], rfl⟩, run, ⟨pending, .inr chosen⟩, reply, _, ran, rfl⟩
    | _ => trivial
  resumes := fun history c after point run admitted moved ended holds =>
    ⟨holds.1, fun task outputs carried => (holds.2 task outputs carried).later _⟩
  suffers := by
    intro history c label after run admitted moved notExec entry other holds
    have order : (discipline : Discipline Sig Errand).Preorder :=
      ⟨fun s => ⟨fun _ => id, fun _ _ => id⟩, fun _ _ _ first second => first.trans second⟩
    refine Thread.Holds.rely order (fun point before after moved holds => ?_) holds (look_grows moved other entry)
    exact ⟨holds.1, fun task outputs carried => moved.handed _ _ (holds.2 task outputs carried)⟩
  enters := by
    intro history c label after point run admitted moved entry
    cases entry with
    | receive _ request => exact bare rfl rfl _
    | drop _ => exact bare rfl rfl _
    | boot hostname => exact bare rfl rfl _
  idle := bare rfl rfl _

theorem carried (run : (system ext settings).Path admits start history c) {n : Nat}
    (idle : start.threads (.request n) = enter ext settings .idle) {point : Point}
    (ended : (c.threads (.request n)).code = .done point) {task : Task} {outputs : List ResolvedNodeOutput}
    (carries : point.parcel = some (task, outputs)) : Handed ext settings admits start task outputs history :=
  (Thread.Holds.at_point ((watch_valid n).sound idle run) ended).2 task outputs carries

end Handing

end PostJen.Server
