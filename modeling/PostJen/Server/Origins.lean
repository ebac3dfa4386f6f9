import PostJen.Server.Driving
import PostJen.Server.Preparation

/-! Where the rows of a run come from.

A row is inserted for a node that `execute_run` resolved from the contents which
the file of the definition had when this block of the scheduler loaded it.
Without such a load the block only fails the run.
-/

set_option autoImplicit false

open PostJen.Foundations PostJen.Core

namespace PostJen.Server

def External.Resolves (ext : External) (contents : String) (definition : ResolvedJobDefinition) : Prop :=
  ∃ source, ext.parseYaml contents = .ok source ∧ source.resolve = .ok definition

theorem run_load {ext : External} {path : String} {choice : Choice} {definition : ResolvedJobDefinition}
    {before after : State} (ran : (Op.load path).run ext choice before = some (.ok definition, after)) :
    ∃ contents, (∃ index, choice = .answer index) ∧ before.files path = some contents ∧
      ext.Resolves contents definition := by
  cases choice with
  | answer index =>
    simp only [Op.run, Option.some.injEq, Prod.mk.injEq] at ran
    have loaded := ran.1
    unfold loadDefinition at loaded
    split at loaded
    · cases loaded
    · rename_i contents found
      split at loaded
      · cases loaded
      · rename_i source parsed
        split at loaded
        · cases loaded
        · rename_i resolved accepted
          cases loaded
          exact ⟨contents, ⟨index, rfl⟩, found, source, parsed, accepted⟩
  | fail text => cases ran
  | _ => cases ran

/-! ## Steps of a preparation -/

/-- `execute_run` loads the definition of a run from these contents. -/
def Loads (ext : External) (queued : QueuedRun) (contents : String) (definition : ResolvedJobDefinition)
    (before : Config) (label : Label) (_ : Config) : Prop :=
  (∃ index, label = .exec .scheduler (.answer index)) ∧ (before.threads .scheduler).point = .executeRun queued ∧
    before.pending .scheduler = some (.load queued.definitionPath) ∧
    before.state.files queued.definitionPath = some contents ∧ ext.Resolves contents definition

def Reveals (ext : External) (settings : Settings) (name value : String) (before : Config) (label : Label)
    (_ : Config) : Prop :=
  (∃ choice, label = .exec .scheduler choice) ∧ before.pending .scheduler = some (.select (.secret name)) ∧
    ∃ key row, settings.secretKey = some key ∧ some row ∈ (Select.secret name).answers before.state.db ∧
      ext.decrypt key row = .ok value

def Fetches (name : String) (row : EncryptedSecret) (before : Config) (label : Label) (_ : Config) : Prop :=
  (∃ index, label = .exec .scheduler (.answer index)) ∧ before.pending .scheduler = some (.select (.secret name)) ∧
    some row ∈ (Select.secret name).answers before.state.db

def Abandons (runId : Nat) (op : Op) : Prop :=
  ∃ reason, op = .write (.updateJob runId (.failBeforeStart reason)) ∨
    op = .write (.event ⟨runId, none, .job, some JobStatus.queued.text, some JobStatus.failed.text, some reason⟩)

/-- How the nodes of a run were obtained. -/
structure Resolution where
  queued : QueuedRun
  contents : String
  definition : ResolvedJobDefinition
  paramsJson : Option String
  nodes : List ResolvedNodeDefinition

namespace Origins

structure Sight where
  state : State
  loaded : QueuedRun → String → ResolvedJobDefinition → Prop
  loads : QueuedRun → String → ResolvedJobDefinition → Prop
  fetched : String → EncryptedSecret → Prop
  reveals : String → String → Prop

def Sight.provides (ext : External) (settings : Settings) (s : Sight) (name value : String) : Prop :=
  ∃ key row, settings.secretKey = some key ∧ s.fetched name row ∧ ext.decrypt key row = .ok value

structure Sight.Later (before after : Sight) : Prop where
  rows : before.state.db.Keeps after.state.db
  loads : ∀ queued contents definition, before.loads queued contents definition → after.loads queued contents definition
  reveals : ∀ name value, before.reveals name value → after.reveals name value

structure Sight.Onward (before after : Sight) : Prop extends before.Later after where
  loaded : ∀ queued contents definition, before.loaded queued contents definition → after.loaded queued contents definition
  fetched : ∀ name row, before.fetched name row → after.fetched name row

theorem Sight.Onward.refl (s : Sight) : s.Onward s where
  rows := .refl _
  loads := fun _ _ _ holds => holds
  reveals := fun _ _ holds => holds
  loaded := fun _ _ _ holds => holds
  fetched := fun _ _ holds => holds

theorem Sight.Onward.trans {first second third : Sight} (one : first.Onward second) (two : second.Onward third) :
    first.Onward third where
  rows := one.rows.trans two.rows
  loads := fun _ _ _ holds => two.loads _ _ _ (one.loads _ _ _ holds)
  reveals := fun _ _ holds => two.reveals _ _ (one.reveals _ _ holds)
  loaded := fun _ _ _ holds => two.loaded _ _ _ (one.loaded _ _ _ holds)
  fetched := fun _ _ holds => two.fetched _ _ (one.fetched _ _ holds)

theorem Sight.Onward.provides {before after : Sight} (onward : before.Onward after) {ext : External} {settings : Settings}
    {name value : String} (holds : before.provides ext settings name value) : after.provides ext settings name value := by
  obtain ⟨key, row, keyed, fetched, decrypts⟩ := holds
  exact ⟨key, row, keyed, onward.fetched _ _ fetched, decrypts⟩

end Origins

open Origins (Sight)

structure Resolution.Valid (ext : External) (settings : Settings) (origin : Resolution) (s : Sight) : Prop where
  loads : s.loads origin.queued origin.contents origin.definition
  resolves : ext.Resolves origin.contents origin.definition
  owned : origin.definition.id = origin.queued.jobId
  params : s.state.db.Parametrizes origin.queued.id origin.paramsJson
  derived : Derived ext settings origin.paramsJson s.reveals origin.definition origin.nodes

theorem Resolution.Valid.later {ext : External} {settings : Settings} {origin : Resolution} {before after : Sight}
    (valid : origin.Valid ext settings before) (later : before.Later after) : origin.Valid ext settings after where
  loads := later.loads _ _ _ valid.loads
  resolves := valid.resolves
  owned := valid.owned
  params := later.rows.parametrizes valid.params
  derived := valid.derived.imp fun _ _ injected => injected.mono later.reveals

/-- The loop runs the nodes of a resolution, and every node has its row. -/
def Execution.Stems (ext : External) (settings : Settings) (s : Sight) (x : Execution) : Prop :=
  (∃ origin : Resolution, origin.Valid ext settings s ∧ x.run = origin.queued ∧ x.nodes = origin.nodes) ∧
    x.Recorded ext s.state.db

def Point.Stems (ext : External) (settings : Settings) (s : Sight) : Point → Prop
  | .scheduling x | .pass x _ _ | .waiting x | .polling x _ | .finalizing x => x.Stems ext settings s
  | _ => True

namespace Origins

variable {ext : External} {settings : Settings} {admits : Config → Label → Prop} {start c after : Config}
  {label : Label} {history : List Label}

theorem stems_later {point : Point} {before after : Sight} (stems : point.Stems ext settings before)
    (later : before.Later after) : point.Stems ext settings after := by
  have execution : ∀ x : Execution, x.Stems ext settings before → x.Stems ext settings after := by
    rintro x ⟨⟨origin, valid, same⟩, recorded⟩
    exact ⟨⟨origin, valid.later later, same⟩, recorded.keeps later.rows⟩
  cases point <;> first | exact execution _ stems | trivial

theorem stems_follows {point next : Point} {s : Sight} (stems : point.Stems ext settings s)
    (leads : point.Leads next) (unprepared : ∀ queued, point ≠ .executeRun queued) : next.Stems ext settings s := by
  cases leads with
  | prepare queued nodes nodeIds => exact absurd rfl (unprepared queued)
  | visit x x' newlyQueued newlyQueued' node todo visits => cases visits <;> exact stems
  | _ => first | exact stems | trivial

/-! ## Promises -/

structure Promise (ext : External) (settings : Settings) (point : Point) (op : Op) (s : Sight) : Prop where
  inserts : ∀ new, op = .write (.insertNode new) → ∃ origin : Resolution, point = .executeRun origin.queued ∧
    s.loaded origin.queued origin.contents origin.definition ∧ origin.Valid ext settings s ∧
    Derived ext settings origin.paramsJson (s.provides ext settings) origin.definition origin.nodes ∧
    ∃ node ∈ origin.nodes, new = newNodeRun ext origin.queued.id node
  prepares : ∀ queued, point = .executeRun queued → op = .load queued.definitionPath ∨ Abandons queued.id op ∨
    ∃ contents definition, s.loaded queued contents definition ∧ definition.id = queued.jobId

def Learns (ext : External) (settings : Settings) (point : Point) (op : Op) (reply : op.Reply) (before after : Sight) :
    Prop :=
  match op, reply with
  | .load path, .ok definition => ∀ queued, point = .executeRun queued → path = queued.definitionPath →
      ∃ contents, ext.Resolves contents definition ∧ after.loaded queued contents definition ∧
        after.loads queued contents definition
  | .select (.secret name), .ok (some row) => after.fetched name row ∧ ∀ key value, settings.secretKey = some key →
      ext.decrypt key row = .ok value → after.reveals name value
  | _, _ => before.Onward after

def discipline (ext : External) (settings : Settings) (point : Point) : Discipline Sig Sight where
  exec op before reply after :=
    op.exec ext before.state reply after.state ∧ before.Onward after ∧ Learns ext settings point op reply before after
  rely := Sight.Onward
  guarantee op before _ := Promise ext settings point op before

theorem sees (point : Point) : Sees ext Sight.state (discipline ext settings point) where
  ran := fun _ _ _ _ ran => ran.1
  keeps := fun _ _ onward => onward.rows

theorem kept {point : Point} {quiet : Op → Prop} (fact : Sight → Prop)
    (stays : ∀ before after : Sight, before.Onward after → fact before → fact after) :
    (discipline ext settings point).Kept quiet fact where
  stable := stays
  frame := fun _ before _ after _ ran => stays before after ran.2.1

def Spares (op : Op) : Prop := ∀ new, op ≠ .write (.insertNode new)

theorem spares_minor {op : Op} (minor : op.minor = true) : Spares op := by
  rintro new rfl
  cases minor

/-- The origin of the definition that a preparation has loaded. -/
def Source (ext : External) (queued : QueuedRun) (definition : ResolvedJobDefinition) (s : Sight) : Prop :=
  ∃ contents, ext.Resolves contents definition ∧ s.loaded queued contents definition ∧ s.loads queued contents definition

section
variable {point : Point} {s : Sight}

theorem holds_failed {queued : QueuedRun} (reason : String) {ends : Prop} (now : ends) :
    (failRunBeforeStart queued.id reason).Holds (discipline ext settings (.executeRun queued))
      (fun _ _ => ends) (fun _ _ => ends) s := by
  have within : (failRunBeforeStart queued.id reason).Within (Abandons queued.id) fun _ => True :=
    (within_run ⟨reason, .inl rfl⟩).bind fun _ _ => within_run ⟨reason, .inr rfl⟩
  have stable : (discipline ext settings (.executeRun queued)).Stable fun _ => ends := fun _ _ _ holds => holds
  refine (within.holds stable (fun op before reply after abandons holds _ => ⟨⟨?_, ?_⟩, holds⟩) now).mono
    (fun _ _ ended => ended.2) fun _ _ ended => ended
  · rintro new rfl
    obtain ⟨_, impossible | impossible⟩ := abandons <;> cases impossible
  · rintro other same
    cases same
    exact .inr (.inl abandons)

theorem holds_prepareRun (queued : QueuedRun) :
    (prepareRun ext settings queued).Holds (discipline ext settings (.executeRun queued))
      (fun x s => x.Stems ext settings s) (fun _ _ => True) s := by
  have source : ∀ definition, (discipline ext settings (.executeRun queued)).Kept Unloading (Source ext queued definition) :=
    fun definition => kept _ fun before after onward =>
      fun ⟨contents, resolves, loaded, loads⟩ =>
        ⟨contents, resolves, onward.loaded _ _ _ loaded, onward.loads _ _ _ loads⟩
  have shown : ∀ name value, (discipline ext settings (.executeRun queued)).Kept Unloading
      (fun s : Sight => s.provides ext settings name value ∧ s.reveals name value) :=
    fun name value => kept _ fun before after onward holds => ⟨onward.provides holds.1, onward.reveals name value holds.2⟩
  have revealed : ∀ {s : Sight} {paramsJson definition nodes}, Derived ext settings paramsJson
      (fun name value => s.provides ext settings name value ∧ s.reveals name value) definition nodes →
      Derived ext settings paramsJson s.reveals definition nodes :=
    fun derived => derived.imp fun _ _ injected => injected.mono fun _ _ holds => holds.2
  have spared : ∀ definition op before reply after, Spares op → Source ext queued definition before →
      definition.id = queued.jobId → (discipline ext settings (.executeRun queued)).exec op before reply after →
      (discipline ext settings (.executeRun queued)).guarantee op before after := by
    rintro definition op before reply after spares ⟨contents, -, loaded, -⟩ owned -
    refine ⟨fun new same => absurd same (spares new), fun other same => ?_⟩
    cases same
    exact .inr (.inr ⟨contents, definition, loaded, owned⟩)
  refine (Sees.holds_prepareRun (sees _) (fun op minor => spares_minor minor) (fun _ _ same => by cases same) source ?_ spared
    (fun _ same => by cases same) shown ?_ ?_ ?_).mono ?_ fun _ _ _ => trivial
  · refine fun before reply after _ => ⟨fun _ same => by (cases same), fun other same => ?_⟩
    cases same
    exact .inl rfl
  · exact fun key name row value before after keyed decrypts ran =>
      ⟨⟨key, row, keyed, ran.2.2.1, decrypts⟩, ran.2.2.2 key value keyed decrypts⟩
  · exact fun before definition after ran => ran.2.2 queued rfl rfl
  · rintro definition paramsJson nodes before ⟨contents, resolves, loaded, loads⟩ owned params derived node member
      reply after -
    refine ⟨fun new same => ?_, fun other same => ?_⟩
    · cases same
      exact ⟨⟨queued, contents, definition, paramsJson, nodes⟩, rfl, loaded,
        ⟨loads, resolves, owned, params, revealed derived⟩,
        derived.imp fun _ _ injected => injected.mono fun _ _ holds => holds.1, node, member, rfl⟩
    · cases same
      exact .inr (.inr ⟨contents, definition, loaded, owned⟩)
  · rintro x s ⟨definition, ⟨contents, resolves, loaded, loads⟩, prepared⟩
    obtain ⟨nodes, nodeIds, rfl⟩ := prepared.begun
    obtain ⟨paramsJson, params, derived⟩ := prepared.derived
    exact ⟨⟨⟨queued, contents, definition, paramsJson, nodes⟩, ⟨loads, resolves, prepared.owned, params, revealed derived⟩,
      rfl, rfl⟩, prepared.recorded⟩

def assertion (ext : External) (settings : Settings) (point : Point) (s : Sight) : Prop :=
  Slot.scheduler.hosts point = true ∧ point.Stems ext settings s

theorem holds_block (point : Point) (s : Sight) (holds : assertion ext settings point s) :
    (block ext settings point).Holds (discipline ext settings point) (assertion ext settings)
      (fun why _ => why.elim) s := by
  obtain ⟨hosted, stems⟩ := holds
  by_cases prepares : ∃ queued, point = .executeRun queued
  · obtain ⟨queued, rfl⟩ := prepares
    refine holds_recover (fun _ => True) (fun s reason _ => ?_) ((Proc.holds_bind _ _ _).mpr
      ((holds_prepareRun queued).mono ?_ fun _ _ _ => trivial))
    · exact (holds_failed reason trivial).mono (fun _ _ _ => ⟨rfl, trivial⟩) fun _ _ _ => ⟨rfl, trivial⟩
    · exact fun x s stems => ⟨rfl, stems⟩
  · have unprepared : ∀ queued, point ≠ .executeRun queued := fun queued same => prepares ⟨queued, same⟩
    have within := scheduler_within ext settings hosted
    have stable : (discipline ext settings point).Stable fun s => point.Stems ext settings s :=
      fun _ _ onward stems => stems_later stems onward.toLater
    refine (within.holds stable (fun op before reply after may stems ran => ⟨⟨?_, ?_⟩, stems_later stems ran.2.1.toLater⟩)
      stems).mono ?_ fun why => why.elim
    · rintro new rfl
      cases point <;> first | exact absurd rfl (unprepared _) | cases may
    · exact fun queued same => absurd same (unprepared queued)
    · rintro next s ⟨follows, stems⟩
      exact ⟨follows.1, stems_follows stems (follows.2 rfl) unprepared⟩

end

/-! ## Runs -/

variable (ext settings admits start) in
def glance (history : List Label) (c : Config) : Sight where
  state := c.state
  loaded queued contents definition :=
    Current ext settings start admits .scheduler (Loads ext queued contents definition) history c
  loads queued contents definition :=
    (system ext settings).Happened admits start (Loads ext queued contents definition) history
  fetched name row := Current ext settings start admits .scheduler (Fetches name row) history c
  reveals name value := (system ext settings).Happened admits start (Reveals ext settings name value) history

theorem glance_later (moved : step ext settings c label = some after) :
    (glance ext settings admits start history c).Later (glance ext settings admits start (label :: history) after) where
  rows := step_keeps moved
  loads := fun _ _ _ happened => happened.later _
  reveals := fun _ _ happened => happened.later _

theorem glance_onward (moved : step ext settings c label = some after) (here : label ≠ .resume .scheduler)
    (stays : ∀ point, ¬Entry label .scheduler point) :
    (glance ext settings admits start history c).Onward (glance ext settings admits start (label :: history) after) where
  toLater := glance_later moved
  loaded := fun _ _ _ current => current.keep moved here stays
  fetched := fun _ _ current => current.keep moved here stays

def watch : Watch ext settings start admits .scheduler Sight where
  view := glance ext settings admits start
  discipline := discipline ext settings
  assertion := assertion ext settings

theorem learns (run : (system ext settings).Path admits start history c) {choice : Choice} {op : Op}
    {reply : op.Reply} (admitted : admits c (.exec .scheduler choice))
    (moved : step ext settings c (.exec .scheduler choice) = some after) (next : c.pending .scheduler = some op)
    (ran : op.run ext choice c.state = some (reply, after.state)) :
    Learns ext settings (c.threads .scheduler).point op reply (glance ext settings admits start history c)
      (glance ext settings admits start (.exec .scheduler choice :: history) after) := by
  have onward : (glance ext settings admits start history c).Onward
      (glance ext settings admits start (.exec .scheduler choice :: history) after) :=
    glance_onward moved (by simp) (fun _ entry => by cases entry)
  cases op with
  | load path =>
    cases reply with
    | error why => exact onward
    | ok definition =>
      rintro queued point rfl
      obtain ⟨contents, answered, found, resolves⟩ := run_load ran
      have loads : Loads ext queued contents definition c (.exec .scheduler choice) after := by
        obtain ⟨index, rfl⟩ := answered
        exact ⟨⟨index, rfl⟩, point, next, found, resolves⟩
      exact ⟨contents, resolves, .now run admitted moved loads, run.happens admitted moved loads⟩
  | select query =>
    cases query with
    | secret name =>
      cases reply with
      | error why => exact onward
      | ok row =>
        cases row with
        | none => exact onward
        | some row =>
          obtain ⟨index, rfl⟩ : ∃ index, choice = .answer index := by
            cases choice with
            | answer index => exact ⟨index, rfl⟩
            | _ => cases ran
          obtain ⟨-, ⟨why, impossible⟩ | ⟨answer, member, same⟩⟩ := exec_select ⟨.answer index, ran⟩
          · cases impossible
          · cases same
            exact ⟨.now run admitted moved ⟨⟨index, rfl⟩, next, member⟩, fun key value keyed decrypts =>
              run.happens admitted moved ⟨⟨.answer index, rfl⟩, next, key, row, keyed, member, decrypts⟩⟩
    | _ => exact onward
  | _ => exact onward

theorem watch_valid : (watch : Watch ext settings start admits .scheduler Sight).Valid where
  refl := fun _ s => .refl s
  blocks := fun point s holds => holds_block point s holds
  runs := fun history c choice after op rest reply run admitted moved next ran =>
    ⟨⟨choice, ran⟩, glance_onward moved (by simp) (fun _ entry => by cases entry),
      learns run admitted moved (pending_eq_some.mpr ⟨rest, next⟩) ran⟩
  resumes := fun _ _ _ _ _ _ moved _ holds => ⟨holds.1, stems_later holds.2 (glance_later moved)⟩
  suffers := by
    intro history c label after run admitted moved notExec entry other holds
    have order : ∀ point, (discipline ext settings point).Preorder := fun point =>
      ⟨Sight.Onward.refl, fun _ _ _ => Sight.Onward.trans⟩
    exact Thread.Holds.rely (order _) (fun _ _ _ onward holds => ⟨holds.1, stems_later holds.2 onward.toLater⟩) holds
      (glance_onward moved other entry)
  enters := by
    intro history c label after point _ _ _ entry
    cases entry
    exact ⟨rfl, trivial⟩
  idle := ⟨rfl, trivial⟩

section
variable (idle : start.threads .scheduler = enter ext settings .idle)
include idle

theorem promised (run : (system ext settings).Path admits start history c) {choice : Choice} {op : Op}
    (admitted : admits c (.exec .scheduler choice)) (moved : step ext settings c (.exec .scheduler choice) = some after)
    (next : c.pending .scheduler = some op) :
    Promise ext settings (c.threads .scheduler).point op (glance ext settings admits start history c) := by
  have valid : (watch : Watch ext settings start admits .scheduler Sight).Valid := watch_valid
  obtain ⟨op', rest, reply, code, next', ran, -⟩ := step_exec moved
  cases next.symm.trans next'
  exact valid.guaranteed (valid.sound idle run) run admitted moved code ran

theorem ended_stems (run : (system ext settings).Path admits start history c) {point : Point}
    (ended : c.ended .scheduler = some point) : point.Stems ext settings (glance ext settings admits start history c) := by
  have valid : (watch : Watch ext settings start admits .scheduler Sight).Valid := watch_valid
  exact ((valid.sound idle run).at_point (ended_eq_some.mp ended)).2

end

end Origins

/-! ## Rows -/

variable (ext : External) (settings : Settings) (admits : Config → Label → Prop) (start : Config)

/-- `execute_run` inserts the row of a node that it has just resolved. -/
structure Inserts (origin : Resolution) (node : ResolvedNodeDefinition) (history : List Label) (c : Config) : Prop where
  point : (c.threads .scheduler).point = .executeRun origin.queued
  loaded : Current ext settings start admits .scheduler (Loads ext origin.queued origin.contents origin.definition) history c
  valid : origin.Valid ext settings (Origins.glance ext settings admits start history c)
  member : node ∈ origin.nodes
  next : c.pending .scheduler = some (.write (.insertNode (newNodeRun ext origin.queued.id node)))

/-- The row of this id was inserted for this node. -/
inductive Born (id : Nat) (origin : Resolution) (node : ResolvedNodeDefinition) : List Label → Config → Prop where
  | insert {history : List Label} {before after : Config} {choice : Choice}
      (run : (system ext settings).Path admits start history before)
      (admitted : admits before (.exec .scheduler choice))
      (moved : step ext settings before (.exec .scheduler choice) = some after)
      (inserts : Inserts ext settings admits start origin node history before)
      (fresh : before.state.db.nodeRuns.find id = none) (present : after.state.db.nodeRuns.find id ≠ none) :
      Born id origin node (.exec .scheduler choice :: history) after
  | keep {history : List Label} {before after : Config} {label : Label} (born : Born id origin node history before)
      (moved : step ext settings before label = some after) : Born id origin node (label :: history) after

variable {ext settings admits start} {c after : Config} {label : Label} {history : List Label}

theorem Born.valid {id : Nat} {origin : Resolution} {node : ResolvedNodeDefinition}
    (born : Born ext settings admits start id origin node history c) :
    origin.Valid ext settings (Origins.glance ext settings admits start history c) ∧ node ∈ origin.nodes := by
  induction born with
  | insert run admitted moved inserts _ _ =>
    exact ⟨inserts.valid.later (Origins.glance_later moved), inserts.member⟩
  | keep _ moved ih => exact ⟨ih.1.later (Origins.glance_later moved), ih.2⟩

section
variable (idle : ∀ slot, start.threads slot = enter ext settings .idle)
include idle

theorem inserts_of_pending (run : (system ext settings).Path admits start history c) {slot : Slot} {choice : Choice}
    {new : NewNodeRun} (admitted : admits c (.exec slot choice))
    (moved : step ext settings c (.exec slot choice) = some after)
    (next : c.pending slot = some (.write (.insertNode new))) :
    slot = .scheduler ∧ ∃ origin node, Inserts ext settings admits start origin node history c ∧
      new = newNodeRun ext origin.queued.id node := by
  have placed := reached_placed idle run.reaches
  have prepares : ∃ queued, (c.threads slot).point = .executeRun queued := by
    have may := placed.pending next
    generalize (c.threads slot).point = point at may
    cases point <;> first | exact ⟨_, rfl⟩ | cases may
  have isScheduler : slot = .scheduler := by
    obtain ⟨queued, same⟩ := prepares
    have hosted := (placed slot).1
    rw [same] at hosted
    cases slot <;> first | rfl | cases hosted
  subst isScheduler
  obtain ⟨origin, atPoint, loaded, valid, -, node, member, rfl⟩ :=
    (Origins.promised (idle .scheduler) run admitted moved next).inserts new rfl
  exact ⟨rfl, origin, node, ⟨atPoint, loaded, valid, member, next⟩, rfl⟩

/-- Every row was inserted for a node of its run, and its other columns still say so. -/
theorem path_born (noRows : ∀ id, start.state.db.nodeRuns.find id = none)
    (run : (system ext settings).Path admits start history c) {id : Nat} {row : NodeRun}
    (found : c.state.db.nodeRuns.find id = some row) :
    ∃ origin node, Born ext settings admits start id origin node history c ∧
      row.snapshot = (newNodeRun ext origin.queued.id node).row row.createdAt := by
  -- a row is born at the INSERT, and no UPDATE writes the columns that tell its origin
  induction run generalizing id row with
  | nil =>
    rw [noRows] at found
    cases found
  | @cons history before after label run admitted moved ih =>
    cases old : before.state.db.nodeRuns.find id with
    | none =>
      obtain ⟨slot, choice, new, rfl, next, -, rfl⟩ := nodeStep_new moved old found
      obtain ⟨rfl, origin, node, inserts, rfl⟩ := inserts_of_pending idle run admitted moved next
      exact ⟨origin, node, .insert run admitted moved inserts old (by rw [found]; simp), rfl⟩
    | some row' =>
      obtain ⟨origin, node, born, snapshot⟩ := ih old
      obtain ⟨row'', found', same⟩ := (step_keeps moved).nodes id row' old
      cases found.symm.trans found'
      have stamp : row.createdAt = row'.createdAt := by
        show row.snapshot.createdAt = row'.snapshot.createdAt
        rw [same]
      exact ⟨origin, node, born.keep moved, by rw [same, snapshot, stamp]⟩

end

end PostJen.Server
