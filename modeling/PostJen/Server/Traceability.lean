import PostJen.Server.Closing

/-! The definition hash of a run.

A run records the hash that was taken when its job was registered, while its
nodes are resolved from the file as it is when the run is executed. The record
tells what was executed as long as no load accepts other contents.
-/

set_option autoImplicit false

open PostJen.Foundations PostJen.Core

namespace PostJen.Server

def Db.Identifies (ext : External) (db : Db) (runId : Nat) (contents : String) : Prop :=
  ∃ run, db.jobRuns.find runId = some run ∧ run.definitionHash = ext.sha256Hex contents

/-- A load that accepts a definition for a run finds the contents whose hash the run records. -/
def Faithful (ext : External) (c : Config) (label : Label) : Prop :=
  ∀ queued contents definition, Loads ext queued contents definition c label c → definition.id = queued.jobId →
    c.state.db.Identifies ext queued.id contents

/-- The recorded hash identifies what a run executes, over all runs. -/
structure HashLaw (ext : External) (settings : Settings) (admits : Config → Label → Prop) (start : Config) : Prop where
  inserted : ∀ history c choice after new, (system ext settings).Path admits start history c →
    admits c (.exec .scheduler choice) → step ext settings c (.exec .scheduler choice) = some after →
    c.pending .scheduler = some (.write (.insertNode new)) →
    ∃ origin node, Inserts ext settings admits start origin node history c ∧
      new = newNodeRun ext origin.queued.id node ∧ c.state.db.Identifies ext new.jobRunId origin.contents
  rows : ∀ history c id row, (system ext settings).Path admits start history c →
    c.state.db.nodeRuns.find id = some row →
    ∃ origin node, Born ext settings admits start id origin node history c ∧
      row.snapshot = (newNodeRun ext origin.queued.id node).row row.createdAt ∧
      c.state.db.Identifies ext row.jobRunId origin.contents
  otherwise : ∀ history c choice after queued op, (system ext settings).Path admits start history c →
    admits c (.exec .scheduler choice) → step ext settings c (.exec .scheduler choice) = some after →
    (c.threads .scheduler).point = .executeRun queued → c.pending .scheduler = some op →
    op = .load queued.definitionPath ∨ Abandons queued.id op ∨ ∃ contents definition,
      Current ext settings start admits .scheduler (Loads ext queued contents definition) history c ∧
        c.state.db.Identifies ext queued.id contents
  ends : ∀ history c queued next, (system ext settings).Path admits start history c →
    (c.threads .scheduler).point = .executeRun queued → (c.threads .scheduler).code = .done next →
    (next ≠ .schedulerTick → ∃ contents definition,
      Current ext settings start admits .scheduler (Loads ext queued contents definition) history c ∧
        definition.id = queued.jobId ∧ c.state.db.Identifies ext queued.id contents) ∧
    (next = .schedulerTick → Current ext settings start admits .scheduler (FailsRun queued.id) history c)

namespace Traceability

variable {ext : External} {settings : Settings} {start c after : Config} {label : Label} {history : List Label}

theorem identifies_keeps {before after : Db} (kept : before.Keeps after) {runId : Nat} {contents : String}
    (identifies : before.Identifies ext runId contents) : after.Identifies ext runId contents := by
  obtain ⟨run, found, hash⟩ := identifies
  obtain ⟨run', found', same⟩ := kept.runs runId run found
  refine ⟨run', found', ?_⟩
  show run'.snapshot.definitionHash = _
  rw [same]
  exact hash

theorem loads_identifies (run : (system ext settings).Path (Faithful ext) start history c) {queued : QueuedRun}
    {contents : String} {definition : ResolvedJobDefinition}
    (loads : (system ext settings).Happened (Faithful ext) start (Loads ext queued contents definition) history)
    (owned : definition.id = queued.jobId) : c.state.db.Identifies ext queued.id contents := by
  refine Machine.Path.since (fun _ c => c.state.db.Identifies ext queued.id contents) run loads ?_ ?_
  · intro history before label after _ faithful moved loads
    exact identifies_keeps (step_keeps moved) (faithful queued contents definition loads owned)
  · intro history before label after _ _ moved identifies
    exact identifies_keeps (step_keeps moved) identifies

/-! ## Loads that are refused -/

def Accepts (queued : QueuedRun) : (op : Op) → op.Reply → Prop
  | .load path, reply => path = queued.definitionPath ∧
      ∃ definition : ResolvedJobDefinition, reply = .ok definition ∧ definition.id = queued.jobId
  | _, _ => False

theorem until_accepts (ext : External) (settings : Settings) (queued : QueuedRun) :
    (block ext settings (.executeRun queued)).Until (Accepts queued) (fun next => next = .schedulerTick)
      fun why => why.elim := by
  have loading : (loadForRun queued).Until (Accepts queued) (fun _ => False) fun _ => True := by
    rintro (why | definition)
    · exact .inr trivial
    · by_cases owned : definition.id = queued.jobId
      · exact .inl ⟨rfl, definition, rfl, owned⟩
      · refine .inr ?_
        dsimp only
        rw [if_pos owned]
        trivial
  have preparing : (prepareRun ext settings queued).Until (Accepts queued) (fun _ => False) fun _ => True :=
    loading.bind fun _ never => never.elim
  exact until_recover (.inr rfl) (preparing.bind fun _ never => never.elim)

/-- A preparation only leads to the loop with a definition that was loaded. -/
theorem prepared_loads (idle : ∀ slot, start.threads slot = enter ext settings .idle)
    (run : (system ext settings).Path (Faithful ext) start history c) {queued : QueuedRun} {next : Point}
    (here : (c.threads .scheduler).point = .executeRun queued) (ended : (c.threads .scheduler).code = .done next)
    (away : next ≠ .schedulerTick) : ∃ contents definition,
      Current ext settings start (Faithful ext) .scheduler (Loads ext queued contents definition) history c ∧
        definition.id = queued.jobId := by
  rcases (reached_awaits idle run (until_accepts ext settings queued) here).ended ended with home | met
  · exact absurd home away
  · have loaded : Current ext settings start (Faithful ext) .scheduler (fun before label after =>
        ∃ found : String × ResolvedJobDefinition, Loads ext queued found.1 found.2 before label after ∧
          found.2.id = queued.jobId) history c := by
      refine met.imp ?_
      rintro _ before _ after - - - ⟨choice, op, reply, rfl, there, pending, ran, accepts⟩
      cases op with
      | load path =>
        obtain ⟨rfl, definition, rfl, owned⟩ := accepts
        obtain ⟨contents, ⟨index, rfl⟩, found, resolves⟩ := run_load ran
        exact ⟨(contents, definition), ⟨⟨index, rfl⟩, there, pending, found, resolves⟩, owned⟩
      | _ => exact accepts.elim
    obtain ⟨⟨contents, definition⟩, current⟩ := loaded.exists
    obtain ⟨recent, label, earlier, before, after, -, -, -, -, -, owned⟩ := current.happened
    exact ⟨contents, definition, current.imp fun _ _ _ _ _ _ _ happens => happens.1, owned⟩

end Traceability

/-- The recorded hash identifies what is executed in the runs whose loads are faithful. -/
theorem definition_traceability (ext : External) (settings : Settings) (files : String → Option String) (clock : Nat) :
    HashLaw ext settings (Faithful ext) (Config.initial ext settings files clock) where
  inserted := by
    intro history c choice after new run admitted moved next
    have idle := Config.initial_idle ext settings files clock
    obtain ⟨-, origin, node, inserts, rfl⟩ := inserts_of_pending idle run admitted moved next
    exact ⟨origin, node, inserts, rfl,
      Traceability.loads_identifies run inserts.loaded.happened inserts.valid.owned⟩
  rows := by
    intro history c id row run found
    have idle := Config.initial_idle ext settings files clock
    obtain ⟨origin, node, born, snapshot⟩ := path_born idle (fun _ => rfl) run found
    have runId : row.jobRunId = origin.queued.id := by
      show row.snapshot.jobRunId = _
      rw [snapshot]
      rfl
    have valid := born.valid.1
    exact ⟨origin, node, born, snapshot, runId ▸ Traceability.loads_identifies run valid.loads valid.owned⟩
  otherwise := by
    intro history c choice after queued op run admitted moved point next
    have idle := Config.initial_idle ext settings files clock
    rcases (Origins.promised (idle .scheduler) run admitted moved next).prepares queued point with
      opens | abandons | ⟨contents, definition, loaded, owned⟩
    · exact .inl opens
    · exact .inr (.inl abandons)
    · exact .inr (.inr ⟨contents, definition, loaded, Traceability.loads_identifies run loaded.happened owned⟩)
  ends := by
    intro history c queued next run here ended
    have idle := Config.initial_idle ext settings files clock
    refine ⟨fun away => ?_, ?_⟩
    · obtain ⟨contents, definition, loaded, owned⟩ := Traceability.prepared_loads idle run here ended away
      exact ⟨contents, definition, loaded, owned, Traceability.loads_identifies run loaded.happened owned⟩
    · rintro rfl
      exact prepared_fails idle run here ended

/-! ## The fork, prepared and refused -/

namespace Sample

def faithful (c : Config) (_ : Label) : Bool :=
  match (c.threads .scheduler).point with
  | .executeRun queued => (c.state.files queued.definitionPath).all fun contents =>
      (c.state.db.jobRuns.find queued.id).any fun run => run.definitionHash = ext.sha256Hex contents
  | _ => true

theorem faithful_sound {c : Config} {label : Label} (checked : faithful c label = true) : Faithful ext c label := by
  rintro queued contents definition ⟨-, point, -, found, -⟩ -
  simp only [faithful, point, found, Option.all_some] at checked
  obtain ⟨run, present, hash⟩ := (Option.any_eq_true _ _).mp checked
  exact ⟨run, present, of_decide_eq_true hash⟩

theorem path_faithfully {labels : List Label} {c : Config} (followed : run faithful labels = some c) :
    (system ext settings).Path (Faithful ext) initial labels.reverse c := by
  have path : (system ext settings).Path (Faithful ext) initial (labels.reverse ++ []) c :=
    (system ext settings).follow_path (fun _ _ checked => faithful_sound checked) .nil followed
  rwa [List.append_nil] at path

def forkPrepared : List Label := started "fork.yaml" "fork" ++ block 1 ++ turns .scheduler 7

/-- The file is removed after the run was created. -/
def forkRemoved : List Label :=
  started "fork.yaml" "fork" ++ [.edit "fork.yaml" none] ++ block 1 ++ turns .scheduler 3

end Sample

/-- The fork is prepared, and once more without its file. -/
theorem definition_traceability_fork : ∃ (c c' : Config) (queued queued' : QueuedRun) (x : Execution) (row : NodeRun),
    (system Sample.ext Sample.settings).Path (Faithful Sample.ext) Sample.initial Sample.forkPrepared.reverse c ∧
    (c.threads .scheduler).code = .done (.scheduling x) ∧
    (∃ contents definition, Current Sample.ext Sample.settings Sample.initial (Faithful Sample.ext) .scheduler
      (Loads Sample.ext queued contents definition) Sample.forkPrepared.reverse c ∧
        c.state.db.Identifies Sample.ext queued.id contents) ∧
    c.state.db.nodeRuns.find 3 = some row ∧
    (∃ origin node, Born Sample.ext Sample.settings (Faithful Sample.ext) Sample.initial 3 origin node
      Sample.forkPrepared.reverse c ∧ c.state.db.Identifies Sample.ext row.jobRunId origin.contents) ∧
    (system Sample.ext Sample.settings).Path (Faithful Sample.ext) Sample.initial Sample.forkRemoved.reverse c' ∧
    (c'.threads .scheduler).code = .done .schedulerTick ∧
    Current Sample.ext Sample.settings Sample.initial (Faithful Sample.ext) .scheduler (FailsRun queued'.id)
      Sample.forkRemoved.reverse c' ∧
    (c'.state.db.jobRuns.find queued'.id).map (·.status) = some .failed := by
  have law := definition_traceability Sample.ext Sample.settings Sample.files 1000000
  have prepared : ((Sample.run Sample.faithful Sample.forkPrepared).any fun c =>
      (c.state.db.nodeRuns.find 3).isSome && (Sample.preparing (c.threads .scheduler).point).isSome &&
        (c.ended .scheduler).any fun next => (Sample.looped next).isSome) = true := by decide +kernel
  have refused : ((Sample.run Sample.faithful Sample.forkRemoved).any fun c =>
      (c.ended .scheduler).any Sample.atQueue && (Sample.preparing (c.threads .scheduler).point).any fun queued =>
        (c.state.db.jobRuns.find queued.id).map (·.status) = some .failed) = true := by decide +kernel
  obtain ⟨c, followed, stands⟩ := (Option.any_eq_true _ _).mp prepared
  simp only [Bool.and_eq_true, Option.isSome_iff_exists] at stands
  obtain ⟨⟨⟨row, found⟩, queued, here⟩, ends⟩ := stands
  obtain ⟨next, ended, loop⟩ := (Option.any_eq_true _ _).mp ends
  obtain ⟨x, loop⟩ := Option.isSome_iff_exists.mp loop
  cases Sample.looped_eq loop
  obtain ⟨c', followed', stands'⟩ := (Option.any_eq_true _ _).mp refused
  rw [Bool.and_eq_true] at stands'
  obtain ⟨next', ended', home⟩ := (Option.any_eq_true _ _).mp stands'.1
  cases Sample.atQueue_eq home
  obtain ⟨queued', here', failed⟩ := (Option.any_eq_true _ _).mp stands'.2
  have run := Sample.path_faithfully followed
  have run' := Sample.path_faithfully followed'
  obtain ⟨contents, definition, loads, -, identifies⟩ :=
    (law.ends _ c queued _ run (Sample.preparing_eq here) (ended_eq_some.mp ended)).1 (by rintro ⟨⟩)
  obtain ⟨origin, node, born, -, traced⟩ := law.rows _ c 3 row run found
  exact ⟨c, c', queued, queued', x, row, run, ended_eq_some.mp ended, ⟨contents, definition, loads, identifies⟩, found,
    ⟨origin, node, born, traced⟩, run', ended_eq_some.mp ended',
    (law.ends _ c' queued' _ run' (Sample.preparing_eq here') (ended_eq_some.mp ended')).2 rfl, of_decide_eq_true failed⟩

/-! ## An edited file -/

namespace Sample

def editedYaml : String :=
"version: 1
id: fork
name: Fork
defaults:
  working_dir: /tmp
nodes:
  - id: build
    program: ninja
"

def edited : JobDefinition where
  version := 1
  id := "fork"
  name := "Fork"
  defaults := some { workingDir := some "/tmp" }
  nodes := [{ id := "build", program := "ninja" }]

def editing : External where
  __ := ext
  parseYaml text := if text = editedYaml then .ok edited else ext.parseYaml text
  sha256Hex text :=
    if text = editedYaml then "518daffa0d8fa881087b7a221d76479849775bab46844de19bc792501b63c4d7" else sha256Hex text

/-- The file is edited after the run was created, and the run is prepared. -/
def forkEdited : List Label :=
  started "fork.yaml" "fork" ++ [.edit "fork.yaml" (some editedYaml)] ++ block 1 ++ turns .scheduler 3

theorem editing_registered {text : String} (same : editing.sha256Hex text = editing.sha256Hex forkYaml) :
    text = forkYaml := by
  have digest : editing.sha256Hex forkYaml ≠ editing.sha256Hex editedYaml ∧
      editing.sha256Hex forkYaml ≠ editing.sha256Hex remoteYaml ∧
      editing.sha256Hex forkYaml ≠ editing.sha256Hex localAgentId ∧
      editing.sha256Hex forkYaml ≠ editing.sha256Hex token ∧
      (editing.sha256Hex forkYaml).toList.head? ≠ some 's' := by decide +kernel
  obtain ⟨notEdited, notRemote, notLocal, notToken, head⟩ := digest
  by_contra other
  by_cases isEdited : text = editedYaml
  · exact notEdited (isEdited ▸ same.symm)
  by_cases isRemote : text = remoteYaml
  · exact notRemote (isRemote ▸ same.symm)
  by_cases isLocal : text = localAgentId
  · exact notLocal (isLocal ▸ same.symm)
  by_cases isToken : text = token
  · exact notToken (isToken ▸ same.symm)
  have unknown : editing.sha256Hex text = "sha256 of " ++ text := by
    simp only [editing, sha256Hex, if_neg isEdited, if_neg other, if_neg isRemote, if_neg isLocal, if_neg isToken]
  rw [← same, unknown, String.toList_append] at head
  exact head rfl

theorem fork_programs {definition : ResolvedJobDefinition} (resolved : fork.resolve = .ok definition) :
    definition.nodes.map (·.program) = ["make", "clippy", "rsync"] := by
  have programs : fork.resolve.toOption.map (fun definition => definition.nodes.map (·.program)) =
      some ["make", "clippy", "rsync"] := by decide +kernel
  rw [resolved] at programs
  exact Option.some.inj programs

end Sample

theorem definition_traceability_edited :
    ¬HashLaw Sample.editing Sample.settings everything
      (Config.initial Sample.editing Sample.settings Sample.files 1000000) := by
  intro law
  have passed : (((system Sample.editing Sample.settings).follow (fun _ _ => true)
      (Config.initial Sample.editing Sample.settings Sample.files 1000000) Sample.forkEdited).any fun c =>
        (c.state.db.nodeRuns.find 1).any fun row => row.program = "ninja" ∧
          (c.state.db.jobRuns.find row.jobRunId).map (·.definitionHash) =
            some (Sample.editing.sha256Hex Sample.forkYaml)) = true := by decide +kernel
  obtain ⟨c, followed, passed⟩ := (Option.any_eq_true _ _).mp passed
  obtain ⟨row, found, passed⟩ := (Option.any_eq_true _ _).mp passed
  obtain ⟨program, recorded⟩ := of_decide_eq_true passed
  obtain ⟨history, run⟩ := ((system Sample.editing Sample.settings).follow_reaches
    (fun _ _ _ => trivial) followed : (system _ _).Reaches everything _ c).path
  obtain ⟨origin, node, born, snapshot, jobRun, present, hash⟩ := law.rows history c 1 row run found
  rw [present] at recorded
  have isFork := Sample.editing_registered (hash.symm.trans (Option.some.inj recorded))
  obtain ⟨valid, member⟩ := born.valid
  obtain ⟨base, inside, same⟩ := valid.derived.member member
  obtain ⟨source, parsed, resolved⟩ := valid.resolves
  rw [isFork] at parsed
  have isSource : Sample.editing.parseYaml Sample.forkYaml = .ok Sample.fork := by
    simp only [Sample.editing, Sample.ext, if_neg (show Sample.forkYaml ≠ Sample.editedYaml by decide +kernel), if_pos]
  cases isSource.symm.trans parsed
  have listed : base.program ∈ ["make", "clippy", "rsync"] := by
    rw [← Sample.fork_programs resolved]
    exact List.mem_map_of_mem inside
  have runs : base.program = "ninja" := by
    rw [show base.program = (bare base).program from rfl, ← same]
    show (newNodeRun Sample.editing origin.queued.id node).program = "ninja"
    rw [← program]
    show _ = row.snapshot.program
    rw [snapshot]
    rfl
  rw [runs] at listed
  exact absurd listed (by decide)

end PostJen.Server
