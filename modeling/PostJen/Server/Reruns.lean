import PostJen.Server.Creations
import PostJen.Server.Provision
import PostJen.Server.RunLife
import PostJen.Server.Sample

/-! What a rerun runs.

A rerun has the definition of its source and no parameters. Its nodes are those
of the source as long as the parameters of the source fill in nothing.
-/

set_option autoImplicit false

open PostJen.Foundations PostJen.Core

namespace PostJen.Server

section
variable {ext : External} {settings : Settings} {admits : Config → Label → Prop} {start c after : Config}
  {history : List Label}

/-! ## The run that is executed -/

def Db.Names (db : Db) (queued : QueuedRun) : Prop :=
  ∃ run, db.jobRuns.find queued.id = some run ∧ run.jobId = queued.jobId ∧ run.definitionPath = queued.definitionPath

theorem Db.Keeps.names {before after : Db} (kept : before.Keeps after) {queued : QueuedRun}
    (names : before.Names queued) : after.Names queued := by
  obtain ⟨run, found, jobId, path⟩ := names
  obtain ⟨run', found', same⟩ := kept.runs queued.id run found
  refine ⟨run', found', ?_, ?_⟩
  · show run'.snapshot.jobId = _
    rw [same]
    exact jobId
  · show run'.snapshot.definitionPath = _
    rw [same]
    exact path

namespace Naming

def discipline (ext : External) (point : Point) : Discipline Sig State where
  exec op := op.exec ext
  rely before after := before.db.Keeps after.db
  guarantee _ before _ := ∀ queued, point = .executeRun queued → before.db.Names queued

def assertion (point : Point) (s : State) : Prop :=
  Slot.scheduler.hosts point = true ∧ ∀ queued, point = .executeRun queued → s.db.Names queued

theorem leads_executeRun {point : Point} {queued : QueuedRun} (leads : point.Leads (.executeRun queued)) :
    point = .schedulerTick := by
  cases leads
  rfl

theorem holds_block (point : Point) (s : State) (holds : assertion point s) :
    (block ext settings point).Holds (discipline ext point) assertion (fun why _ => why.elim) s := by
  obtain ⟨hosted, names⟩ := holds
  by_cases ticks : point = .schedulerTick
  · subst ticks
    refine holds_otherwise ((Proc.holds_bind _ _ _).mpr ?_)
    intro before _ reply after ran
    refine ⟨fun _ same => (by cases same), ?_⟩
    obtain ⟨rfl, ⟨why, rfl⟩ | ⟨queued, member, rfl⟩⟩ := exec_select ran
    · exact ⟨rfl, fun _ same => by cases same⟩
    · cases queued with
      | none => exact ⟨rfl, fun _ same => by cases same⟩
      | some queued =>
        refine ⟨rfl, ?_⟩
        rintro _ ⟨⟩
        obtain ⟨run, found, -, same⟩ := RunLife.mem_nextQueuedRun member
        rw [same]
        exact ⟨run, found, rfl, rfl⟩
  · have stable : (discipline ext point).Stable fun s => ∀ queued, point = .executeRun queued → s.db.Names queued :=
      fun before after kept names queued same => kept.names (names queued same)
    refine ((scheduler_within ext settings hosted).holds stable ?_ names).mono ?_ fun why => why.elim
    · exact fun op before reply after _ names ran =>
        ⟨names, fun queued same => (exec_keeps ran).names (names queued same)⟩
    · rintro next s ⟨follows, -⟩
      refine ⟨follows.1, ?_⟩
      rintro queued rfl
      exact absurd (leads_executeRun (follows.2 rfl)) ticks

def watch : Watch ext settings start admits .scheduler State where
  view _ c := c.state
  discipline := discipline ext
  assertion := assertion

theorem watch_valid : (watch : Watch ext settings start admits .scheduler State).Valid where
  refl := fun _ s => .refl s.db
  blocks := holds_block
  runs := fun _ _ choice _ _ _ _ _ _ _ _ ran => ⟨choice, ran⟩
  resumes := fun _ _ _ _ _ _ moved _ holds => ⟨holds.1, fun queued same => (step_keeps moved).names (holds.2 queued same)⟩
  suffers := by
    intro _ c _ _ _ _ moved _ _ _ holds
    have order : (discipline ext (c.threads .scheduler).point).Preorder :=
      ⟨fun s => .refl s.db, fun _ _ _ => .trans⟩
    exact Thread.Holds.rely order
      (fun _ _ _ kept holds => ⟨holds.1, fun queued same => kept.names (holds.2 queued same)⟩) holds (step_keeps moved)
  enters := by
    intro _ _ _ _ point _ _ _ entry
    cases entry
    exact ⟨rfl, fun _ same => by cases same⟩
  idle := ⟨rfl, fun _ same => by cases same⟩

end Naming

theorem path_names (idle : start.threads .scheduler = enter ext settings .idle)
    (run : (system ext settings).Path admits start history c) {choice : Choice}
    (admitted : admits c (.exec .scheduler choice)) (moved : step ext settings c (.exec .scheduler choice) = some after)
    {queued : QueuedRun} (point : (c.threads .scheduler).point = .executeRun queued) : c.state.db.Names queued := by
  have valid : (Naming.watch : Watch ext settings start admits .scheduler State).Valid := Naming.watch_valid
  obtain ⟨op, rest, reply, code, -, ran, -⟩ := step_exec moved
  exact valid.guaranteed (valid.sound idle run) run admitted moved code ran queued point

/-! ## Reruns and their sources -/

def Db.Reruns (db : Db) (id id' : Nat) : Prop :=
  ∃ row', db.jobRuns.find id' = some row' ∧ row'.rerunOfJobRunId = some id

/-- What a rerun takes from its source: its job and its definition file, and no parameters. -/
structure Retraces (db : Db) (id id' : Nat) : Prop where
  params : ∀ row', db.jobRuns.find id' = some row' → row'.paramsJson = none
  named : ∃ row row', db.jobRuns.find id = some row ∧ db.jobRuns.find id' = some row' ∧ row.jobId = row'.jobId ∧
    row.definitionPath = row'.definitionPath

def Db.Matches (db : Db) (id : Nat) (jobId definitionPath : String) : Prop :=
  ∃ row, db.jobRuns.find id = some row ∧ row.jobId = jobId ∧ row.definitionPath = definitionPath

theorem Db.Keeps.matching {before after : Db} (kept : before.Keeps after) {id : Nat} {jobId definitionPath : String}
    (holds : before.Matches id jobId definitionPath) : after.Matches id jobId definitionPath := by
  have names : before.Names ⟨id, jobId, definitionPath⟩ := holds
  exact kept.names names

theorem read_source (run : (system ext settings).Path admits start history c) {slot : Slot} {source : RunForRerun}
    (read : (system ext settings).Happened admits start
      (fun before label _ => Reads ext slot before label (.source source)) history) :
    c.state.db.Matches source.id source.jobId source.definitionPath := by
  refine Machine.Path.since (fun _ c => c.state.db.Matches source.id source.jobId source.definitionPath) run read ?_ ?_
  · rintro history before label after - - moved ⟨-, -, member⟩
    obtain ⟨row, found, same⟩ := Option.map_eq_some_iff.mp (List.mem_singleton.mp member).symm
    exact (step_keeps moved).matching ⟨row, found, by rw [← same], by rw [← same]⟩
  · exact fun history before label after _ _ moved holds => (step_keeps moved).matching holds

theorem created_rerun (idle : ∀ slot, start.threads slot = enter ext settings .idle)
    (run : (system ext settings).Path admits start history c) {id id' : Nat} {new : NewRun}
    (created : (system ext settings).Happened admits start (CreatesRun id' new) history)
    (rerun : new.rerunOfJobRunId = some id) :
    new.paramsJson = none ∧ c.state.db.Matches id new.jobId new.definitionPath := by
  refine Machine.Path.since (fun _ c => new.paramsJson = none ∧ c.state.db.Matches id new.jobId new.definitionPath)
    run created ?_ ?_
  · rintro history before label after run admitted moved ⟨slot, choice, rfl, next, -, -⟩
    have stepped : step ext settings before (.exec slot choice) = some after := moved
    have kept := step_keeps stepped
    have made := path_made (idle slot) run admitted moved next
    generalize (before.threads slot).point = point at made
    cases made with
    | rerunRun runId source read =>
      cases rerun
      exact ⟨rfl, kept.matching (read_source run read.happened)⟩
    | _ => cases rerun
  · exact fun history before label after _ _ moved holds => ⟨holds.1, (step_keeps moved).matching holds.2⟩

theorem path_retraces (idle : ∀ slot, start.threads slot = enter ext settings .idle)
    (empty : ∀ id, start.state.db.jobRuns.find id = none) (run : (system ext settings).Path admits start history c)
    {id id' : Nat} (reruns : c.state.db.Reruns id id') : Retraces c.state.db id id' := by
  obtain ⟨row', found', rerun⟩ := reruns
  obtain ⟨new, created, made⟩ := path_created empty run found'
  have columns : row'.rerunOfJobRunId = new.rerunOfJobRunId ∧ row'.paramsJson = new.paramsJson ∧
      row'.jobId = new.jobId ∧ row'.definitionPath = new.definitionPath := by
    have same : row'.snapshot = new.row row'.createdAt := made
    exact ⟨congrArg (·.rerunOfJobRunId) same, congrArg (·.paramsJson) same, congrArg (·.jobId) same,
      congrArg (·.definitionPath) same⟩
  obtain ⟨rerunOf, params, jobId, path⟩ := columns
  obtain ⟨unparametrized, row, found, sameJob, samePath⟩ := created_rerun idle run created (rerunOf.symm.trans rerun)
  refine ⟨fun other there => ?_, row, row', found, found', sameJob.trans jobId.symm, samePath.trans path.symm⟩
  cases found'.symm.trans there
  exact params.trans unparametrized

/-- A chain of reruns keeps the job and the definition file, and leaves no parameters. -/
theorem path_retraces_chain (idle : ∀ slot, start.threads slot = enter ext settings .idle)
    (empty : ∀ id, start.state.db.jobRuns.find id = none) (run : (system ext settings).Path admits start history c)
    {id id' : Nat} (chain : Relation.TransGen c.state.db.Reruns id id') : Retraces c.state.db id id' := by
  induction chain with
  | single reruns => exact path_retraces idle empty run reruns
  | tail _ reruns ih =>
    obtain ⟨row, middle, found, between, jobId, path⟩ := ih.named
    have last := path_retraces idle empty run reruns
    obtain ⟨middle', row', between', found', jobId', path'⟩ := last.named
    cases between.symm.trans between'
    exact ⟨last.params, row, row', found, found', jobId.trans jobId', path.trans path'⟩

/-! ## The nodes of a run and of its rerun -/

/-- Two nodes with the same program, arguments, directory, timeout and environment (and all other columns). -/
def SameTask (node node' : ResolvedNodeDefinition) : Prop :=
  bare node = bare node' ∧ ∀ key, node.env.lookup key = node'.env.lookup key

/-- The stored parameters fill in nothing that the node or its secrets do not set. -/
def Ineffective (ext : External) (settings : Settings) (provision : Provision) : Prop :=
  ∀ key, ((storedParams ext provision.paramsJson).lookup key).isSome = true →
    (provision.base.env.lookup key).isSome = true ∨ (settings.secretKey.isSome = true ∧ key ∈ provision.base.secrets)

def SameSecrets (ext : External) (settings : Settings) (start : Config) (earlier earlier' : List Label)
    (before before' : Config) : Prop :=
  ∀ name value value', Provides ext settings everything start earlier before name value →
    Provides ext settings everything start earlier' before' name value' → value = value'

/-- What the rows of a node tell in a run and in a rerun of it, or of a rerun of it, and so on. -/
def RerunsReproduce (ext : External) (settings : Settings) (start : Config) : Prop :=
  ∀ history c id id' row row', (system ext settings).Path everything start history c →
    c.state.db.nodeRuns.find id = some row → c.state.db.nodeRuns.find id' = some row' → row.nodeId = row'.nodeId →
    Relation.TransGen c.state.db.Reruns row.jobRunId row'.jobRunId →
    ∃ (provision provision' : Provision) (earlier earlier' : List Label) (before before' : Config),
      (Inserted ext settings everything start id (newNodeRun ext provision.queued.id provision.node) earlier before history ∧
        provision.Valid ext settings everything start earlier before ∧
        row.snapshot = (newNodeRun ext provision.queued.id provision.node).row row.createdAt) ∧
      (Inserted ext settings everything start id' (newNodeRun ext provision'.queued.id provision'.node) earlier' before' history ∧
        provision'.Valid ext settings everything start earlier' before' ∧
        row'.snapshot = (newNodeRun ext provision'.queued.id provision'.node).row row'.createdAt) ∧
      provision'.queued.definitionPath = provision.queued.definitionPath ∧
      (provision'.contents = provision.contents → SameSecrets ext settings start earlier earlier' before before' →
        (SameTask provision.node provision'.node ↔ Ineffective ext settings provision))

namespace Reruns

theorem resolves_unique {contents : String} {definition definition' : ResolvedJobDefinition}
    (first : ext.Resolves contents definition) (second : ext.Resolves contents definition') : definition = definition' := by
  obtain ⟨source, parsed, resolved⟩ := first
  obtain ⟨source', parsed', resolved'⟩ := second
  cases parsed.symm.trans parsed'
  exact Except.ok.inj (resolved.symm.trans resolved')

theorem base_unique {contents : String} {definition : ResolvedJobDefinition} (resolves : ext.Resolves contents definition)
    {base base' : ResolvedNodeDefinition} (member : base ∈ definition.nodes) (member' : base' ∈ definition.nodes)
    (same : base.id = base'.id) : base = base' := by
  obtain ⟨source, -, resolved⟩ := resolves
  have accepted : Accepted definition.nodes := ⟨source, definition, resolved, rfl⟩
  exact List.inj_on_of_nodup_map accepted.order.distinct member member' same

theorem sameTask_iff {provision provision' : Provision} {earlier earlier' : List Label} {before before' : Config}
    (valid : provision.Valid ext settings everything start earlier before)
    (valid' : provision'.Valid ext settings everything start earlier' before')
    (contents : provision'.contents = provision.contents) (sameNode : provision.node.id = provision'.node.id)
    (unparametrized : provision'.paramsJson = none)
    (secrets : SameSecrets ext settings start earlier earlier' before before') :
    SameTask provision.node provision'.node ↔ Ineffective ext settings provision := by
  have first := valid.injected.1.trans (bare_withParam _ _ _)
  have second := valid'.injected.1.trans (bare_withParam _ _ _)
  have sameBase : provision'.base = provision.base := by
    have definition : provision'.definition = provision.definition :=
      resolves_unique (contents ▸ valid'.resolves) valid.resolves
    refine base_unique valid.resolves (definition ▸ valid'.base) valid.base ?_
    have id : provision.node.id = provision.base.id := congrArg (·.id) first
    have id' : provision'.node.id = provision'.base.id := congrArg (·.id) second
    rw [← id, ← id', sameNode]
  have named : (withParam ext provision.paramsJson provision.base).secrets = provision.base.secrets :=
    congrArg (·.secrets) (bare_withParam _ _ _)
  -- key by key: secrets are the same in both, and parameters stand behind the definition's values
  have at_key : ∀ key, provision.node.env.lookup key = provision'.node.env.lookup key ↔
      (((storedParams ext provision.paramsJson).lookup key).isSome = true →
        (provision.base.env.lookup key).isSome = true ∨
          (settings.secretKey.isSome = true ∧ key ∈ provision.base.secrets)) := by
    intro key
    have injected := valid'.injected.lookup key
    rw [unparametrized, sameBase] at injected
    rcases valid.injected.lookup key with ⟨keyed, member, value, provides, found⟩ | ⟨unnamed, found⟩
    · rw [named] at member
      rcases injected with ⟨-, -, value', provides', found'⟩ | ⟨absent | unnamed, -⟩
      · refine ⟨fun _ _ => .inr ⟨keyed, member⟩, fun _ => ?_⟩
        rw [found, found', secrets key value value' provides provides']
      · rw [absent] at keyed
        cases keyed
      · exact absurd member unnamed
    · rw [named] at unnamed
      rcases injected with ⟨keyed, member, -⟩ | ⟨-, found'⟩
      · rcases unnamed with absent | unnamed
        · rw [absent] at keyed
          cases keyed
        · exact absurd member unnamed
      · rw [found, found', lookup_withParam, lookup_withParam]
        have neither : ¬(settings.secretKey.isSome = true ∧ key ∈ provision.base.secrets) := by
          rintro ⟨keyed, member⟩
          rcases unnamed with absent | unnamed
          · rw [absent] at keyed
            cases keyed
          · exact unnamed member
        have none : (storedParams ext none).lookup key = none := AList.lookup_empty key
        rw [none, Option.or_none]
        cases provision.base.env.lookup key with
        | some value => exact ⟨fun _ _ => .inl rfl, fun _ => rfl⟩
        | none =>
          cases (storedParams ext provision.paramsJson).lookup key with
          | none => exact ⟨fun _ absent => (by cases absent), fun _ => rfl⟩
          | some value =>
            refine ⟨fun same => (by cases same), fun set => ?_⟩
            rcases set rfl with absent | provided
            · cases absent
            · exact absurd provided neither
  refine ⟨fun same key => (at_key key).mp (same.2 key), fun ineffective => ⟨?_, fun key => (at_key key).mpr (ineffective key)⟩⟩
  rw [first, second, sameBase]

end Reruns

theorem reruns_reproduce (ext : External) (settings : Settings) (files : String → Option String) (clock : Nat) :
    RerunsReproduce ext settings (Config.initial ext settings files clock) := by
  intro history c id id' row row' run found found' sameNode chain
  have idle := Config.initial_idle ext settings files clock
  obtain ⟨provision, earlier, before, inserted, valid, snapshot⟩ := path_provided idle (fun _ => rfl) run found
  obtain ⟨provision', earlier', before', inserted', valid', snapshot'⟩ := path_provided idle (fun _ => rfl) run found'
  have runId : row.jobRunId = provision.queued.id := congrArg (·.jobRunId) snapshot
  have runId' : row'.jobRunId = provision'.queued.id := congrArg (·.jobRunId) snapshot'
  have nodeId : provision.node.id = provision'.node.id := by
    have first : row.nodeId = provision.node.id := congrArg (·.nodeId) snapshot
    have second : row'.nodeId = provision'.node.id := congrArg (·.nodeId) snapshot'
    rw [← first, ← second, sameNode]
  have copies := path_retraces_chain idle (fun _ => rfl) run chain
  rw [runId, runId'] at copies
  have names : ∀ {id : Nat} {provision : Provision} {earlier : List Label} {before : Config},
      Inserted ext settings everything (Config.initial ext settings files clock) id
        (newNodeRun ext provision.queued.id provision.node) earlier before history →
      provision.Valid ext settings everything (Config.initial ext settings files clock) earlier before →
      c.state.db.Names provision.queued := by
    intro id provision earlier before inserted valid
    obtain ⟨recent, choice, -, admitted, after, moved, -⟩ := inserted.split
    exact (inserted.keeps run).names (path_names (idle .scheduler) inserted.run admitted moved valid.point)
  obtain ⟨first, second, there, there', -, samePath⟩ := copies.named
  obtain ⟨_, again, -, path⟩ := names inserted valid
  cases there.symm.trans again
  obtain ⟨_, again', -, path'⟩ := names inserted' valid'
  cases there'.symm.trans again'
  have unparametrized : provision'.paramsJson = none := by
    obtain ⟨_, there'', params⟩ := (inserted'.keeps run).parametrizes valid'.params
    rw [← params]
    exact copies.params _ there''
  exact ⟨provision, provision', earlier, earlier', before, before', ⟨inserted, valid, snapshot⟩,
    ⟨inserted', valid', snapshot'⟩, path'.symm.trans (samePath.symm.trans path), fun contents secrets =>
      Reruns.sameTask_iff valid valid' contents nodeId unparametrized secrets⟩

end

/-! ## A rerun without the parameters of its source -/

namespace Sample

def releaseYaml : String :=
"version: 1
id: release
name: Release
defaults:
  working_dir: /tmp
params:
  - name: TARGET
nodes:
  - id: push
    program: rsync
"

def release : JobDefinition where
  version := 1
  id := "release"
  name := "Release"
  defaults := some { workingDir := some "/tmp" }
  params := some [⟨"TARGET", none, false⟩]
  nodes := [{ id := "push", program := "rsync" }]

def production : StringMap String := AList.insert "TARGET" "production" ∅

def releasing : External where
  __ := ext
  parseYaml text := if text = releaseYaml then .ok release else .error "missing field version"
  decodeMap text := if text = "\x7b\"TARGET\":\"production\"\x7d" then some production else none

def releaseFiles (path : String) : Option String := if path = "release.yaml" then some releaseYaml else none

/-- A run with parameters succeeds, and the row of the same node is inserted for its rerun. -/
def released : List Label :=
  [.boot "localhost"] ++ serve 0 (.registerJob "release.yaml" none) 4 ++
    serve 1 (.startRun "release" { params := some production }) 4 ++
    block 1 ++ block 5 ++ block 1 ++ block 3 ++ block 0 ++ workLocally 0 (exited 0) ++ block 1 ++ block 1 ++
    block 1 ++ block 0 ++ block 0 ++ block 3 ++ serve 2 (.rerunRun 1) 2 ++ block 1 ++ turns .scheduler 3

theorem releasing_contents {contents : String} {definition : ResolvedJobDefinition}
    (resolves : releasing.Resolves contents definition) : contents = releaseYaml := by
  obtain ⟨source, parsed, -⟩ := resolves
  simp only [releasing] at parsed
  split at parsed
  · assumption
  · cases parsed

theorem released_rows : ∃ history c row row',
    (system releasing settings).Path everything (Config.initial releasing settings releaseFiles 1000000) history c ∧
    c.state.db.nodeRuns.find 1 = some row ∧ c.state.db.nodeRuns.find 2 = some row' ∧ row.nodeId = row'.nodeId ∧
    Relation.TransGen c.state.db.Reruns row.jobRunId row'.jobRunId ∧ row.envJson ≠ none ∧ row'.envJson = none := by
  have passed : ((system releasing settings).follow (fun _ _ => true)
      (Config.initial releasing settings releaseFiles 1000000) released).any (fun c =>
        (c.state.db.jobRuns.find 2).any (fun run => run.rerunOfJobRunId = some 1) &&
          (c.state.db.nodeRuns.find 1).any fun row => (c.state.db.nodeRuns.find 2).any fun row' =>
            row.nodeId = row'.nodeId ∧ row.jobRunId = 1 ∧ row'.jobRunId = 2 ∧ row.envJson ≠ none ∧ row'.envJson = none) =
      true := by
    decide +kernel
  obtain ⟨c, followed, passed⟩ := (Option.any_eq_true _ _).mp passed
  rw [Bool.and_eq_true] at passed
  obtain ⟨run2, there, rerun⟩ := (Option.any_eq_true _ _).mp passed.1
  obtain ⟨row, found, passed⟩ := (Option.any_eq_true _ _).mp passed.2
  obtain ⟨row', found', passed⟩ := (Option.any_eq_true _ _).mp passed
  obtain ⟨sameNode, first, second, filled, unfilled⟩ := of_decide_eq_true passed
  obtain ⟨history, run⟩ := ((system releasing settings).follow_reaches
    (fun _ _ _ => trivial) followed : (system _ _).Reaches everything _ c).path
  refine ⟨history, c, row, row', run, found, found', sameNode, ?_, filled, unfilled⟩
  rw [first, second]
  exact .single ⟨run2, there, of_decide_eq_true rerun⟩

end Sample

theorem reruns_reproduce_released : ∃ history c row row',
    (system Sample.releasing Sample.settings).Path everything
      (Config.initial Sample.releasing Sample.settings Sample.releaseFiles 1000000) history c ∧
    c.state.db.nodeRuns.find 1 = some row ∧ c.state.db.nodeRuns.find 2 = some row' ∧
    ∃ (provision provision' : Provision) (earlier earlier' : List Label) (before before' : Config),
      provision'.contents = provision.contents →
      SameSecrets Sample.releasing Sample.settings (Config.initial Sample.releasing Sample.settings Sample.releaseFiles 1000000)
        earlier earlier' before before' →
      (SameTask provision.node provision'.node ↔ Ineffective Sample.releasing Sample.settings provision) := by
  obtain ⟨history, c, row, row', run, found, found', sameNode, chain, -⟩ := Sample.released_rows
  obtain ⟨provision, provision', earlier, earlier', before, before', -, -, -, same⟩ :=
    reruns_reproduce Sample.releasing Sample.settings Sample.releaseFiles 1000000 history c 1 2 row row' run found found'
      sameNode chain
  exact ⟨history, c, row, row', run, found, found', provision, provision', earlier, earlier', before, before', same⟩

theorem entries_of_lookup {map : StringMap String} (absent : ∀ key, map.lookup key = none) : map.entries = [] := by
  cases listed : map.entries with
  | nil => rfl
  | cons entry rest =>
    have found : map.entries.dlookup entry.1 = none := absent entry.1
    rw [listed, List.dlookup_cons_eq] at found
    cases found

theorem reruns_reproduce_params : ¬∀ ext settings files clock history c id id' row row',
    (system ext settings).Path everything (Config.initial ext settings files clock) history c →
    c.state.db.nodeRuns.find id = some row → c.state.db.nodeRuns.find id' = some row' → row.nodeId = row'.nodeId →
    Relation.TransGen c.state.db.Reruns row.jobRunId row'.jobRunId →
    ∃ (provision provision' : Provision) (earlier earlier' : List Label) (before before' : Config),
      (provision.Valid ext settings everything (Config.initial ext settings files clock) earlier before ∧
        row.snapshot = (newNodeRun ext provision.queued.id provision.node).row row.createdAt) ∧
      (provision'.Valid ext settings everything (Config.initial ext settings files clock) earlier' before' ∧
        row'.snapshot = (newNodeRun ext provision'.queued.id provision'.node).row row'.createdAt) ∧
      (provision'.contents = provision.contents →
        SameSecrets ext settings (Config.initial ext settings files clock) earlier earlier' before before' →
        SameTask provision.node provision'.node) := by
  intro claim
  obtain ⟨history, c, row, row', run, found, found', sameNode, chain, filled, unfilled⟩ := Sample.released_rows
  obtain ⟨provision, provision', earlier, earlier', before, before', ⟨valid, snapshot⟩, ⟨valid', snapshot'⟩, same⟩ :=
    claim _ _ _ _ _ _ _ _ _ _ run found found' sameNode chain
  have contents : provision'.contents = provision.contents :=
    (Sample.releasing_contents valid'.resolves).trans (Sample.releasing_contents valid.resolves).symm
  have sameTask := same contents (by rintro name value value' ⟨key, _, impossible, -⟩; cases impossible)
  have env : row.envJson = if provision.node.env.entries = [] then none
      else some (Sample.releasing.encodeMap provision.node.env) := congrArg (·.envJson) snapshot
  have env' : row'.envJson = if provision'.node.env.entries = [] then none
      else some (Sample.releasing.encodeMap provision'.node.env) := congrArg (·.envJson) snapshot'
  rw [unfilled] at env'
  have emptied : provision'.node.env.entries = [] := by
    by_contra entries
    rw [if_neg entries] at env'
    cases env'
  have isEmpty : provision.node.env.entries = [] := by
    refine entries_of_lookup fun key => (sameTask.2 key).trans ?_
    rw [show provision'.node.env = ∅ from AList.ext emptied, AList.lookup_empty]
  rw [env, if_pos isEmpty] at filled
  exact filled rfl

end PostJen.Server
