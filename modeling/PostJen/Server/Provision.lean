import PostJen.Server.Origins

/-! What the nodes of a run are provided with.

`execute_run` fills the environment of a node from three sources: the resolved
definition, the parameters of the run behind it, and the secrets before both.
A row keeps what the node had when the row was inserted.
-/

set_option autoImplicit false

open PostJen.Foundations PostJen.Core

namespace PostJen.Server

/-! ## Environments -/

private theorem lookup_foldl_insert (entries : List (Sigma fun _ : String => String)) (distinct : entries.NodupKeys)
    (env : StringMap String) (key : String) :
    (entries.foldl (fun env entry => env.insert entry.1 entry.2) env).lookup key =
      (entries.dlookup key).or (env.lookup key) := by
  induction entries generalizing env with
  | nil => rfl
  | cons entry rest ih =>
    obtain ⟨name, value⟩ := entry
    rw [List.nodupKeys_cons] at distinct
    rw [List.foldl_cons, ih distinct.2, lookup_insert_ite]
    by_cases same : key = name
    · subst same
      rw [if_pos rfl, List.dlookup_cons_eq, List.dlookup_eq_none.mpr distinct.1]
      rfl
    · rw [if_neg same, List.dlookup_cons_ne _ _ same]

theorem lookup_extendEnv (env more : StringMap String) (key : String) :
    (JobDefinition.extendEnv env more).lookup key = (more.lookup key).or (env.lookup key) :=
  lookup_foldl_insert more.entries more.nodupKeys env key

private theorem lookup_foldl_new {add : StringMap String → (Sigma fun _ : String => String) → StringMap String}
    (adds : ∀ env entry key, (add env entry).lookup key =
      (env.lookup key).or (if key = entry.1 then some entry.2 else none))
    (entries : List (Sigma fun _ : String => String)) (env : StringMap String) (key : String) :
    (entries.foldl add env).lookup key = (env.lookup key).or (entries.dlookup key) := by
  induction entries generalizing env with
  | nil => rw [List.foldl_nil, List.dlookup_nil, Option.or_none]
  | cons entry rest ih =>
    obtain ⟨name, value⟩ := entry
    rw [List.foldl_cons, ih, adds, Option.or_assoc]
    congr 1
    by_cases same : key = name
    · subst same
      rw [if_pos rfl, List.dlookup_cons_eq]
      rfl
    · rw [if_neg same, List.dlookup_cons_ne _ _ same]
      rfl

theorem lookup_injectParams (params : StringMap String) (node : ResolvedNodeDefinition) (key : String) :
    (injectParams params node).env.lookup key = (node.env.lookup key).or (params.lookup key) := by
  refine lookup_foldl_new (fun env entry key => ?_) params.entries node.env key
  split
  · rename_i value known
    by_cases same : key = entry.1
    · rw [same, known]
      rfl
    · rw [if_neg same, Option.or_none]
  · rename_i new
    rw [lookup_insert_ite]
    by_cases same : key = entry.1
    · rw [if_pos same, if_pos same, same, new]
      rfl
    · rw [if_neg same, if_neg same, Option.or_none]

/-! ## Nodes -/

def withParam (ext : External) (paramsJson : Option String) (node : ResolvedNodeDefinition) : ResolvedNodeDefinition :=
  (paramsJson.map fun json => injectParams ((ext.decodeMap json).getD ∅) node).getD node

def storedParams (ext : External) (paramsJson : Option String) : StringMap String :=
  (paramsJson.bind ext.decodeMap).getD ∅

theorem withParams_eq (ext : External) (paramsJson : Option String) (nodes : List ResolvedNodeDefinition) :
    withParams ext paramsJson nodes = nodes.map (withParam ext paramsJson) := by
  cases paramsJson with
  | none => exact (List.map_id nodes).symm
  | some json => rfl

theorem lookup_withParam (ext : External) (paramsJson : Option String) (node : ResolvedNodeDefinition) (key : String) :
    (withParam ext paramsJson node).env.lookup key =
      (node.env.lookup key).or ((storedParams ext paramsJson).lookup key) := by
  cases paramsJson with
  | none => exact (Option.or_none).symm
  | some json => exact lookup_injectParams _ _ _

theorem bare_withParam (ext : External) (paramsJson : Option String) (node : ResolvedNodeDefinition) :
    bare (withParam ext paramsJson node) = bare node := by
  cases paramsJson <;> rfl

/-- With a key, exactly the named secrets are in front of the environment. -/
theorem Injected.lookup {settings : Settings} {reveals : String → String → Prop} {node node' : ResolvedNodeDefinition}
    (injected : Injected settings reveals node node') (key : String) :
    (settings.secretKey.isSome = true ∧ key ∈ node.secrets ∧
      ∃ value, reveals key value ∧ node'.env.lookup key = some value) ∨
    ((settings.secretKey = none ∨ key ∉ node.secrets) ∧ node'.env.lookup key = node.env.lookup key) := by
  obtain ⟨-, ⟨absent, same⟩ | ⟨keyed, secrets, revealed, extended⟩⟩ := injected
  · exact .inr ⟨.inl absent, by rw [same]⟩
  · rw [extended, lookup_extendEnv]
    cases found : secrets.lookup key with
    | some value =>
      have named := (revealed.named key).mp (by rw [found]; rfl)
      exact .inl ⟨keyed, named, value, revealed.known key value found, rfl⟩
    | none =>
      refine .inr ⟨.inr fun named => ?_, rfl⟩
      have present := (revealed.named key).mpr named
      rw [found] at present
      cases present

/-- How the node of a row was resolved. -/
structure Provision where
  queued : QueuedRun
  contents : String
  definition : ResolvedJobDefinition
  paramsJson : Option String
  base : ResolvedNodeDefinition
  node : ResolvedNodeDefinition

section
variable (ext : External) (settings : Settings) (admits : Config → Label → Prop) (start : Config)

/-- Since the scheduler's block began it has read a row that holds this value under the server's key. -/
def Provides (history : List Label) (c : Config) (name value : String) : Prop :=
  ∃ key row, settings.secretKey = some key ∧
    Current ext settings start admits .scheduler (Fetches name row) history c ∧ ext.decrypt key row = .ok value

structure Provision.Valid (provision : Provision) (history : List Label) (c : Config) : Prop where
  point : (c.threads .scheduler).point = .executeRun provision.queued
  loaded : Current ext settings start admits .scheduler
    (Loads ext provision.queued provision.contents provision.definition) history c
  resolves : ext.Resolves provision.contents provision.definition
  owned : provision.definition.id = provision.queued.jobId
  params : c.state.db.Parametrizes provision.queued.id provision.paramsJson
  base : provision.base ∈ provision.definition.nodes
  injected : Injected settings (Provides ext settings admits start history c)
    (withParam ext provision.paramsJson provision.base) provision.node

structure Inserted (id : Nat) (new : NewNodeRun) (earlier : List Label) (before : Config) (history : List Label) :
    Prop where
  split : ∃ recent choice, history = recent ++ .exec .scheduler choice :: earlier ∧
    admits before (.exec .scheduler choice) ∧ ∃ after, step ext settings before (.exec .scheduler choice) = some after ∧
      after.state.db.nodeRuns.find id = some (new.row before.state.now)
  run : (system ext settings).Path admits start earlier before
  next : before.pending .scheduler = some (.write (.insertNode new))
  fresh : before.state.db.nodeRuns.find id = none

end

section
variable {ext : External} {settings : Settings} {admits : Config → Label → Prop} {start c after : Config}
  {history : List Label} (idle : ∀ slot, start.threads slot = enter ext settings .idle)
include idle

omit idle in
theorem path_keeps (run : (system ext settings).Path admits start history c) :
    start.state.db.Keeps c.state.db := by
  induction run with
  | nil => exact .refl _
  | cons _ _ moved ih => exact ih.trans (step_keeps moved)

omit idle in
theorem Inserted.keeps {id : Nat} {new : NewNodeRun} {earlier : List Label} {before : Config}
    (inserted : Inserted ext settings admits start id new earlier before history)
    (run : (system ext settings).Path admits start history c) : before.state.db.Keeps c.state.db := by
  obtain ⟨recent, choice, rfl, -⟩ := inserted.split
  have whole : (system ext settings).Path admits start ((recent ++ [.exec .scheduler choice]) ++ earlier) c := by
    rw [List.append_assoc]
    exact run
  obtain ⟨middle, first, rest⟩ := whole.parts
  cases first.unique inserted.run
  exact path_keeps rest

theorem provision_of_pending (run : (system ext settings).Path admits start history c) {choice : Choice}
    {new : NewNodeRun} (admitted : admits c (.exec .scheduler choice))
    (moved : step ext settings c (.exec .scheduler choice) = some after)
    (next : c.pending .scheduler = some (.write (.insertNode new))) :
    ∃ provision : Provision, provision.Valid ext settings admits start history c ∧
      new = newNodeRun ext provision.queued.id provision.node := by
  obtain ⟨origin, point, loaded, valid, derived, node, member, rfl⟩ :=
    (Origins.promised (idle .scheduler) run admitted moved next).inserts new rfl
  unfold Derived at derived
  rw [withParams_eq] at derived
  obtain ⟨index, inside, rfl⟩ := List.mem_iff_getElem.mp member
  have length := derived.length_eq
  rw [List.length_map] at length
  have injected := (List.forall₂_iff_get.mp derived).2 index (by rw [List.length_map, length]; exact inside) inside
  simp only [List.get_eq_getElem, List.getElem_map] at injected
  exact ⟨⟨origin.queued, origin.contents, origin.definition, origin.paramsJson,
    origin.definition.nodes[index], origin.nodes[index]⟩,
    ⟨point, loaded, valid.resolves, valid.owned, valid.params, List.getElem_mem _, injected⟩, rfl⟩

/-- Every row was inserted for a node that was provided with what its environment holds. -/
theorem path_provided (noRows : ∀ id, start.state.db.nodeRuns.find id = none)
    (run : (system ext settings).Path admits start history c) {id : Nat} {row : NodeRun}
    (found : c.state.db.nodeRuns.find id = some row) :
    ∃ (provision : Provision) (earlier : List Label) (before : Config),
      Inserted ext settings admits start id (newNodeRun ext provision.queued.id provision.node) earlier before history ∧
      provision.Valid ext settings admits start earlier before ∧
      row.snapshot = (newNodeRun ext provision.queued.id provision.node).row row.createdAt := by
  induction run generalizing id row with
  | nil =>
    rw [noRows] at found
    cases found
  | @cons history before after label run admitted moved ih =>
    -- the newest step inserted the row, or an earlier one did and this one kept its snapshot
    cases old : before.state.db.nodeRuns.find id with
    | none =>
      obtain ⟨slot, choice, new, rfl, next, -, rfl⟩ := nodeStep_new moved old found
      obtain ⟨rfl, -⟩ := inserts_of_pending idle run admitted moved next
      obtain ⟨provision, valid, rfl⟩ := provision_of_pending idle run admitted moved next
      exact ⟨provision, history, before, ⟨⟨[], choice, rfl, admitted, after, moved, found⟩, run, next, old⟩, valid, rfl⟩
    | some row' =>
      obtain ⟨provision, earlier, origin, ⟨⟨recent, choice, rfl, inserted⟩, path, next, fresh⟩, valid, snapshot⟩ := ih old
      obtain ⟨row'', found', same⟩ := (step_keeps moved).nodes id row' old
      cases found.symm.trans found'
      have stamp : row.createdAt = row'.createdAt := by
        show row.snapshot.createdAt = row'.snapshot.createdAt
        rw [same]
      exact ⟨provision, earlier, origin, ⟨⟨label :: recent, choice, rfl, inserted⟩, path, next, fresh⟩, valid,
        by rw [same, snapshot, stamp]⟩

end

end PostJen.Server
