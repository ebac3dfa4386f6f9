import PostJen.Server.Snapshot

/-! How `execute_run` prepares a run.

The nodes come from one load of the definition; parameters and secrets only
change their environments, and every node gets the row that is inserted for it.
What is known of the definition when it is loaded is still known at every INSERT.
-/

set_option autoImplicit false

open PostJen.Foundations PostJen.Core

namespace PostJen.Server

def bare (node : ResolvedNodeDefinition) : ResolvedNodeDefinition := { node with env := ∅ }

structure Revealed (reveals : String → String → Prop) (names : List String) (secrets : StringMap String) : Prop where
  named : ∀ name, (secrets.lookup name).isSome = true ↔ name ∈ names
  known : ∀ name value, secrets.lookup name = some value → reveals name value

def Injected (settings : Settings) (reveals : String → String → Prop) (node node' : ResolvedNodeDefinition) : Prop :=
  bare node' = bare node ∧
    ((settings.secretKey = none ∧ node'.env = node.env) ∨
      (settings.secretKey.isSome = true ∧ ∃ secrets, Revealed reveals node.secrets secrets ∧
        node'.env = JobDefinition.extendEnv node.env secrets))

def Derived (ext : External) (settings : Settings) (paramsJson : Option String) (reveals : String → String → Prop)
    (definition : ResolvedJobDefinition) (nodes : List ResolvedNodeDefinition) : Prop :=
  List.Forall₂ (Injected settings reveals) (withParams ext paramsJson definition.nodes) nodes

def Unloading (op : Op) : Prop := ∀ path, op ≠ .load path

/-- What a discipline shows of the server's state. -/
structure Sees (ext : External) {S : Type} (state : S → State) (D : Discipline Sig S) : Prop where
  ran : ∀ op before reply after, D.exec op before reply after → op.exec ext (state before) reply (state after)
  keeps : ∀ before after, D.rely before after → (state before).db.Keeps (state after).db

def Db.Parametrizes (db : Db) (runId : Nat) (paramsJson : Option String) : Prop :=
  ∃ run, db.jobRuns.find runId = some run ∧ run.paramsJson = paramsJson

theorem Db.Keeps.parametrizes {before after : Db} (kept : before.Keeps after) {runId : Nat}
    {paramsJson : Option String} (holds : before.Parametrizes runId paramsJson) :
    after.Parametrizes runId paramsJson := by
  obtain ⟨run, found, rfl⟩ := holds
  obtain ⟨run', found', same⟩ := kept.runs runId run found
  exact ⟨run', found', show run'.snapshot.paramsJson = run.snapshot.paramsJson by rw [same]⟩

theorem Revealed.insert {reveals : String → String → Prop} {names : List String} {secrets : StringMap String}
    (revealed : Revealed reveals names secrets) {name value : String} (known : reveals name value) :
    Revealed reveals (names ++ [name]) (secrets.insert name value) where
  named := by
    intro other
    rw [lookup_insert_ite, List.mem_append, List.mem_singleton, ← revealed.named]
    split <;> simp [*]
  known := by
    intro other found there
    rw [lookup_insert_ite] at there
    split at there
    · rename_i same
      cases there
      rw [same]
      exact known
    · exact revealed.known other found there

theorem Revealed.mono {reveals wider : String → String → Prop} (sub : ∀ name value, reveals name value → wider name value)
    {names : List String} {secrets : StringMap String} (revealed : Revealed reveals names secrets) :
    Revealed wider names secrets :=
  ⟨revealed.named, fun name value found => sub name value (revealed.known name value found)⟩

theorem Injected.mono {settings : Settings} {reveals wider : String → String → Prop}
    (sub : ∀ name value, reveals name value → wider name value) {node node' : ResolvedNodeDefinition}
    (injected : Injected settings reveals node node') : Injected settings wider node node' := by
  obtain ⟨same, ⟨absent, env⟩ | ⟨keyed, secrets, revealed, env⟩⟩ := injected
  · exact ⟨same, .inl ⟨absent, env⟩⟩
  · exact ⟨same, .inr ⟨keyed, secrets, revealed.mono sub, env⟩⟩

theorem Derived.bare_eq {ext : External} {settings : Settings} {paramsJson : Option String}
    {reveals : String → String → Prop} {definition : ResolvedJobDefinition} {nodes : List ResolvedNodeDefinition}
    (derived : Derived ext settings paramsJson reveals definition nodes) :
    nodes.map bare = definition.nodes.map bare := by
  have params : (withParams ext paramsJson definition.nodes).map bare = definition.nodes.map bare := by
    unfold withParams
    cases paramsJson with
    | none => rfl
    | some json => rw [List.map_map]; rfl
  rw [← params]
  unfold Derived at derived
  generalize withParams ext paramsJson definition.nodes = given at derived
  induction derived with
  | nil => rfl
  | cons injected _ ih => rw [List.map_cons, List.map_cons, injected.1, ih]

theorem Derived.member {ext : External} {settings : Settings} {paramsJson : Option String}
    {reveals : String → String → Prop} {definition : ResolvedJobDefinition} {nodes : List ResolvedNodeDefinition}
    (derived : Derived ext settings paramsJson reveals definition nodes) {node : ResolvedNodeDefinition}
    (member : node ∈ nodes) : ∃ base ∈ definition.nodes, bare node = bare base := by
  have listed : bare node ∈ definition.nodes.map bare := by
    rw [← derived.bare_eq]
    exact List.mem_map_of_mem member
  obtain ⟨base, inside, same⟩ := List.mem_map.mp listed
  exact ⟨base, inside, same.symm⟩

theorem Derived.accepted {ext : External} {settings : Settings} {paramsJson : Option String}
    {reveals : String → String → Prop} {definition : ResolvedJobDefinition} {nodes : List ResolvedNodeDefinition}
    (derived : Derived ext settings paramsJson reveals definition nodes) {source : JobDefinition}
    (resolved : source.resolve = .ok definition) : Accepted nodes := by
  refine ⟨source, definition, resolved, ?_⟩
  have same := congrArg (List.map fun node => (node.id, node.dependsOn)) derived.bare_eq
  rw [List.map_map, List.map_map] at same
  exact same

/-- What `execute_run` has when it enters its loop. -/
structure Prepares (ext : External) (settings : Settings) (queued : QueuedRun) (reveals : String → String → Prop)
    (definition : ResolvedJobDefinition) (x : Execution) (db : Db) : Prop where
  begun : ∃ nodes nodeIds, x = ⟨queued, nodes, nodeIds, ∅, ∅, false, false⟩
  resolved : ∃ source : JobDefinition, source.resolve = .ok definition
  owned : definition.id = queued.jobId
  derived : ∃ paramsJson, db.Parametrizes queued.id paramsJson ∧
    Derived ext settings paramsJson reveals definition x.nodes
  recorded : x.Recorded ext db

namespace Sees

variable {ext : External} {settings : Settings} {S : Type} {state : S → State} {D : Discipline Sig S} {s : S}
  {quiet : Op → Prop}

theorem kept (sees : Sees ext state D) (fact : Db → Prop)
    (stays : ∀ before after : Db, before.Keeps after → fact before → fact after) :
    D.Kept quiet fun s => fact (state s).db where
  stable := fun before after moved => stays _ _ (sees.keeps before after moved)
  frame := fun op before reply after _ ran => stays _ _ (exec_keeps (sees.ran op before reply after ran))

theorem kept_mono {reveals : String → String → S → Prop} (shown : ∀ name value, D.Kept quiet (reveals name value))
    (fact : (String → String → Prop) → Prop)
    (mono : ∀ some more : String → String → Prop, (∀ name value, some name value → more name value) →
      fact some → fact more) : D.Kept quiet fun s => fact fun name value => reveals name value s where
  stable := fun before after moved =>
    mono _ _ fun name value => (shown name value).stable before after moved
  frame := fun op before reply after isQuiet ran =>
    mono _ _ fun name value => (shown name value).frame op before reply after isQuiet ran

section
variable {allowed : Op → Prop} {assertion : S → Prop}
  (promises : ∀ op before reply after, allowed op → assertion before → D.exec op before reply after →
    D.guarantee op before after) {E : Type} [FromSql E]
include promises

theorem holds_fetch (stays : D.Kept Unloading assertion) (now : assertion s) {query : Select}
    (may : allowed (.select query)) {post : query.Row → S → Prop} {failed : E → S → Prop}
    (next : ∀ row before after, assertion after → D.exec (.select query) before (.ok row) after → post row after)
    (fails : ∀ why s, failed why s) : (fetch query).Holds D post failed s := by
  intro before moved reply after ran
  have unloading : Unloading (.select query) := fun _ same => by cases same
  have here := stays.stable s before moved now
  have later := stays.frame _ before reply after unloading ran here
  refine ⟨promises _ before reply after may here ran, ?_⟩
  cases reply with
  | ok row => exact next row before after later ran
  | error why => exact fails _ after

/-! ## Secrets -/

variable {reveals : String → String → S → Prop} (secrets : ∀ name, allowed (.select (.secret name)))
  (shown : ∀ name value, D.Kept Unloading (reveals name value))
  (learned : ∀ key name row value before after, settings.secretKey = some key →
    ext.decrypt key row = .ok value →
    D.exec (.select (.secret name)) before (.ok (some row)) after → reveals name value after)
  (stays : D.Kept Unloading assertion)
include secrets shown learned stays

theorem holds_resolveSecrets {key : String} (keyed : settings.secretKey = some key) (names front : List String)
    (resolved : StringMap String) (now : assertion s)
    (revealed : Revealed (fun name value => reveals name value s) front resolved) :
    (resolveSecrets ext key names resolved).Holds D
      (fun secrets s => assertion s ∧ Revealed (fun name value => reveals name value s) (front ++ names) secrets)
      (fun _ _ => True) s := by
  induction names generalizing front resolved s with
  | nil => exact ⟨now, by rw [List.append_nil]; exact revealed⟩
  | cons name rest ih =>
    refine (Proc.holds_bind _ _ _).mpr (holds_fetch
      (fun op before reply after may holds ran => promises op before reply after may holds.1 ran)
      (stays.and (kept_mono shown (fun reveals => Revealed reveals front resolved)
        fun _ _ sub revealed => revealed.mono sub)) ⟨now, revealed⟩ (secrets name)
      (fun row before after holds ran => ?_) fun _ _ => trivial)
    obtain ⟨now, revealed⟩ := holds
    cases row with
    | none => trivial
    | some row =>
      dsimp only
      cases decrypted : ext.decrypt key row with
      | error why => trivial
      | ok value =>
        have next := ih (front ++ [name]) (resolved.insert name value) now
          (revealed.insert (learned key name row value before after keyed decrypted ran))
        rw [List.append_assoc] at next
        exact next

theorem holds_injectSecrets {key : String} (keyed : settings.secretKey = some key) (nodes : List ResolvedNodeDefinition)
    (now : assertion s) :
    (injectSecrets ext key nodes).Holds D
      (fun nodes' s => assertion s ∧
        List.Forall₂ (Injected settings fun name value => reveals name value s) nodes nodes')
      (fun _ _ => True) s := by
  induction nodes generalizing s assertion with
  | nil => exact ⟨now, .nil⟩
  | cons node rest ih =>
    have none : Revealed (fun name value => reveals name value s) [] ∅ := ⟨by simp, by simp⟩
    refine (Proc.holds_bind _ _ _).mpr ((Proc.holds_attempt _ _).mpr
      ((holds_resolveSecrets promises secrets shown learned stays keyed node.secrets [] ∅ now none).mono ?_ ?_))
    · rintro secrets s ⟨now, revealed⟩
      have both := stays.and (kept_mono shown (fun reveals => Revealed reveals node.secrets secrets)
        fun _ _ sub revealed => revealed.mono sub)
      refine (Proc.holds_bind _ _ _).mpr ((ih (fun op before reply after may holds ran =>
        promises op before reply after may holds.1 ran) both ⟨now, revealed⟩).mono ?_ fun _ _ _ => trivial)
      rintro others s ⟨⟨now, revealed⟩, injected⟩
      exact ⟨now, .cons ⟨rfl, .inr ⟨by rw [keyed]; rfl, secrets, revealed, rfl⟩⟩ injected⟩
    · intro why s _
      trivial

theorem holds_withSecrets (nodes : List ResolvedNodeDefinition) (now : assertion s) :
    (withSecrets ext settings nodes).Holds D
      (fun nodes' s => assertion s ∧
        List.Forall₂ (Injected settings fun name value => reveals name value s) nodes nodes')
      (fun _ _ => True) s := by
  unfold withSecrets
  cases keyed : settings.secretKey with
  | none => exact ⟨now, List.forall₂_same.mpr fun node _ => ⟨rfl, .inl ⟨keyed, rfl⟩⟩⟩
  | some key => exact holds_injectSecrets promises secrets shown learned stays keyed nodes now

omit promises secrets shown learned in
theorem holds_ensureNodes (sees : Sees ext state D) {runId : Nat} {nodes front : List ResolvedNodeDefinition}
    {nodeIds : StringMap Nat}
    (inserts : ∀ node ∈ nodes, ∀ before reply after, assertion before →
      D.exec (.write (.insertNode (newNodeRun ext runId node))) before reply after →
      D.guarantee (.write (.insertNode (newNodeRun ext runId node))) before after)
    (distinct : ((front ++ nodes).map (·.id)).Nodup) (now : assertion s)
    (recorded : ∀ node ∈ front, ∃ id, nodeIds.lookup node.id = some id ∧
      (state s).db.Describes ext runId node id) :
    (ensureNodes ext runId nodes nodeIds).Holds D
      (fun all s => assertion s ∧ ∀ node ∈ front ++ nodes, ∃ id, all.lookup node.id = some id ∧
        (state s).db.Describes ext runId node id) (fun _ _ => True) s := by
  induction nodes generalizing front nodeIds s with
  | nil => exact ⟨now, by rw [List.append_nil]; exact recorded⟩
  | cons node rest ih =>
    unfold ensureNodes
    split
    · trivial
    · intro before moved reply after ran
      -- the rows in front keep their columns while the others are inserted
      have rows : D.Kept Unloading fun s => ∀ node ∈ front, ∃ id, nodeIds.lookup node.id = some id ∧
          (state s).db.Describes ext runId node id :=
        sees.kept (fun db => ∀ node ∈ front, ∃ id, nodeIds.lookup node.id = some id ∧
          db.Describes ext runId node id) fun before after kept rows node member => by
            obtain ⟨id, known, described⟩ := rows node member
            exact ⟨id, known, kept.describes described⟩
      have unloading : Unloading (.write (.insertNode (newNodeRun ext runId node))) := fun _ same => by cases same
      have still := (stays.and rows).stable s before moved ⟨now, recorded⟩
      have later := (stays.and rows).frame _ before reply after unloading ran still
      refine ⟨inserts node List.mem_cons_self before reply after still.1 ran, ?_⟩
      cases reply with
      | error why => trivial
      | ok id =>
        have here : (state after).db.Describes ext runId node id := by
          rcases exec_insertNode (sees.ran _ _ _ _ ran) with ⟨⟨why, impossible⟩, -⟩ | ⟨same, -, inserted⟩
          · cases impossible
          · cases same
            exact ⟨(newNodeRun ext runId node).row (state before).now, by
              rw [inserted, Serial.find_insert, if_pos rfl], rfl⟩
        have next : ((front ++ [node] ++ rest).map (·.id)).Nodup := by
          rw [List.append_assoc]
          exact distinct
        refine (ih (fun other member => inserts other (List.mem_cons_of_mem _ member)) next later.1 ?_).mono ?_
          fun _ _ _ => trivial
        · intro other member
          rw [lookup_insert_ite]
          rcases List.mem_append.mp member with old | new
          · have ne : other.id ≠ node.id := by
              rw [List.map_append, List.nodup_append] at distinct
              exact distinct.2.2 _ (List.mem_map_of_mem old) _ (List.mem_map_of_mem List.mem_cons_self)
            rw [if_neg ne]
            exact later.2 other old
          · rw [List.mem_singleton.mp new, if_pos rfl]
            exact ⟨id, rfl, here⟩
        · rw [List.append_assoc]
          exact fun _ _ ended => ended

end

/-! ## The whole preparation -/

section
variable {allowed : Op → Prop} {queued : QueuedRun} {origin : ResolvedJobDefinition → S → Prop}

theorem holds_loadForRun (sees : Sees ext state D)
    (opens : ∀ before reply after, D.exec (.load queued.definitionPath) before reply after →
      D.guarantee (.load queued.definitionPath) before after)
    (loads : ∀ before definition after, D.exec (.load queued.definitionPath) before (.ok definition) after →
      origin definition after) :
    (loadForRun queued).Holds D
      (fun definition s => origin definition s ∧ definition.id = queued.jobId ∧
        ∃ source : JobDefinition, source.resolve = .ok definition) (fun _ _ => True) s := by
  intro before moved reply after ran
  refine ⟨opens before reply after ran, ?_⟩
  cases reply with
  | error why => trivial
  | ok definition =>
    dsimp only
    split
    · trivial
    · rename_i same
      exact ⟨loads before definition after ran, not_not.mp same, exec_load (sees.ran _ _ _ _ ran)⟩

/-- The statements behind the load may rely on the definition that was loaded. -/
theorem holds_prepareRun (sees : Sees ext state D) (minor : ∀ op : Op, op.minor = true → allowed op)
    (secrets : ∀ name, allowed (.select (.secret name)))
    (stays : ∀ definition, D.Kept Unloading (origin definition))
    (opens : ∀ before reply after, D.exec (.load queued.definitionPath) before reply after →
      D.guarantee (.load queued.definitionPath) before after)
    (promises : ∀ definition op before reply after, allowed op → origin definition before →
      definition.id = queued.jobId → D.exec op before reply after → D.guarantee op before after)
    (starts : allowed (.write (.updateJob queued.id (.running .queued)))) {reveals : String → String → S → Prop}
    (shown : ∀ name value, D.Kept Unloading (reveals name value))
    (learned : ∀ key name row value before after, settings.secretKey = some key →
      ext.decrypt key row = .ok value →
      D.exec (.select (.secret name)) before (.ok (some row)) after → reveals name value after)
    (loads : ∀ before definition after, D.exec (.load queued.definitionPath) before (.ok definition) after →
      origin definition after)
    (inserts : ∀ definition paramsJson nodes before, origin definition before → definition.id = queued.jobId →
      (state before).db.Parametrizes queued.id paramsJson →
      Derived ext settings paramsJson (fun name value => reveals name value before) definition nodes →
      ∀ node ∈ nodes, ∀ reply after,
      D.exec (.write (.insertNode (newNodeRun ext queued.id node))) before reply after →
      D.guarantee (.write (.insertNode (newNodeRun ext queued.id node))) before after) :
    (prepareRun ext settings queued).Holds D
      (fun x s => ∃ definition, origin definition s ∧
        Prepares ext settings queued (fun name value => reveals name value s) definition x (state s).db)
      (fun _ _ => True) s := by
  refine (Proc.holds_bind _ _ _).mpr ((holds_loadForRun sees opens loads).mono ?_ fun _ _ _ => trivial)
  rintro definition s ⟨now, owned, resolved⟩
  have relying : ∀ op before reply after, allowed op → origin definition before → D.exec op before reply after →
      D.guarantee op before after :=
    fun op before reply after may holds ran => promises definition op before reply after may holds owned ran
  refine (Proc.holds_bind _ _ _).mpr (holds_fetch relying (stays definition) now
    (minor _ rfl) (fun paramsJson before s now ran => ?_) fun _ _ => trivial)
  have parametrized : (state s).db.Parametrizes queued.id paramsJson := by
    obtain ⟨same, ⟨why, impossible⟩ | ⟨row, member, equal⟩⟩ := exec_select (sees.ran _ _ _ _ ran)
    · cases impossible
    · cases equal
      rw [same]
      exact Option.map_eq_some_iff.mp (Option.mem_toList.mp member)
  have params : D.Kept Unloading fun s => (state s).db.Parametrizes queued.id paramsJson :=
    sees.kept (fun db => db.Parametrizes queued.id paramsJson) fun _ _ kept => kept.parametrizes
  have both := (stays definition).and params
  refine (Proc.holds_bind _ _ _).mpr ((holds_withSecrets (fun op before reply after may holds ran =>
    relying op before reply after may holds.1 ran) secrets shown learned both
    (withParams ext paramsJson definition.nodes) ⟨now, parametrized⟩).mono ?_ fun _ _ _ => trivial)
  rintro nodes s ⟨⟨now, parametrized⟩, derived⟩
  -- each part of the preparation adds a fact that the following parts keep
  have three := both.and (kept_mono shown (fun reveals =>
    Derived ext settings paramsJson reveals definition nodes) fun _ _ sub derived =>
      derived.imp fun _ _ injected => injected.mono sub)
  obtain ⟨source, resolves⟩ := resolved
  have nodesDerived : Derived ext settings paramsJson (fun name value => reveals name value s) definition nodes :=
    derived
  have distinct : ((([] : List ResolvedNodeDefinition) ++ nodes).map (·.id)).Nodup := (nodesDerived.accepted resolves).order.distinct
  refine (Proc.holds_bind _ _ _).mpr ((holds_ensureNodes three sees ?_ distinct
    ⟨⟨now, parametrized⟩, derived⟩ (by simp)).mono ?_ fun _ _ _ => trivial)
  · rintro node member before reply after ⟨⟨now, parametrized⟩, derived⟩ ran
    exact inserts definition paramsJson nodes before now owned parametrized derived node member reply after ran
  · rintro nodeIds s ⟨facts, recorded⟩
    have rows : D.Kept Unloading fun s => Execution.Recorded ext ⟨queued, nodes, nodeIds, ∅, ∅, false, false⟩
        (state s).db := sees.kept (fun db => Execution.Recorded ext _ db) fun _ _ kept rows => rows.keeps kept
    have four := three.and rows
    have within : (transitionJob queued.id .queued .running none).Within
        (fun op => allowed op ∧ Unloading op) fun _ => True :=
      (within_run ⟨starts, fun _ same => by cases same⟩).bind fun _ _ =>
        within_run ⟨minor _ rfl, fun _ same => by cases same⟩
    refine (Proc.holds_bind _ _ _).mpr ((within.holds four.stable (fun op before reply after may holds ran =>
      ⟨relying op before reply after may.1 holds.1.1.1 ran, four.frame op before reply after may.2 ran holds⟩)
      ⟨facts, recorded⟩).mono ?_ fun _ _ _ => trivial)
    rintro - s ⟨-, ⟨⟨now, parametrized⟩, derived⟩, recorded⟩
    exact ⟨definition, now, ⟨nodes, nodeIds, rfl⟩, ⟨source, resolves⟩, owned, ⟨paramsJson, parametrized, derived⟩,
      recorded⟩

end

end Sees

end PostJen.Server
