import PostJen.Foundations.Lockstep
import PostJen.Server.Masking
import PostJen.Server.Provision
import PostJen.Server.Recall

/-! Two runs that differ in the values of secrets.

The blocks of both take the same course: a value reaches nothing but the
environments of nodes that list secrets, and these nothing but the INSERT of
their rows. What the preparation of a run has loaded excuses such an INSERT.
-/

set_option autoImplicit false

open PostJen.Foundations PostJen.Core

namespace PostJen.Server

/-- What the encryption of secrets is relied on for. -/
structure External.Enciphers (ext : External) : Prop where
  inverts : ∀ key value nonce text, ext.encrypt key value nonce = .ok text → ext.decrypt key ⟨text, nonce⟩ = .ok value
  uniform : ∀ key value value' nonce why, ext.encrypt key value nonce = .error why →
    ext.encrypt key value' nonce = .error why

def SameButEnv (node node' : ResolvedNodeDefinition) : Prop := ∃ env, node' = { node with env }

def Execution.Alike (x x' : Execution) : Prop :=
  ∃ nodes, x' = { x with nodes } ∧ List.Forall₂ SameButEnv x.nodes nodes

inductive Point.Alike : Point → Point → Prop where
  | same (point : Point) : Alike point point
  | secret (name value value' : String) :
      Alike (.received (.createSecret name value)) (.received (.createSecret name value'))
  | scheduling {x x' : Execution} (alike : x.Alike x') : Alike (.scheduling x) (.scheduling x')
  | pass {x x' : Execution} (newlyQueued : List (String × Nat)) {todo todo' : List ResolvedNodeDefinition}
      (alike : x.Alike x') (left : List.Forall₂ SameButEnv todo todo') :
      Alike (.pass x newlyQueued todo) (.pass x' newlyQueued todo')
  | waiting {x x' : Execution} (alike : x.Alike x') : Alike (.waiting x) (.waiting x')
  | polling {x x' : Execution} (todo : List String) (alike : x.Alike x') : Alike (.polling x todo) (.polling x' todo)
  | finalizing {x x' : Execution} (alike : x.Alike x') : Alike (.finalizing x) (.finalizing x')

abbrev Known := ResolvedJobDefinition → Prop

inductive Read (ext : External) (settings : Settings) :
    Except SqlError (Option EncryptedSecret) → Except SqlError (Option EncryptedSecret) → Prop where
  | failed (why : SqlError) : Read ext settings (.error why) (.error why)
  | absent : Read ext settings (.ok none) (.ok none)
  | present {secret secret' : EncryptedSecret} (opens : ext.Opens settings secret)
      (opens' : ext.Opens settings secret') : Read ext settings (.ok (some secret)) (.ok (some secret'))

/-- Statements that may stand side by side. -/
inductive Op.Alike (ext : External) (settings : Settings) (known : Known) : Op → Op → Prop where
  | same {op : Op} (discreet : op.discreet = true) : Alike ext settings known op op
  | read (name : String) : Alike ext settings known (.select (.secret name)) (.select (.secret name))
  | store (name : String) {value value' : EncryptedSecret} (opens : ext.Opens settings value)
      (opens' : ext.Opens settings value') :
      Alike ext settings known (.write (.secret name value)) (.write (.secret name value'))
  | insert (new : NewNodeRun) (envJson : Option String) (keyed : settings.secretKey ≠ none)
      {definition : ResolvedJobDefinition} (loaded : known definition) {base : ResolvedNodeDefinition}
      (member : base ∈ definition.nodes) (named : base.id = new.nodeId) (lists : base.secrets ≠ []) :
      Alike ext settings known (.write (.insertNode new)) (.write (.insertNode { new with envJson }))

def Op.Answers (ext : External) (settings : Settings) : (op op' : Op) → op.Reply → op'.Reply → Prop
  | .select (.secret _), .select (.secret _), reply, reply' => Read ext settings reply reply'
  | _, _, reply, reply' => HEq reply reply'

def Point.learn (point : Point) : (op : Op) → op.Reply → Known → Known
  | .load path, .ok loaded, known => fun definition =>
      known definition ∨ definition = loaded ∧ ∃ queued, point = .executeRun queued ∧ path = queued.definitionPath
  | _, _, known => known

def Point.pairing (ext : External) (settings : Settings) (point : Point) : Pairing Sig Known where
  alike := Op.Alike ext settings
  answers := Op.Answers ext settings
  learn := point.learn

theorem Point.learn_keeps {point : Point} {definition : ResolvedJobDefinition} (op : Op) (reply : op.Reply)
    (known : Known) (loaded : known definition) : point.learn op reply known definition := by
  cases op with
  | load path =>
    cases reply with
    | error why => exact loaded
    | ok other => exact .inl loaded
  | _ => exact loaded

variable {ext : External} {settings : Settings}

theorem answers_discreet {op : Op} (discreet : op.discreet = true) {reply reply' : op.Reply} :
    op.Answers ext settings op reply reply' ↔ reply = reply' := by
  cases op with
  | select query => cases query <;> first | exact heq_iff_eq | cases discreet
  | write write => cases write <;> exact heq_iff_eq
  | _ => exact heq_iff_eq

/-! ## Blocks -/

section
variable {point : Point} {known : Known} {E A B : Type}

theorem paired_discreet (values : A → Prop) {program : Proc Sig E A}
    (within : program.Within (fun op : Op => op.discreet = true) values) :
    program.Paired (point.pairing ext settings) Eq Eq program known :=
  within.paired (fun _ _ discreet => Op.Alike.same discreet) (fun _ _ _ discreet => (answers_discreet discreet).mp) known

theorem paired_after {A' : Type} {values : A → Prop} {program : Proc Sig E A} {next : A → Proc Sig E B}
    {next' : A → Proc Sig E A'} {ends : B → A' → Prop}
    (within : program.Within (fun op : Op => op.discreet = true) values)
    (rest : ∀ value known, (next value).Paired (point.pairing ext settings) ends Eq (next' value) known) :
    (program >>= next).Paired (point.pairing ext settings) ends Eq (program >>= next') known := by
  refine (paired_discreet values within).bind (fun _ => True) trivial (fun _ _ _ _ => trivial) ?_
  rintro value _ known - rfl
  exact rest value known

theorem Op.discreet_of_minor {op : Op} (minor : op.minor = true) : op.discreet = true := by
  cases op with
  | select query => cases query <;> first | rfl | cases minor
  | write write => cases write <;> first | rfl | cases minor
  | _ => rfl

theorem Op.discreet_of_reads {op : Op} (reads : op.reads = true) : op.discreet = true :=
  discreet_of_minor (minor_of_reads reads)

end

/-! ### The preparation of a run -/

section
variable {known : Known} {queued : QueuedRun}

/-- After the secrets: the same node, or one that lists secrets in the definition and has another environment. -/
def Veiled (settings : Settings) (definition : ResolvedJobDefinition) (node node' : ResolvedNodeDefinition) : Prop :=
  SameButEnv node node' ∧ (node' = node ∨ settings.secretKey ≠ none ∧
    ∃ base ∈ definition.nodes, base.id = node.id ∧ base.secrets ≠ [])

theorem paired_resolveSecrets {point : Point} {key : String} (keyed : settings.secretKey = some key) (names : List String)
    (resolved resolved' : StringMap String) :
    (resolveSecrets ext key names resolved).Paired (point.pairing ext settings)
      (fun found found' => names = [] → resolved = resolved' → found = found') Eq
      (resolveSecrets ext key names resolved') known := by
  induction names generalizing resolved resolved' known with
  | nil => exact fun _ same => same
  | cons name rest ih =>
    refine ⟨.read name, fun reply reply' (answers : Read ext settings _ _) => ?_⟩
    cases answers with
    | failed why => exact rfl
    | absent => exact rfl
    | @present secret secret' opens opens' =>
      obtain ⟨value, decrypts⟩ := opens key keyed
      obtain ⟨value', decrypts'⟩ := opens' key keyed
      simp only [orHalt, Proc.bind, decrypts, decrypts']
      exact (ih _ _).mono (fun _ _ _ never => by cases never) fun _ _ same => same

theorem paired_injectSecrets {point : Point} {key : String} (keyed : settings.secretKey = some key)
    {definition : ResolvedJobDefinition} (nodes : List ResolvedNodeDefinition)
    (derived : ∀ node ∈ nodes, ∃ base ∈ definition.nodes, base.id = node.id ∧ base.secrets = node.secrets) :
    (injectSecrets ext key nodes).Paired (point.pairing ext settings) (List.Forall₂ (Veiled settings definition)) Eq
      (injectSecrets ext key nodes) known := by
  induction nodes generalizing known with
  | nil => exact List.Forall₂.nil
  | cons node rest ih =>
    refine ((paired_resolveSecrets keyed node.secrets ∅ ∅).attempt Eq).bind (fun _ => True) trivial
      (fun _ _ _ _ => trivial) ?_
    rintro _ _ known - (⟨equal⟩ | ⟨rfl⟩)
    · rename_i secrets secrets'
      refine (ih fun other member => derived other (List.mem_cons_of_mem _ member)).bind (fun _ => True) trivial
        (fun _ _ _ _ => trivial) ?_
      intro others others' known _ veiled
      refine List.Forall₂.cons ⟨⟨_, rfl⟩, ?_⟩ veiled
      obtain ⟨base, member, named, same⟩ := derived node List.mem_cons_self
      by_cases none : node.secrets = []
      · rw [equal none rfl]
        exact .inl rfl
      · refine .inr ⟨by rw [keyed]; exact Option.some_ne_none key, base, member, named, ?_⟩
        rw [same]
        exact none
    · exact rfl

theorem paired_withSecrets {point : Point} {definition : ResolvedJobDefinition} (nodes : List ResolvedNodeDefinition)
    (derived : ∀ node ∈ nodes, ∃ base ∈ definition.nodes, base.id = node.id ∧ base.secrets = node.secrets) :
    (withSecrets ext settings nodes).Paired (point.pairing ext settings) (List.Forall₂ (Veiled settings definition)) Eq
      (withSecrets ext settings nodes) known := by
  unfold withSecrets
  split
  · exact List.forall₂_same.mpr fun node _ => ⟨⟨node.env, rfl⟩, .inl rfl⟩
  · rename_i key keyed
    exact paired_injectSecrets keyed nodes derived

theorem paired_ensureNodes {point : Point} {definition : ResolvedJobDefinition} (runId : Nat)
    {nodes nodes' : List ResolvedNodeDefinition} (veiled : List.Forall₂ (Veiled settings definition) nodes nodes')
    (nodeIds : StringMap Nat) (loaded : known definition) :
    (ensureNodes ext runId nodes nodeIds).Paired (point.pairing ext settings) Eq Eq
      (ensureNodes ext runId nodes' nodeIds) known := by
  induction veiled generalizing nodeIds known with
  | nil => exact rfl
  | @cons node node' rest rest' here _ ih =>
    obtain ⟨⟨env, rfl⟩, excused⟩ := here
    unfold ensureNodes
    by_cases long : node.timeoutSec ≥ 2 ^ 63
    · rw [if_pos long, if_pos long]
      exact rfl
    · rw [if_neg long, if_neg long]
      have inserts : (execute (.insertNode (newNodeRun ext runId node)) : Proc Sig AnyError Nat).Paired
          (point.pairing ext settings) Eq Eq (execute (.insertNode (newNodeRun ext runId { node with env }))) known := by
        refine ⟨?_, fun reply reply' answers => ?_⟩
        · rcases excused with same | ⟨keyed, base, member, named, lists⟩
          · rw [same]
            exact Op.Alike.same rfl
          · exact Op.Alike.insert (newNodeRun ext runId node) _ keyed loaded member named lists
        · obtain rfl : reply = reply' := eq_of_heq answers
          cases reply <;> exact rfl
      refine inserts.bind (fun known => known definition) loaded (fun op reply known => Point.learn_keeps op reply known) ?_
      rintro nodeRunId _ known loaded rfl
      exact ih _ loaded

/-- `execute_run` up to its loop, with the definition that it has loaded. -/
def prepareLoaded (ext : External) (settings : Settings) (queued : QueuedRun) (definition : ResolvedJobDefinition) :
    Proc Sig AnyError Execution := do
  let paramsJson ← fetch (.paramsJson queued.id)
  let nodes ← withSecrets ext settings (withParams ext paramsJson definition.nodes)
  let nodeIds ← ensureNodes ext queued.id nodes ∅
  transitionJob queued.id .queued .running none
  return ⟨queued, nodes, nodeIds, ∅, ∅, false, false⟩

theorem prepareRun_eq : prepareRun ext settings queued = loadForRun queued >>= prepareLoaded ext settings queued := rfl

theorem paired_prepareLoaded {definition : ResolvedJobDefinition} (loaded : known definition) :
    (prepareLoaded ext settings queued definition).Paired ((Point.executeRun queued).pairing ext settings)
      Execution.Alike Eq (prepareLoaded ext settings queued definition) known := by
  have keeps : ∀ op reply known, known definition → (Point.executeRun queued).learn op reply known definition :=
    fun op reply known => Point.learn_keeps op reply known
  refine (paired_discreet _ (within_fetch (fun _ => Op.discreet_of_reads) _ rfl)).bind (fun known => known definition) loaded
    keeps ?_
  rintro paramsJson _ known loaded rfl
  have derived : ∀ node ∈ withParams ext paramsJson definition.nodes,
      ∃ base ∈ definition.nodes, base.id = node.id ∧ base.secrets = node.secrets := by
    intro node member
    rw [withParams_eq] at member
    obtain ⟨base, inside, rfl⟩ := List.mem_map.mp member
    have same := bare_withParam ext paramsJson base
    exact ⟨base, inside, congrArg (·.id) same.symm, congrArg (·.secrets) same.symm⟩
  refine (paired_withSecrets _ derived).bind (fun known => known definition) loaded keeps ?_
  intro nodes nodes' known loaded veiled
  refine (paired_ensureNodes queued.id veiled ∅ loaded).bind (fun _ => True) trivial (fun _ _ _ _ => trivial) ?_
  rintro nodeIds _ known - rfl
  refine paired_after (within_transition (fun _ => Op.discreet_of_minor) rfl) fun _ known => ?_
  exact ⟨nodes', rfl, veiled.imp fun _ _ veiled => veiled.1⟩

theorem paired_prepareRun :
    (prepareRun ext settings queued).Paired ((Point.executeRun queued).pairing ext settings) Execution.Alike Eq
      (prepareRun ext settings queued) known := by
  rw [prepareRun_eq]
  refine ⟨.same rfl, fun reply reply' answers => ?_⟩
  obtain rfl : reply = reply' := eq_of_heq answers
  cases reply with
  | error why => exact rfl
  | ok definition =>
    have loaded : (Point.executeRun queued).learn (.load queued.definitionPath) (.ok definition) known definition :=
      .inr ⟨rfl, queued, rfl, rfl⟩
    dsimp only [Proc.bind]
    by_cases mismatch : definition.id ≠ queued.jobId
    · rw [if_pos mismatch]
      exact rfl
    · rw [if_neg mismatch]
      exact paired_prepareLoaded loaded

end

/-! ### The loop of `execute_run` -/

namespace Execution

variable {point : Point} {known : Known} {x : Execution} {nodes : List ResolvedNodeDefinition}

def Scheduled (x : Execution) (nodes : List ResolvedNodeDefinition) (result result' : Execution × List (String × Nat)) :
    Prop :=
  result.1.nodes = x.nodes ∧ result' = ({ result.1 with nodes }, result.2)

theorem paired_markNodeSkipped (node : ResolvedNodeDefinition) (env : StringMap String) (reason : String) :
    (x.markNodeSkipped node reason).Paired (point.pairing ext settings)
      (fun y y' => y.nodes = x.nodes ∧ y' = { y with nodes }) Eq
      ({ x with nodes }.markNodeSkipped { node with env } reason) known := by
  refine paired_after (within_nodeRunId x node.id) fun id known => ?_
  refine paired_after (within_run rfl) fun _ known => ?_
  exact paired_after (within_event (fun _ => Op.discreet_of_minor) _) fun _ known => ⟨rfl, rfl⟩

theorem paired_startNode (newlyQueued : List (String × Nat)) (node : ResolvedNodeDefinition) (env : StringMap String) :
    (x.startNode ext newlyQueued node).Paired (point.pairing ext settings) (x.Scheduled nodes) Eq
      ({ x with nodes }.startNode ext newlyQueued { node with env }) known := by
  have updates : ∀ runId id fromStatus toStatus reason exitCode message retryCount,
      (updateNodeStatus runId id fromStatus toStatus reason exitCode message retryCount).Within
        (fun op : Op => op.discreet = true) fun _ => True :=
    fun _ _ _ _ _ _ _ _ => (within_run (by rfl)).bind fun _ _ => within_event (fun _ => Op.discreet_of_minor) _
  refine paired_after (within_nodeRunId x node.id) fun id known => ?_
  refine paired_after (within_assignToAgent (fun _ => Op.discreet_of_reads) ext id node fun _ => rfl) fun assigned known => ?_
  cases assigned with
  | true => exact paired_after (updates _ _ _ _ _ _ _ _) fun _ known => ⟨rfl, rfl⟩
  | false => exact paired_after (updates _ _ _ _ _ _ _ _) fun _ known => ⟨rfl, rfl⟩

theorem paired_scheduleNode (newlyQueued : List (String × Nat)) (node : ResolvedNodeDefinition) (env : StringMap String) :
    (x.scheduleNode ext newlyQueued node).Paired (point.pairing ext settings) (x.Scheduled nodes) Eq
      ({ x with nodes }.scheduleNode ext newlyQueued { node with env }) known := by
  have skips : ∀ reason, (x.markNodeSkipped node reason >>= fun y => pure (y, newlyQueued)).Paired
      (point.pairing ext settings) (x.Scheduled nodes) Eq
      ({ x with nodes }.markNodeSkipped { node with env } reason >>= fun y => pure (y, newlyQueued)) known := by
    intro reason
    refine (paired_markNodeSkipped node env reason).bind (fun _ => True) trivial (fun _ _ _ _ => trivial) ?_
    rintro y _ known - ⟨kept, rfl⟩
    exact ⟨kept, rfl⟩
  have blocked : { x with nodes }.blockedBy { node with env } = x.blockedBy node := rfl
  have waits : { x with nodes }.waitsOn { node with env } = x.waitsOn node := rfl
  unfold scheduleNode
  rw [blocked, waits]
  dsimp only
  by_cases settled : (x.results.lookup node.id).isSome || (x.runningNodes.lookup node.id).isSome
  · rw [if_pos settled, if_pos settled]
    exact ⟨rfl, rfl⟩
  · rw [if_neg settled, if_neg settled]
    cases x.blockedBy node with
    | some found => exact skips _
    | none =>
      dsimp only
      by_cases waiting : x.waitsOn node
      · rw [if_pos waiting, if_pos waiting]
        exact ⟨rfl, rfl⟩
      · rw [if_neg waiting, if_neg waiting]
        by_cases stopped : x.stopScheduling
        · rw [if_pos stopped, if_pos stopped]
          exact skips _
        · rw [if_neg stopped, if_neg stopped]
          by_cases canceled : x.canceling
          · rw [if_pos canceled, if_pos canceled]
            exact skips _
          · rw [if_neg canceled, if_neg canceled]
            exact paired_startNode newlyQueued node env

end Execution

/-! ### Requests and whole blocks -/

section
variable {point : Point} {known : Known}

theorem paired_createSecret (enciphers : ext.Enciphers) (name value value' : String) :
    (createSecret ext settings name value).Paired (point.pairing ext settings) Eq Eq
      (createSecret ext settings name value') known := by
  unfold createSecret
  cases keyed : settings.secretKey with
  | none => exact rfl
  | some key =>
    dsimp only
    by_cases empty : trim name = ""
    · rw [if_pos empty, if_pos empty]
      exact rfl
    · rw [if_neg empty, if_neg empty]
      have draws : (random 12 : Proc Sig ApiError String).Within (fun op : Op => op.discreet = true) fun _ => True :=
        ⟨rfl, fun _ => trivial⟩
      refine paired_after draws fun nonce known => ?_
      have opens : ∀ value text, ext.encrypt key value nonce = .ok text → ext.Opens settings ⟨text, nonce⟩ := by
        intro value text encrypted other keyed'
        cases keyed.symm.trans keyed'
        exact ⟨value, enciphers.inverts key value nonce text encrypted⟩
      -- whether a value can be encrypted does not depend on the value, so both sides go the same way
      cases encrypted : ext.encrypt key value nonce with
      | error why =>
        rw [enciphers.uniform key value value' nonce why encrypted]
        exact rfl
      | ok text =>
        cases encrypted' : ext.encrypt key value' nonce with
        | error why =>
          rw [enciphers.uniform key value' value nonce why encrypted'] at encrypted
          cases encrypted
        | ok text' =>
          have stores : (Server.run (.secret (trim name) ⟨text, nonce⟩) : Proc Sig ApiError Unit).Paired
              (point.pairing ext settings) Eq Eq (Server.run (.secret (trim name) ⟨text', nonce⟩)) known := by
            refine ⟨.store (trim name) (opens value text encrypted) (opens value' text' encrypted'),
              fun reply reply' answers => ?_⟩
            obtain rfl : reply = reply' := eq_of_heq answers
            cases reply <;> exact rfl
          refine stores.bind (fun _ => True) trivial (fun _ _ _ _ => trivial) ?_
          rintro _ _ known - -
          refine paired_discreet (fun _ => True)
            ((within_fetch (fun _ => Op.discreet_of_reads) (.secretSummary (trim name)) rfl).bind fun summary _ => ?_)
          cases (summary : Option SecretSummary) <;> trivial

theorem paired_same (values : Point → Prop) {code : Proc Sig Empty Point}
    (within : code.Within (fun op : Op => op.discreet = true) values) :
    code.Paired (point.pairing ext settings) Point.Alike Eq code known :=
  (paired_discreet values within).mono (fun next _ same => same ▸ Point.Alike.same next) fun why _ _ => why.elim

theorem paired_recover {runId : Nat} {body body' : Proc Sig AnyError Point}
    (paired : body.Paired (point.pairing ext settings) Point.Alike Eq body' known) :
    (recover runId body).Paired (point.pairing ext settings) Point.Alike Eq (recover runId body') known := by
  refine (paired.attempt Eq).bind (fun _ => True) trivial (fun _ _ _ _ => trivial) ?_
  rintro _ _ known - (⟨alike⟩ | ⟨rfl⟩)
  · exact alike
  · rename_i why
    have fails : (failRunBeforeStart runId why.chain).Within (fun op : Op => op.discreet = true) fun _ => True :=
      within_failRunBeforeStart (fun _ => Op.discreet_of_minor) runId _ rfl
    exact paired_same (fun _ => True) ((fails.attempt).bind fun _ _ => trivial)

/-- Secrets are touched by the preparation of a run and by the request that creates one. -/
theorem Op.discreet_of_may {op : Op} (may : point.may op = true) (preparing : ¬∃ queued, point = .executeRun queued)
    (creating : ¬∃ name value, point = .received (.createSecret name value)) : op.discreet = true := by
  cases op with
  | select query =>
    cases query with
    | secret name =>
      cases point with
      | executeRun queued => exact absurd ⟨queued, rfl⟩ preparing
      | _ => cases may
    | _ => rfl
  | write write =>
    cases write with
    | secret name value =>
      cases point with
      | received request =>
        cases request with
        | createSecret name value => exact absurd ⟨name, value, rfl⟩ creating
        | _ => cases may
      | _ => cases may
    | _ => rfl
  | _ => rfl

theorem paired_executeRun (queued : QueuedRun) :
    (block ext settings (.executeRun queued)).Paired ((Point.executeRun queued).pairing ext settings) Point.Alike Eq
      (block ext settings (.executeRun queued)) known := by
  refine paired_recover (paired_prepareRun.bind (fun _ => True) trivial (fun _ _ _ _ => trivial) ?_)
  exact fun x x' known _ alike => Point.Alike.scheduling alike

theorem paired_received (enciphers : ext.Enciphers) (name value value' : String) :
    (block ext settings (.received (.createSecret name value))).Paired (point.pairing ext settings) Point.Alike Eq
      (block ext settings (.received (.createSecret name value'))) known := by
  refine ((paired_createSecret enciphers name value value').attempt Eq).bind (fun _ => True) trivial
    (fun _ _ _ _ => trivial) ?_
  rintro _ _ known - (⟨rfl⟩ | ⟨rfl⟩)
  · rename_i answer
    cases answer <;> exact Point.Alike.same _
  · exact Point.Alike.same _

section
variable {x : Execution} {nodes : List ResolvedNodeDefinition} (same : List.Forall₂ SameButEnv x.nodes nodes)
include same

theorem paired_scheduling :
    (block ext settings (.scheduling x)).Paired (point.pairing ext settings) Point.Alike Eq
      (block ext settings (.scheduling { x with nodes })) known := by
  have observes : x.observeCancel.Paired (point.pairing ext settings)
      (fun y y' => y.nodes = x.nodes ∧ y' = { y with nodes }) Eq { x with nodes }.observeCancel known :=
    paired_after (within_isCancelRequested (fun _ => Op.discreet_of_reads) x.run.id) fun _ _ => ⟨rfl, rfl⟩
  refine paired_recover (observes.bind (fun _ => True) trivial (fun _ _ _ _ => trivial) ?_)
  rintro y _ known - ⟨kept, rfl⟩
  rw [← kept] at same
  exact Point.Alike.pass [] ⟨nodes, rfl, same⟩ same

theorem paired_pass (newlyQueued : List (String × Nat)) {todo todo' : List ResolvedNodeDefinition}
    (left : List.Forall₂ SameButEnv todo todo') :
    (block ext settings (.pass x newlyQueued todo)).Paired (point.pairing ext settings) Point.Alike Eq
      (block ext settings (.pass { x with nodes } newlyQueued todo')) known := by
  cases left with
  | nil =>
    have relaunched : { x with nodes }.launch newlyQueued = { x.launch newlyQueued with nodes } := rfl
    by_cases ended : (x.launch newlyQueued).runningNodes.entries = []
    · simp only [block, relaunched, if_pos ended]
      exact Point.Alike.finalizing ⟨nodes, rfl, same⟩
    · simp only [block, relaunched, if_neg ended]
      exact Point.Alike.waiting ⟨nodes, rfl, same⟩
  | @cons node _ todo todo' here left =>
    obtain ⟨env, rfl⟩ := here
    refine paired_recover ((Execution.paired_scheduleNode newlyQueued node env).bind (fun _ => True) trivial
      (fun _ _ _ _ => trivial) ?_)
    rintro ⟨y, queued⟩ _ known - ⟨kept, rfl⟩
    have kept : y.nodes = x.nodes := kept
    rw [← kept] at same
    exact Point.Alike.pass queued ⟨nodes, rfl, same⟩ left

theorem paired_polling (todo : List String) :
    (block ext settings (.polling x todo)).Paired (point.pairing ext settings) Point.Alike Eq
      (block ext settings (.polling { x with nodes } todo)) known := by
  cases todo with
  | nil =>
    refine paired_recover (paired_after (within_isCancelRequested (fun _ => Op.discreet_of_reads) x.run.id)
      fun requested known => ?_)
    cases requested with
    | true => exact Point.Alike.scheduling ⟨nodes, rfl, same⟩
    | false => exact Point.Alike.waiting ⟨nodes, rfl, same⟩
  | cons nodeId todo =>
    refine paired_recover ?_
    unfold pollPoint
    dsimp only
    cases x.runningNodes.lookup nodeId with
    | none => exact Point.Alike.polling todo ⟨nodes, rfl, same⟩
    | some nodeRunId =>
      refine paired_after (Execution.within_pollNode (fun _ => Op.discreet_of_reads) nodeRunId) fun outcome known => ?_
      cases outcome with
      | some outcome => exact Point.Alike.scheduling ⟨nodes, rfl, same⟩
      | none => exact Point.Alike.polling todo ⟨nodes, rfl, same⟩

end

theorem paired_block (preparing : ¬∃ queued, point = .executeRun queued)
    (creating : ¬∃ name value, point = .received (.createSecret name value)) :
    (block ext settings point).Paired (point.pairing ext settings) Point.Alike Eq (block ext settings point) known := by
  obtain ⟨slot, hosted⟩ := point.hosted
  exact paired_same _ ((block_within ext settings hosted).mono
    (fun _ may => Op.discreet_of_may may preparing creating) fun _ follows => follows)

theorem block_paired (enciphers : ext.Enciphers) {point' : Point} (alike : point.Alike point') :
    (block ext settings point).Paired (point.pairing ext settings) Point.Alike Eq (block ext settings point') known := by
  cases alike with
  | same =>
    by_cases preparing : ∃ queued, point = .executeRun queued
    · obtain ⟨queued, rfl⟩ := preparing
      exact paired_executeRun queued
    by_cases creating : ∃ name value, point = .received (.createSecret name value)
    · obtain ⟨name, value, rfl⟩ := creating
      exact paired_received enciphers name value value
    exact paired_block preparing creating
  | secret name value value' => exact paired_received enciphers name value value'
  | scheduling alike =>
    obtain ⟨nodes, rfl, same⟩ := alike
    exact paired_scheduling same
  | pass newlyQueued alike left =>
    obtain ⟨nodes, rfl, same⟩ := alike
    exact paired_pass same newlyQueued left
  | @waiting x _ alike =>
    obtain ⟨nodes, rfl, same⟩ := alike
    refine ⟨.same rfl, fun keys keys' answers => ?_⟩
    obtain rfl : keys = keys' := eq_of_heq answers
    exact Point.Alike.polling keys ⟨nodes, rfl, same⟩
  | polling todo alike =>
    obtain ⟨nodes, rfl, same⟩ := alike
    exact paired_polling same todo
  | @finalizing x _ alike =>
    obtain ⟨nodes, rfl, -⟩ := alike
    exact paired_block (by rintro ⟨_, ⟨⟩⟩) (by rintro ⟨_, _, ⟨⟩⟩)

end

end PostJen.Server
