import PostJen.Server.Closing
import PostJen.Server.Provision

/-! The secrets that a node declares.

With a server key a row is only inserted when all secrets of its node have been
read and decrypted; a secret that cannot be fails the run. Without a key the
secrets are passed over.
-/

set_option autoImplicit false

open PostJen.Foundations PostJen.Core

namespace PostJen.Server

def Db.Provides (ext : External) (settings : Settings) (db : Db) (name value : String) : Prop :=
  ∃ key row, settings.secretKey = some key ∧ some row ∈ (Select.secret name).answers db ∧ ext.decrypt key row = .ok value

/-- The environment of a node has every secret that the node declares, as it was read since the block began. -/
def Furnished (ext : External) (settings : Settings) (admits : Config → Label → Prop) (start : Config)
    (provision : Provision) (history : List Label) (c : Config) : Prop :=
  ∀ name ∈ provision.base.secrets, ∃ value, Provides ext settings admits start history c name value ∧
    provision.node.env.lookup name = some value

/-- A preparation reads a secret that cannot be provided, or cannot read it. -/
def Withholds (ext : External) (settings : Settings) (queued : QueuedRun) (before : Config) (label : Label)
    (_ : Config) : Prop :=
  ∃ choice name, label = .exec .scheduler choice ∧ (before.threads .scheduler).point = .executeRun queued ∧
    before.pending .scheduler = some (.select (.secret name)) ∧
    ((∀ value, ¬before.state.db.Provides ext settings name value) ∨ ∃ text, choice = .fail text)

/-- When the rows of a run have the declared secrets, and what follows when one cannot be provided. -/
structure DeclaredSecrets (ext : External) (settings : Settings) (start : Config) : Prop where
  rows : ∀ history c id row, (system ext settings).Path everything start history c →
    c.state.db.nodeRuns.find id = some row → ∃ (provision : Provision) (earlier : List Label) (before : Config),
      Inserted ext settings everything start id (newNodeRun ext provision.queued.id provision.node) earlier before history ∧
      provision.Valid ext settings everything start earlier before ∧
      row.snapshot = (newNodeRun ext provision.queued.id provision.node).row row.createdAt ∧
      (Furnished ext settings everything start provision earlier before ↔
        settings.secretKey.isSome = true ∨ provision.base.secrets = [])
  refuses : ∀ history c label after queued, (system ext settings).Path everything start history c →
    step ext settings c label = some after → Withholds ext settings queued c label after →
    (∃ reason, after.pending .scheduler = some (.write (.updateJob queued.id (.failBeforeStart reason)))) ∧
      (after.threads .scheduler).code.Within (Abandons queued.id) (· = .schedulerTick)
  fails : ∀ history c queued next, (system ext settings).Path everything start history c →
    Current ext settings start everything .scheduler (Withholds ext settings queued) history c →
    (c.threads .scheduler).code = .done next →
    next = .schedulerTick ∧ Current ext settings start everything .scheduler (FailsRun queued.id) history c

namespace Secrets

variable {ext : External} {settings : Settings} {start c after : Config} {history : List Label}

theorem furnished_iff {provision : Provision} (valid : provision.Valid ext settings everything start history c) :
    Furnished ext settings everything start provision history c ↔
      settings.secretKey.isSome = true ∨ provision.base.secrets = [] := by
  constructor
  · intro furnished
    by_contra neither
    rw [not_or] at neither
    obtain ⟨name, named⟩ := List.exists_mem_of_ne_nil _ neither.2
    obtain ⟨value, ⟨key, row, keyed, -⟩, -⟩ := furnished name named
    exact neither.1 (by rw [keyed]; rfl)
  · rintro (keyed | unnamed) name named
    · have same : (withParam ext provision.paramsJson provision.base).secrets = provision.base.secrets :=
        congrArg (·.secrets) (bare_withParam ext provision.paramsJson provision.base)
      rcases valid.injected.lookup name with ⟨-, -, value, provides, found⟩ | ⟨absent | unnamed, -⟩
      · exact ⟨value, provides, found⟩
      · rw [absent] at keyed
        cases keyed
      · rw [same] at unnamed
        exact absurd named unnamed
    · rw [unnamed] at named
      cases named

/-! ## A secret that cannot be provided -/

def Withheld (ext : External) (settings : Settings) : (op : Op) → op.Reply → Prop
  | .select (.secret _), reply => ∀ key row value, settings.secretKey = some key → reply = .ok (some row) →
      ext.decrypt key row ≠ .ok value
  | _, _ => False

def Stops {E A : Type} (ext : External) (settings : Settings) (op : Op) (rest : op.Reply → Proc Sig E A) : Prop :=
  ∀ reply, Withheld ext settings op reply → ∃ why, rest reply = .halt why

def Attentive {E A : Type} (ext : External) (settings : Settings) (program : Proc Sig E A) : Prop :=
  program.Each (fun _ _ => True) fun op rest => Stops ext settings op rest

section
variable {E F A B : Type}

theorem attentive_bind {program : Proc Sig E A} {next : A → Proc Sig E B} (first : Attentive ext settings program)
    (rest : ∀ value, Attentive ext settings (next value)) : Attentive ext settings (program >>= next) := by
  refine Proc.Each.bind (first.mono fun op rest stops reply withheld => ?_) rest
  obtain ⟨why, same⟩ := stops reply withheld
  refine ⟨why, ?_⟩
  show rest reply >>= next = _
  rw [same]
  rfl

theorem attentive_call {op : Op} {rest : op.Reply → Proc Sig E A} (other : ∀ reply, ¬Withheld ext settings op reply)
    (continues : ∀ reply, Attentive ext settings (rest reply)) :
    Attentive ext settings (.call op rest : Proc Sig E A) :=
  ⟨fun reply withheld => absurd withheld (other reply), fun reply _ => continues reply⟩

theorem attentive_execute [FromSql E] (write : Write) : Attentive ext settings (execute write : Proc Sig E Nat) :=
  attentive_call (fun _ => id) fun reply => by cases reply <;> trivial

theorem attentive_run [FromSql E] (write : Write) : Attentive ext settings (run write : Proc Sig E Unit) :=
  attentive_bind (attentive_execute write) fun _ => trivial

theorem attentive_resolveSecrets {key : String} (keyed : settings.secretKey = some key) (names : List String)
    (resolved : StringMap String) : Attentive ext settings (resolveSecrets ext key names resolved) := by
  induction names generalizing resolved with
  | nil => trivial
  | cons name rest ih =>
    refine ⟨fun reply withheld => ?_, fun reply _ => ?_⟩
    · rcases reply with why | _ | row
      · exact ⟨_, rfl⟩
      · exact ⟨_, rfl⟩
      · cases decrypted : ext.decrypt key row with
        | error why =>
          refine ⟨.internal why, ?_⟩
          simp only [orHalt, Proc.bind, decrypted]
        | ok value => exact absurd decrypted (withheld key row value keyed rfl)
    · rcases reply with why | _ | row
      · trivial
      · trivial
      · simp only [orHalt, Proc.bind]
        cases ext.decrypt key row with
        | error why => trivial
        | ok value => exact ih _

theorem attentive_injectSecrets {key : String} (keyed : settings.secretKey = some key)
    (nodes : List ResolvedNodeDefinition) : Attentive ext settings (injectSecrets ext key nodes) := by
  induction nodes with
  | nil => trivial
  | cons node rest ih =>
    refine Proc.Each.bind (Proc.Each.attempt ((attentive_resolveSecrets keyed node.secrets ∅).mono
      fun op rest stops reply withheld => ?_)) fun resolved => ?_
    · obtain ⟨why, same⟩ := stops reply withheld
      refine ⟨.msg ("failed to resolve secrets for node '" ++ node.id ++ "': " ++ why.debug), ?_⟩
      show (rest reply).attempt >>= _ = _
      rw [same]
      rfl
    · cases resolved with
      | error why => trivial
      | ok secrets => exact attentive_bind ih fun _ => trivial

theorem attentive_ensureNodes (runId : Nat) (nodes : List ResolvedNodeDefinition) (nodeIds : StringMap Nat) :
    Attentive ext settings (ensureNodes ext runId nodes nodeIds) := by
  induction nodes generalizing nodeIds with
  | nil => trivial
  | cons node rest ih =>
    unfold ensureNodes
    split
    · trivial
    · exact attentive_bind (attentive_execute _) fun _ => ih _

theorem attentive_prepareRun (queued : QueuedRun) : Attentive ext settings (prepareRun ext settings queued) := by
  have loads : Attentive ext settings (loadForRun queued) := by
    refine attentive_call (fun _ => id) fun reply => ?_
    cases reply with
    | error why => trivial
    | ok definition =>
      dsimp only
      split <;> trivial
  have params : Attentive ext settings (fetch (.paramsJson queued.id) : Proc Sig AnyError _) :=
    attentive_call (fun _ => id) fun reply => by cases reply <;> trivial
  have secrets : ∀ nodes, Attentive ext settings (withSecrets ext settings nodes) := by
    intro nodes
    unfold withSecrets
    split
    · trivial
    · rename_i key keyed
      exact attentive_injectSecrets keyed nodes
  exact attentive_bind loads fun _ => attentive_bind params fun _ => attentive_bind (secrets _) fun _ =>
    attentive_bind (attentive_ensureNodes _ _ _) fun _ =>
      attentive_bind (attentive_bind (attentive_run _) fun _ => attentive_run _) fun _ => trivial

theorem within_failed (queued : QueuedRun) (why : AnyError) :
    (recover queued.id (.halt why)).Within (Abandons queued.id) (· = .schedulerTick) := by
  have within : (failRunBeforeStart queued.id why.chain).Within (Abandons queued.id) fun _ => True :=
    (within_run ⟨why.chain, .inl rfl⟩).bind fun _ _ => within_run ⟨why.chain, .inr rfl⟩
  exact within.attempt.bind fun _ _ => rfl

def Refused (queued : QueuedRun) (code : Proc Sig Empty Point) : Prop :=
  (∃ reason rest, code = .call (.write (.updateJob queued.id (.failBeforeStart reason))) rest) ∧
    code.Within (Abandons queued.id) (· = .schedulerTick)

theorem refused_recover (queued : QueuedRun) (why : AnyError) : Refused queued (recover queued.id (.halt why)) :=
  ⟨⟨why.chain, _, rfl⟩, within_failed queued why⟩

def RefusesBehind (ext : External) (settings : Settings) (queued : QueuedRun) (code : Proc Sig Empty Point) : Prop :=
  code.Each (fun _ _ => True) fun (op : Op) rest => ∀ reply : op.Reply, Withheld ext settings op reply →
    Refused queued (rest reply)

theorem block_refuses (queued : QueuedRun) : RefusesBehind ext settings queued (block ext settings (.executeRun queued)) := by
  have body : Attentive ext settings (prepareRun ext settings queued >>= fun x => pure (Point.scheduling x)) :=
    attentive_bind (attentive_prepareRun queued) fun _ => trivial
  refine Proc.Each.bind (Proc.Each.attempt (body.mono fun op rest stops reply withheld => ?_)) fun outcome => ?_
  · obtain ⟨why, same⟩ := stops reply withheld
    show Refused queued (recover queued.id (rest reply))
    rw [same]
    exact refused_recover queued why
  · cases outcome with
    | ok next => trivial
    | error why =>
      refine (within_failed queued why).each fun op rest abandons reply withheld => ?_
      obtain ⟨reason, rfl | rfl⟩ := abandons <;> exact withheld.elim

end

section
variable {label : Label} (idle : ∀ slot, start.threads slot = enter ext settings .idle)
include idle

theorem step_refused (run : (system ext settings).Path everything start history c)
    (moved : step ext settings c label = some after) {queued : QueuedRun}
    (withholds : Withholds ext settings queued c label after) :
    (after.threads .scheduler).point = .executeRun queued ∧ Refused queued (after.threads .scheduler).code := by
  obtain ⟨choice, name, rfl, point, next, withheld⟩ := withholds
  have whole : RefusesBehind ext settings queued (block ext settings (c.threads .scheduler).point) := by
    rw [point]
    exact block_refuses queued
  have code := reached_part idle run.reaches .scheduler (RefusesBehind ext settings queued)
    (fun _ _ each reply => each.2 reply trivial) whole
  obtain ⟨op, rest, reply, here, next', ran, threads⟩ := step_exec moved
  cases next.symm.trans next'
  rw [here] at code
  rw [threads, Config.put_self]
  refine ⟨point, code.1 reply fun key row value keyed answered decrypts => ?_⟩
  subst answered
  rcases withheld with missing | ⟨text, rfl⟩
  · obtain ⟨-, ⟨why, impossible⟩ | ⟨answer, member, same⟩⟩ := exec_select ⟨choice, ran⟩
    · cases impossible
    · cases same
      exact missing value ⟨key, row, keyed, member, decrypts⟩
  · cases ran

/-- A preparation from which a secret was withheld ends with the UPDATE that fails its run. -/
theorem ended_failed (run : (system ext settings).Path everything start history c) {queued : QueuedRun} {next : Point}
    (withheld : Current ext settings start everything .scheduler (Withholds ext settings queued) history c)
    (ended : (c.threads .scheduler).code = .done next) :
    next = .schedulerTick ∧ Current ext settings start everything .scheduler (FailsRun queued.id) history c := by
  have refused : Current ext settings start everything .scheduler (fun _ _ after =>
      (after.threads .scheduler).point = .executeRun queued ∧ Refused queued (after.threads .scheduler).code) history c :=
    withheld.imp fun _ _ _ _ run _ moved withholds => step_refused idle run moved withholds
  constructor
  · -- no answer leads away from the queue
    have homeward : Awaits ext settings start everything .scheduler (.executeRun queued) (fun _ _ => False)
        (· = .schedulerTick) history c :=
      refused.awaits run fun _ _ _ _ there => ⟨there.1, there.2.2.until fun why => why.elim⟩
    rcases homeward.ended ended with home | never
    · exact home
    · obtain ⟨_, _, _, _, _, -, -, -, -, _, _, _, -, -, -, -, never⟩ := never.happened
      exact never.elim
  · have waits : Awaits ext settings start everything .scheduler (.executeRun queued) (Op.abandons queued.id)
        (fun _ => False) history c := by
      refine refused.awaits run ?_
      rintro _ _ after - ⟨there, ⟨reason, rest, code⟩, -⟩
      rw [code]
      exact ⟨there, fun _ => .inl rfl⟩
    exact abandons_fails idle ((waits.ended ended).resolve_left id)

end

end Secrets

theorem declared_secrets (ext : External) (settings : Settings) (files : String → Option String) (clock : Nat) :
    DeclaredSecrets ext settings (Config.initial ext settings files clock) where
  rows := by
    intro history c id row run found
    obtain ⟨provision, earlier, before, inserted, valid, snapshot⟩ :=
      path_provided (Config.initial_idle ext settings files clock) (fun _ => rfl) run found
    exact ⟨provision, earlier, before, inserted, valid, snapshot, Secrets.furnished_iff valid⟩
  refuses := by
    intro history c label after queued run moved withholds
    obtain ⟨-, ⟨reason, rest, code⟩, within⟩ :=
      Secrets.step_refused (Config.initial_idle ext settings files clock) run moved withholds
    exact ⟨⟨reason, pending_eq_some.mpr ⟨rest, code⟩⟩, within⟩
  fails := fun _ _ _ _ run withheld ended =>
    Secrets.ended_failed (Config.initial_idle ext settings files clock) run withheld ended

/-! ## A deployment with a secret -/

namespace Sample

def deployYaml : String :=
"version: 1
id: deploy
name: Deploy
defaults:
  working_dir: /tmp
nodes:
  - id: push
    program: rsync
    secrets: [DEPLOY_KEY]
"

def deploy : JobDefinition where
  version := 1
  id := "deploy"
  name := "Deploy"
  defaults := some { workingDir := some "/tmp" }
  nodes := [{ id := "push", program := "rsync", secrets := some ["DEPLOY_KEY"] }]

def deploying : External where
  __ := ext
  parseYaml text := if text = deployYaml then .ok deploy else .error "missing field version"

def deployFiles (path : String) : Option String := if path = "deploy.yaml" then some deployYaml else none

def deployQueued : List Label := started "deploy.yaml" "deploy" ++ block 1 ++ block 5 ++ block 1 ++ block 3

theorem deploying_resolves {contents : String} {definition : ResolvedJobDefinition}
    (resolves : deploying.Resolves contents definition) : ∀ node ∈ definition.nodes, node.secrets = ["DEPLOY_KEY"] := by
  obtain ⟨source, parsed, accepted⟩ := resolves
  have isDeploy : source = deploy := by
    simp only [deploying] at parsed
    split at parsed
    · exact (Except.ok.inj parsed).symm
    · cases parsed
  have secrets : deploy.resolve.toOption.map (fun definition => definition.nodes.map (·.secrets)) =
      some [["DEPLOY_KEY"]] := by decide +kernel
  rw [isDeploy] at accepted
  rw [accepted] at secrets
  have same : definition.nodes.map (·.secrets) = [["DEPLOY_KEY"]] := Option.some.inj secrets
  intro node member
  have listed : node.secrets ∈ definition.nodes.map (·.secrets) := List.mem_map_of_mem member
  rw [same] at listed
  exact List.mem_singleton.mp listed

def deployInitial : Config := Config.initial deploying keyed deployFiles 1000000

/-- The preparation up to the read of the secret. -/
def deployReading : List Label := started "deploy.yaml" "deploy" ++ block 1 ++ turns .scheduler 2

def reading : Option Op → Option String
  | some (.select (.secret name)) => some name
  | _ => none

theorem reading_eq {op : Option Op} {name : String} (found : reading op = some name) :
    op = some (.select (.secret name)) := by
  unfold reading at found
  split at found
  · cases found
    rfl
  · cases found

theorem not_provides {db : Db} {name : String} (missing : (Select.secret name).answers db = [none]) (value : String) :
    ¬db.Provides deploying keyed name value := by
  rintro ⟨key, row, -, member, -⟩
  rw [missing] at member
  cases List.mem_singleton.mp member

theorem deploy_path {labels : List Label} {c : Config}
    (followed : (system deploying keyed).follow (fun _ _ => true) deployInitial labels = some c) :
    (system deploying keyed).Path everything deployInitial labels.reverse c := by
  have path : (system deploying keyed).Path everything deployInitial (labels.reverse ++ []) c :=
    (system deploying keyed).follow_path (fun _ _ _ => trivial) .nil followed
  rwa [List.append_nil] at path

end Sample

/-- A run fails for a secret that nobody has created; where it was created, the node gets it. -/
theorem declared_secrets_deploy : ∃ (queued : QueuedRun) (before after c c' : Config) (label : Label)
    (row : NodeRun),
    Withholds Sample.deploying Sample.keyed queued before label after ∧
    (∃ reason, after.pending .scheduler = some (.write (.updateJob queued.id (.failBeforeStart reason)))) ∧
    (system Sample.deploying Sample.keyed).Path everything Sample.deployInitial
      (label :: label :: label :: Sample.deployReading.reverse) c ∧
    Current Sample.deploying Sample.keyed Sample.deployInitial everything .scheduler (FailsRun queued.id)
      (label :: label :: label :: Sample.deployReading.reverse) c ∧
    (c.state.db.jobRuns.find queued.id).map (·.status) = some .failed ∧
    (system Sample.deploying Sample.keyed).Path everything Sample.deployInitial
      (Sample.withSecret "deploy.yaml" "deploy" "alpha" 4).reverse c' ∧
    c'.state.db.nodeRuns.find 1 = some row ∧
    ∃ (provision : Provision) (earlier : List Label) (moment : Config),
      Inserted Sample.deploying Sample.keyed everything Sample.deployInitial 1
        (newNodeRun Sample.deploying provision.queued.id provision.node) earlier moment
        (Sample.withSecret "deploy.yaml" "deploy" "alpha" 4).reverse ∧
      provision.base.secrets = ["DEPLOY_KEY"] ∧
      Furnished Sample.deploying Sample.keyed everything Sample.deployInitial provision earlier moment := by
  have law := declared_secrets Sample.deploying Sample.keyed Sample.deployFiles 1000000
  let label : Label := .exec .scheduler (.answer 0)
  have withheld : ((system Sample.deploying Sample.keyed).follow (fun _ _ => true) Sample.deployInitial
      Sample.deployReading).any (fun before => (Sample.preparing (before.threads .scheduler).point).any fun queued =>
        (Sample.reading (before.pending .scheduler)).any fun name =>
          decide ((Select.secret name).answers before.state.db = [none]) &&
          (step Sample.deploying Sample.keyed before label).any fun after =>
          (step Sample.deploying Sample.keyed after label).any fun middle =>
          (step Sample.deploying Sample.keyed middle label).any fun c => (c.ended .scheduler).isSome &&
            decide ((c.state.db.jobRuns.find queued.id).map (·.status) = some .failed)) = true := by
    decide +kernel
  have inserted : ((system Sample.deploying Sample.keyed).follow (fun _ _ => true) Sample.deployInitial
      (Sample.withSecret "deploy.yaml" "deploy" "alpha" 4)).any (fun c => (c.state.db.nodeRuns.find 1).isSome) = true := by
    decide +kernel
  obtain ⟨before, followed, passed⟩ := (Option.any_eq_true _ _).mp withheld
  obtain ⟨queued, here, passed⟩ := (Option.any_eq_true _ _).mp passed
  obtain ⟨name, reads, passed⟩ := (Option.any_eq_true _ _).mp passed
  obtain ⟨missing, passed⟩ := Bool.and_eq_true_iff.mp passed
  obtain ⟨after, moved, passed⟩ := (Option.any_eq_true _ _).mp passed
  obtain ⟨middle, moved', passed⟩ := (Option.any_eq_true _ _).mp passed
  obtain ⟨c, moved'', passed⟩ := (Option.any_eq_true _ _).mp passed
  obtain ⟨ended, failed⟩ := Bool.and_eq_true_iff.mp passed
  obtain ⟨next, ended⟩ := Option.isSome_iff_exists.mp ended
  have run := Sample.deploy_path followed
  have withholds : Withholds Sample.deploying Sample.keyed queued before label after :=
    ⟨.answer 0, name, rfl, Sample.preparing_eq here, Sample.reading_eq reads,
      .inl (Sample.not_provides (of_decide_eq_true missing))⟩
  have own : ∀ point, ¬Entry (.exec .scheduler (.answer 0)) .scheduler point := fun _ entry => by cases entry
  have current : Current Sample.deploying Sample.keyed Sample.deployInitial everything .scheduler
      (Withholds Sample.deploying Sample.keyed queued) (label :: label :: label :: Sample.deployReading.reverse) c :=
    ((Current.now run trivial moved withholds).keep moved' (by simp [label]) own).keep moved'' (by simp [label]) own
  obtain ⟨c', followed', passed'⟩ := (Option.any_eq_true _ _).mp inserted
  obtain ⟨row, found⟩ := Option.isSome_iff_exists.mp passed'
  have run' := Sample.deploy_path followed'
  obtain ⟨provision, earlier, moment, born, valid, -, furnished⟩ := law.rows _ c' 1 row run' found
  exact ⟨queued, before, after, c, c', label, row, withholds, (law.refuses _ _ _ _ queued run moved withholds).1,
    current.path, (law.fails _ c queued next current.path current (ended_eq_some.mp ended)).2, of_decide_eq_true failed,
    run', found, provision, earlier, moment, born, Sample.deploying_resolves valid.resolves provision.base valid.base,
    furnished.mpr (.inl rfl)⟩

/-! ## A server without a key -/

theorem declared_secrets_no_key : ¬∀ ext settings files clock history c id row,
    (system ext settings).Path everything (Config.initial ext settings files clock) history c →
    c.state.db.nodeRuns.find id = some row → row.status = .queued →
    ∃ (provision : Provision) (earlier : List Label) (before : Config),
      Inserted ext settings everything (Config.initial ext settings files clock) id
        (newNodeRun ext provision.queued.id provision.node) earlier before history ∧
      provision.Valid ext settings everything (Config.initial ext settings files clock) earlier before ∧
      Furnished ext settings everything (Config.initial ext settings files clock) provision earlier before := by
  intro claim
  have passed : ((system Sample.deploying Sample.settings).follow (fun _ _ => true)
      (Config.initial Sample.deploying Sample.settings Sample.deployFiles 1000000) Sample.deployQueued).any (fun c =>
        (c.state.db.nodeRuns.find 1).any fun row => row.status = .queued) = true := by
    decide +kernel
  obtain ⟨c, followed, passed⟩ := (Option.any_eq_true _ _).mp passed
  obtain ⟨row, found, queued⟩ := (Option.any_eq_true _ _).mp passed
  obtain ⟨history, run⟩ := ((system Sample.deploying Sample.settings).follow_reaches
    (fun _ _ _ => trivial) followed : (system _ _).Reaches everything _ c).path
  obtain ⟨provision, earlier, before, -, valid, furnished⟩ :=
    claim _ _ _ _ _ _ _ _ run found (of_decide_eq_true queued)
  have declared := Sample.deploying_resolves valid.resolves provision.base valid.base
  rcases (Secrets.furnished_iff valid).mp furnished with keyed | undeclared
  · cases keyed
  · rw [declared] at undeclared
    cases undeclared

end PostJen.Server
