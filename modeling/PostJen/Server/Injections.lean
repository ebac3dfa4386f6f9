import PostJen.Server.Secrets
import PostJen.Server.Vault

/-! From a client that stores a secret to the node that uses it.

The environment of a node is filled while its run is prepared, and requests may
change the secrets meanwhile. Each value in it is the one that its secret had at
some moment of the preparation, and a client has sent it for this secret.
-/

set_option autoImplicit false

open PostJen.Foundations PostJen.Core

namespace PostJen.Server

def Sends (name value : String) (before : Config) (label : Label) (_ : Config) : Prop :=
  ∃ slot choice requested row, label = .exec slot choice ∧
    (before.threads slot).point = .received (.createSecret requested value) ∧ name = trim requested ∧
    before.pending slot = some (.write (.secret name row))

/-- A secret had this value at a moment since the preparation of a run began. -/
structure WasStored (ext : External) (settings : Settings) (start : Config) (queued : QueuedRun) (name value : String)
    (recent moment : List Label) (c : Config) : Prop where
  run : (system ext settings).Path everything start moment c
  prepares : (c.threads .scheduler).point = .executeRun queued
  since : .resume .scheduler ∉ recent
  worth : secretValue ext settings start moment name = some value
  sent : (system ext settings).Happened everything start (Sends name value) moment

namespace Injections

variable {ext : External} {settings : Settings} {admits : Config → Label → Prop} {start c after : Config}
  {history : List Label} {label : Label}

def Within (slot : Slot) (label : Label) : Prop := label ≠ .resume slot ∧ ∀ point, ¬Entry label slot point

theorem step_point {slot : Slot} (moved : step ext settings c label = some after) (within : Within slot label) :
    (after.threads slot).point = (c.threads slot).point := by
  have stepped := thread_step moved slot
  generalize after.threads slot = thread at stepped ⊢
  cases stepped with
  | same => rfl
  | exec => rfl
  | resume => exact absurd rfl within.1
  | entered entry => exact absurd entry (within.2 _)

theorem current_split {slot : Slot} {event : Config → Label → Config → Prop}
    (own : ∀ before label after, event before label after → Within slot label)
    (current : Current ext settings start admits slot event history c) :
    ∃ recent label moment before after, history = recent ++ label :: moment ∧
      (system ext settings).Path admits start moment before ∧ event before label after ∧
      (c.threads slot).point = (before.threads slot).point ∧ ∀ later ∈ recent, Within slot later := by
  induction current with
  | @now moment before after label run _ moved happens =>
    exact ⟨[], label, moment, before, after, rfl, run, happens, step_point moved (own _ _ _ happens),
      fun _ member => by cases member⟩
  | @keep history before after label _ moved here stays ih =>
    obtain ⟨recent, first, moment, middle, next, rfl, run, happens, point, later⟩ := ih
    refine ⟨label :: recent, first, moment, middle, next, rfl, run, happens,
      (step_point moved ⟨here, stays⟩).trans point, fun other member => ?_⟩
    rcases List.mem_cons.mp member with rfl | member
    · exact ⟨here, stays⟩
    · exact later other member

section
variable (idle : ∀ slot, start.threads slot = enter ext settings .idle)
  (inverts : ∀ key value nonce text, ext.encrypt key value nonce = .ok text →
    ext.decrypt key ⟨text, nonce⟩ = .ok value)
include idle inverts

/-- A value among the edits was sent by a client. -/
theorem edit_sent (run : (system ext settings).Path everything start history c) {slot : Slot} {name value : String}
    (listed : (slot, .put name value) ∈ secretEdits ext settings start history) :
    (system ext settings).Happened everything start (Sends name value) history := by
  induction run with
  | nil => cases listed
  | @cons history before after label run admitted moved ih =>
    rw [Vault.secretEdits_cons run] at listed
    rcases List.mem_append.mp listed with now | listed
    · refine run.happens admitted moved ?_
      have makes : secretEdit ext before label = some (slot, .put name value) := Option.mem_toList.mp now
      -- a stored value comes from the statement of a request that has encrypted what it was sent
      cases label with
      | exec turn choice =>
        obtain ⟨op, rest, reply, code, next, ran, -⟩ :=
          step_exec (show step ext settings before (.exec turn choice) = some after from moved)
        have edit := (Vault.secretEdit_exec code ran).symm.trans makes
        obtain ⟨made, counted, same⟩ := Option.map_eq_some_iff.mp edit
        cases same
        cases Vault.run_effect ran with
        | none silent _ =>
          rw [silent] at counted
          cases counted
        | put other row isPut counts _ _ =>
          subst isPut
          obtain ⟨requested, text, key, point, named, -⟩ := Vault.pending_secret idle inverts run next
          rw [counts, point] at counted
          cases counted
          exact ⟨slot, choice, requested, row, rfl, point, named, next⟩
        | remove other counts _ _ =>
          rw [counts] at counted
          cases counted
      | _ => cases makes
    · exact (ih listed).later _

theorem provides_stored (empty : start.state.db.secrets = .empty) {queued : QueuedRun} {name value : String}
    (prepares : (c.threads .scheduler).point = .executeRun queued)
    (provides : Provides ext settings everything start history c name value) :
    ∃ recent label moment before, history = recent ++ label :: moment ∧
      WasStored ext settings start queued name value recent moment before := by
  obtain ⟨key, row, keyed, current, decrypts⟩ := provides
  obtain ⟨recent, label, moment, before, after, split, run, fetches, point, within⟩ := current_split (fun _ _ _ fetches => by
    obtain ⟨⟨index, rfl⟩, -⟩ := fetches
    exact ⟨nofun, fun _ entry => by cases entry⟩) current
  have sound := Vault.path_sound idle inverts empty run
  have worth : secretValue ext settings start moment name = some value := by
    rw [← (sound.keeps name).secret]
    obtain ⟨found, there, rfl⟩ := Option.map_eq_some_iff.mp (List.mem_singleton.mp fetches.2.2).symm
    simp only [Db.secret, keyed, there, bind, Option.bind, decrypts, Except.toOption]
  refine ⟨recent, label, moment, before, split, run, point.symm.trans prepares, ?_, worth, ?_⟩
  · exact fun member => (within _ member).1 rfl
  · obtain ⟨newer, older, edits, -⟩ := Edit.replay_eq_some.mp worth
    have listed : Edit.put name value ∈ (secretEdits ext settings start moment).map Prod.snd := by
      rw [edits]
      exact List.mem_append_right _ List.mem_cons_self
    obtain ⟨⟨slot, _⟩, member, rfl⟩ := List.mem_map.mp listed
    exact edit_sent idle inverts run member

end

end Injections

/-- With a server key every secret that a node declares is in the environment it was inserted with, under the value that
the secret had at a moment of the preparation of its run. -/
theorem secrets_delivered (ext : External) (settings : Settings) (files : String → Option String) (clock : Nat)
    (inverts : ∀ key value nonce text, ext.encrypt key value nonce = .ok text →
      ext.decrypt key ⟨text, nonce⟩ = .ok value) (keyed : settings.secretKey.isSome = true)
    {history : List Label} {c : Config} {id : Nat} {row : NodeRun}
    (run : (system ext settings).Path everything (Config.initial ext settings files clock) history c)
    (found : c.state.db.nodeRuns.find id = some row) :
    ∃ (provision : Provision) (earlier : List Label) (before : Config),
      Inserted ext settings everything (Config.initial ext settings files clock) id
        (newNodeRun ext provision.queued.id provision.node) earlier before history ∧
      provision.Valid ext settings everything (Config.initial ext settings files clock) earlier before ∧
      row.snapshot = (newNodeRun ext provision.queued.id provision.node).row row.createdAt ∧
      ∀ name ∈ provision.base.secrets, ∃ value, provision.node.env.lookup name = some value ∧
        ∃ recent label moment middle, earlier = recent ++ label :: moment ∧
          WasStored ext settings (Config.initial ext settings files clock) provision.queued name value recent moment middle := by
  have idle := Config.initial_idle ext settings files clock
  obtain ⟨provision, earlier, before, inserted, valid, snapshot⟩ := path_provided idle (fun _ => rfl) run found
  refine ⟨provision, earlier, before, inserted, valid, snapshot, fun name declared => ?_⟩
  obtain ⟨value, provides, worth⟩ := (Secrets.furnished_iff valid).mpr (.inl keyed) name declared
  exact ⟨value, worth, Injections.provides_stored idle inverts rfl valid.point provides⟩

/-- The node of the sample has the secret in its environment. -/
theorem secrets_delivered_deploy : ∃ (row : NodeRun) (queued : QueuedRun) (value : String)
    (recent : List Label) (label : Label) (moment : List Label) (middle : Config),
      row.envJson = some "\x7b\"DEPLOY_KEY\":\"alpha\"\x7d" ∧
      WasStored Sample.deploySealing Sample.keyed
        (Config.initial Sample.deploySealing Sample.keyed Sample.deployFiles 1000000) queued "DEPLOY_KEY" value recent
        moment middle ∧
      recent ++ label :: moment <:+ (Sample.withSecret "deploy.yaml" "deploy" "alpha" 4).reverse := by
  have passed : ((system Sample.deploySealing Sample.keyed).follow (fun _ _ => true)
      (Config.initial Sample.deploySealing Sample.keyed Sample.deployFiles 1000000)
        (Sample.withSecret "deploy.yaml" "deploy" "alpha" 4)).any (fun c => (c.state.db.nodeRuns.find 1).any fun row =>
      row.envJson = some "\x7b\"DEPLOY_KEY\":\"alpha\"\x7d") = true := by
    decide +kernel
  obtain ⟨c, followed, passed⟩ := (Option.any_eq_true _ _).mp passed
  obtain ⟨row, found, env⟩ := (Option.any_eq_true _ _).mp passed
  have run : (system Sample.deploySealing Sample.keyed).Path everything _ (_ ++ []) c :=
    (system Sample.deploySealing Sample.keyed).follow_path (fun _ _ _ => trivial) .nil followed
  rw [List.append_nil] at run
  obtain ⟨provision, earlier, before, inserted, valid, -, delivers⟩ := secrets_delivered Sample.deploySealing Sample.keyed
    Sample.deployFiles 1000000 Sample.deploySealing_enciphers.inverts rfl run found
  obtain ⟨source, parsed, accepted⟩ := valid.resolves
  have parser : Sample.deploySealing.parseYaml = Sample.deploying.parseYaml := by simp only [Sample.deploySealing]
  rw [parser] at parsed
  have declared := Sample.deploying_resolves ⟨source, parsed, accepted⟩ provision.base valid.base
  obtain ⟨value, -, recent, label, moment, middle, rfl, stored⟩ := delivers "DEPLOY_KEY" (by rw [declared]; decide)
  obtain ⟨later, choice, split, -⟩ := inserted.split
  exact ⟨row, provision.queued, value, recent, label, moment, middle, of_decide_eq_true env, stored,
    later ++ [.exec .scheduler choice], by rw [split, List.append_assoc, List.singleton_append]⟩

end PostJen.Server
