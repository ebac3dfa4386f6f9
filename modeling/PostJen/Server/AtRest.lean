import PostJen.Server.Twins
import PostJen.Server.Secrets

/-! Secrets at rest.

Beside the table of secrets the database depends on their values in one place,
the environment that a row of a node keeps. Where no row is inserted for a node
that lists secrets, runs with other values leave equal tables behind.
-/

set_option autoImplicit false

open PostJen.Foundations PostJen.Core

namespace PostJen.Server

/-- Two steps that differ at most in the value of a secret that is created. -/
inductive Label.Twin : Label → Label → Prop where
  | same (label : Label) : Twin label label
  | secret (n : Nat) (name value value' : String) :
      Twin (.receive n (.createSecret name value)) (.receive n (.createSecret name value'))

/-- There is no key, or every row was inserted for a node that lists no secret in the definition loaded for it. -/
def Sealed (ext : External) (settings : Settings) (start : Config) (history : List Label) : Prop :=
  settings.secretKey = none ∨ ∀ id new earlier before queued contents definition base,
    Inserted ext settings everything start id new earlier before history →
    Current ext settings start everything .scheduler (Loads ext queued contents definition) earlier before →
    base ∈ definition.nodes → base.id = new.nodeId → base.secrets = []

theorem Sealed.earlier {ext : External} {settings : Settings} {start : Config} {label : Label} {history : List Label}
    (noLeak : Sealed ext settings start (label :: history)) : Sealed ext settings start history := by
  rcases noLeak with absent | unlisted
  · exact .inl absent
  · refine .inr fun id new earlier before queued contents definition base inserted => ?_
    obtain ⟨recent, choice, rfl, rest⟩ := inserted.split
    exact unlisted id new earlier before queued contents definition base
      ⟨⟨label :: recent, choice, rfl, rest⟩, inserted.run, inserted.next, inserted.fresh⟩

namespace AtRest

variable {ext : External} {settings : Settings}

/-! ## One operation on both sides -/

structure Common (ext : External) (settings : Settings) (s s' : State) : Prop where
  masked : s.masked = s'.masked
  opens : s.db.Open ext settings
  opens' : s'.db.Open ext settings

theorem Common.find {s s' : State} (common : Common ext settings s s') (name : String) :
    (s.db.secrets.find name = none ∧ s'.db.secrets.find name = none) ∨
      ∃ row row', s.db.secrets.find name = some row ∧ s'.db.secrets.find name = some row' := by
  have masked : (s.db.secrets.find name).map SecretRow.masked = (s'.db.secrets.find name).map SecretRow.masked := by
    have tables : s.masked.db.secrets.find name = s'.masked.db.secrets.find name := by rw [common.masked]
    exact (Table.find_update _ _ _).symm.trans (tables.trans (Table.find_update _ _ _))
  cases found : s.db.secrets.find name with
  | none =>
    rw [found] at masked
    exact .inl ⟨rfl, Option.map_eq_none_iff.mp masked.symm⟩
  | some row =>
    rw [found] at masked
    obtain ⟨row', found', -⟩ := Option.map_eq_some_iff.mp masked.symm
    exact .inr ⟨row, row', rfl, found'⟩

theorem read_secret {s s' after : State} (common : Common ext settings s s') (name : String) {choice : Choice}
    {reply : (Op.select (.secret name)).Reply} (ran : (Op.select (.secret name)).run ext choice s = some (reply, after)) :
    after = s ∧ ∃ reply', (Op.select (.secret name)).run ext choice s' = some (reply', s') ∧
      Read ext settings reply reply' := by
  cases choice with
  | answer index =>
    simp only [Op.run, Select.answers] at ran ⊢
    cases index with
    | zero =>
      obtain ⟨rfl, rfl⟩ := Prod.mk.inj (Option.some.inj ran)
      refine ⟨rfl, _, rfl, ?_⟩
      rcases common.find name with ⟨found, found'⟩ | ⟨row, row', found, found'⟩
      · rw [found, found']
        exact .absent
      · rw [found, found']
        exact .present (common.opens name row found) (common.opens' name row' found')
    | succ index => cases ran
  | fail text =>
    cases ran
    exact ⟨rfl, _, rfl, .failed _⟩
  | _ => cases ran

theorem run_refused {new : NewNodeRun} {choice : Choice} {s after : State} {why : SqlError} (envJson : Option String)
    (ran : (Op.write (.insertNode new)).run ext choice s = some (.error why, after)) :
    (Op.write (.insertNode { new with envJson })).run ext choice s = some (.error why, after) := by
  cases choice with
  | answer index =>
    simp only [Op.run, Write.apply] at ran ⊢
    by_cases zero : new.timeoutSec = 0
    · rw [if_pos zero] at ran ⊢
      exact ran
    · rw [if_neg zero] at ran ⊢
      by_cases taken : (s.db.nodeRuns.rows.any fun row => row.2.jobRunId = new.jobRunId && row.2.nodeId = new.nodeId) = true
      · rw [if_pos taken] at ran ⊢
        exact ran
      · rw [if_neg taken] at ran ⊢
        by_cases orphan : (!s.db.hasRun new.jobRunId) = true
        · rw [if_pos orphan] at ran ⊢
          exact ran
        · rw [if_neg orphan] at ran
          cases ran
  | fail text =>
    cases ran
    rfl
  | _ => cases ran

theorem run_common {s s' after : State} {op : Op} {choice : Choice} {reply : op.Reply}
    (common : Common ext settings s s') (discreet : op.discreet = true) (ran : op.run ext choice s = some (reply, after)) :
    ∃ after', op.run ext choice s' = some (reply, after') ∧ Common ext settings after after' := by
  obtain ⟨after', ran', masked⟩ := run_discreet discreet common.masked ran
  have stores : ∀ name value, op = .write (.secret name value) → ext.Opens settings value := by
    rintro name value rfl
    cases discreet
  exact ⟨after', ran', masked, run_open stores ran common.opens, run_open stores ran' common.opens'⟩

theorem run_alike {s s' after : State} {op op' : Op} {known : Known} {choice : Choice} {reply : op.Reply}
    (common : Common ext settings s s') (alike : op.Alike ext settings known op')
    (ran : op.run ext choice s = some (reply, after))
    (inserts : ∀ new, op = .write (.insertNode new) → settings.secretKey ≠ none →
      after.db.nodeRuns.find s.db.nodeRuns.next = some (new.row s.now) →
      ∀ definition base, known definition → base ∈ definition.nodes → base.id = new.nodeId → base.secrets = []) :
    ∃ reply' after', op'.run ext choice s' = some (reply', after') ∧ op.Answers ext settings op' reply reply' ∧
      Common ext settings after after' := by
  cases alike with
  | same discreet =>
    obtain ⟨after', ran', common'⟩ := run_common common discreet ran
    exact ⟨reply, after', ran', (answers_discreet discreet).mpr rfl, common'⟩
  | read name =>
    obtain ⟨rfl, reply', ran', read⟩ := read_secret common name ran
    exact ⟨reply', s', ran', read, common⟩
  | @store name value value' opens opens' =>
    obtain ⟨after', ran', masked⟩ := run_secret value' common.masked ran
    refine ⟨reply, after', ran', HEq.rfl, masked, run_open ?_ ran common.opens, run_open ?_ ran' common.opens'⟩
    · rintro _ _ ⟨⟩
      exact opens
    · rintro _ _ ⟨⟩
      exact opens'
  | insert new envJson keyed loaded member named lists =>
    rcases exec_insertNode ⟨choice, ran⟩ with ⟨⟨why, rfl⟩, rfl⟩ | ⟨-, -, rows⟩
    · obtain ⟨after', ran', common'⟩ := run_common common rfl (run_refused envJson ran)
      exact ⟨_, after', ran', HEq.rfl, common'⟩
    · have row : after.db.nodeRuns.find s.db.nodeRuns.next = some (new.row s.now) := by
        rw [rows, Serial.find_insert, if_pos rfl]
      exact absurd (inserts new rfl keyed row _ _ loaded member named) lists

/-! ## Whole runs -/

def loaded (ext : External) (settings : Settings) (start : Config) (history : List Label) (c : Config) : Known :=
  fun definition => ∃ queued contents,
    Current ext settings start everything .scheduler (Loads ext queued contents definition) history c

/-- Two tasks that take the same course, with what the first has loaded if it is the scheduler. -/
structure Side (ext : External) (settings : Settings) (slot : Slot) (loaded : Known) (thread thread' : Thread Sig Point) :
    Prop where
  point : thread.point.Alike thread'.point
  code : ∃ known : Known, (∀ definition, known definition → slot = .scheduler → loaded definition) ∧
    thread.code.Paired (thread.point.pairing ext settings) Point.Alike Eq thread'.code known

structure Twins (ext : External) (settings : Settings) (facts : Known) (c c' : Config) : Prop where
  common : Common ext settings c.state c'.state
  threads : ∀ slot, Side ext settings slot facts (c.threads slot) (c'.threads slot)

section
variable {start c c' after : Config} {history : List Label} {slot : Slot} {facts later : Known}

theorem side_enter (enciphers : ext.Enciphers) {point point' : Point} (alike : point.Alike point') :
    Side ext settings slot facts (enter ext settings point) (enter ext settings point') where
  point := alike
  code := ⟨fun _ => False, fun _ never => never.elim, block_paired enciphers alike⟩

theorem Side.mono {thread thread' : Thread Sig Point} (side : Side ext settings slot facts thread thread')
    (keeps : slot = .scheduler → ∀ definition, facts definition → later definition) :
    Side ext settings slot later thread thread' := by
  obtain ⟨known, sound, paired⟩ := side.code
  exact ⟨side.point, known, fun definition knows here => keeps here definition (sound definition knows here), paired⟩

theorem Twins.mono (twins : Twins ext settings facts c c') (keeps : ∀ definition, facts definition → later definition) :
    Twins ext settings later c c' :=
  ⟨twins.common, fun slot => (twins.threads slot).mono fun _ => keeps⟩

theorem Twins.put (twins : Twins ext settings facts c c') {thread thread' : Thread Sig Point}
    (side : Side ext settings slot later thread thread')
    (keeps : slot ≠ .scheduler → ∀ definition, facts definition → later definition) :
    Twins ext settings later (c.put slot thread) (c'.put slot thread') where
  common := twins.common
  threads := by
    intro other
    by_cases same : other = slot
    · subst same
      rw [Config.put_self, Config.put_self]
      exact side
    · rw [Config.put_ne _ _ same, Config.put_ne _ _ same]
      exact (twins.threads other).mono fun here => keeps fun there => same (here.trans there.symm)

theorem loaded_keep {label : Label} (moved : step ext settings c label = some after) (notResumed : label ≠ .resume .scheduler)
    (notEntered : ∀ point, ¬Entry label .scheduler point) (definition : ResolvedJobDefinition)
    (known : loaded ext settings start history c definition) :
    loaded ext settings start (label :: history) after definition := by
  obtain ⟨queued, contents, current⟩ := known
  exact ⟨queued, contents, current.keep moved notResumed notEntered⟩

theorem learned {choice : Choice} {op : Op} {rest : op.Reply → Proc Sig Empty Point} {reply : op.Reply} {state : State}
    {known : Known} (run : (system ext settings).Path everything start history c)
    (moved : step ext settings c (.exec .scheduler choice) = some after) (next : (c.threads .scheduler).code = .call op rest)
    (ran : op.run ext choice c.state = some (reply, state))
    (sound : ∀ definition, known definition → loaded ext settings start history c definition)
    (definition : ResolvedJobDefinition) (knows : (c.threads .scheduler).point.learn op reply known definition) :
    loaded ext settings start (.exec .scheduler choice :: history) after definition := by
  have before : known definition → loaded ext settings start (.exec .scheduler choice :: history) after definition :=
    fun knows => loaded_keep moved (by rintro ⟨⟩) (by rintro _ ⟨⟩) definition (sound definition knows)
  cases op with
  | load path =>
    cases reply with
    | error why => exact before knows
    | ok found =>
      rcases knows with knows | ⟨rfl, queued, point, rfl⟩
      · exact before knows
      · obtain ⟨contents, ⟨index, rfl⟩, file, resolves⟩ := run_load ran
        exact ⟨queued, contents, .now run trivial moved
          ⟨⟨index, rfl⟩, point, pending_eq_some.mpr ⟨rest, next⟩, file, resolves⟩⟩
  | _ => exact before knows

theorem twins_exec (idle : ∀ slot, start.threads slot = enter ext settings .idle)
    (run : (system ext settings).Path everything start history c) {choice : Choice}
    (moved : step ext settings c (.exec slot choice) = some after)
    (noLeak : Sealed ext settings start (.exec slot choice :: history))
    (twins : Twins ext settings (loaded ext settings start history c) c c') :
    ∃ after', step ext settings c' (.exec slot choice) = some after' ∧
      Twins ext settings (loaded ext settings start (.exec slot choice :: history) after) after after' := by
  have shape := step_moved moved
  cases shape with
  | @exec slot choice op rest reply state next ran =>
  obtain ⟨alike, known, sound, paired⟩ := twins.threads slot
  rw [next] at paired
  obtain ⟨op', rest', next', opAlike, continues⟩ := paired.call
  have inserts : ∀ new, op = .write (.insertNode new) → settings.secretKey ≠ none →
      state.db.nodeRuns.find c.state.db.nodeRuns.next = some (new.row c.state.now) →
      ∀ definition base, known definition → base ∈ definition.nodes → base.id = new.nodeId → base.secrets = [] := by
    rintro new rfl keyed row definition base knows member named
    have pending : c.pending slot = some (.write (.insertNode new)) := pending_eq_some.mpr ⟨rest, next⟩
    obtain ⟨rfl, -⟩ := inserts_of_pending idle run trivial moved pending
    obtain ⟨queued, contents, current⟩ := sound definition knows rfl
    rcases noLeak with absent | unlisted
    · exact absurd absent keyed
    · exact unlisted _ new history c queued contents definition base
        ⟨⟨[], choice, rfl, trivial, _, moved, row⟩, run, pending, Serial.find_next _⟩ current member named
  obtain ⟨reply', state', ran', answers, common⟩ := run_alike twins.common opAlike ran inserts
  have sides : Twins ext settings (loaded ext settings start history c) ⟨state, c.threads⟩ ⟨state', c'.threads⟩ :=
    ⟨common, twins.threads⟩
  refine ⟨(⟨state', c'.threads⟩ : Config).put slot ⟨(c'.threads slot).point, rest' reply'⟩,
    by simp only [step, next', ran', Option.map_some], sides.put ⟨alike, _, ?_, continues reply reply' answers⟩
      fun _ => loaded_keep moved (by rintro ⟨⟩) (by rintro _ ⟨⟩)⟩
  rintro definition knows rfl
  exact learned run moved next ran (fun definition knows => sound definition knows rfl) definition knows

theorem twins_step (enciphers : ext.Enciphers) (idle : ∀ slot, start.threads slot = enter ext settings .idle)
    (run : (system ext settings).Path everything start history c) {label label' : Label} (twin : label.Twin label')
    (moved : step ext settings c label = some after) (noLeak : Sealed ext settings start (label :: history))
    (twins : Twins ext settings (loaded ext settings start history c) c c') :
    ∃ after', step ext settings c' label' = some after' ∧
      Twins ext settings (loaded ext settings start (label :: history) after) after after' := by
  -- the second server can take each step of the first, and is then still its twin
  have whole := step_moved moved
  cases whole with
  | @exec slot choice op rest reply state next ran =>
    cases twin
    exact twins_exec idle run moved noLeak twins
  | @resume slot point ended =>
    cases twin
    obtain ⟨-, known, -, paired⟩ := twins.threads slot
    rw [ended] at paired
    obtain ⟨point', ended', alike⟩ := paired.done
    refine ⟨_, by simp only [step, ended'], twins.put (side_enter enciphers alike) fun other => ?_⟩
    exact loaded_keep moved (by rintro ⟨⟩; exact other rfl) (by rintro _ ⟨⟩)
  | @spawn n task picked free =>
    cases twin
    obtain ⟨-, _, -, paired⟩ := twins.threads .localWorker
    rw [picked] at paired
    obtain ⟨_, picked', ⟨⟩⟩ := paired.done
    obtain ⟨-, _, -, paired⟩ := twins.threads (.localTask n)
    rw [free] at paired
    obtain ⟨_, free', ⟨⟩⟩ := paired.done
    refine ⟨_, by simp only [step, picked', free'], Twins.put (twins.put (side_enter enciphers (.same _)) fun _ => ?_)
      (side_enter enciphers (.same _)) fun _ _ knows => knows⟩
    exact loaded_keep moved (by rintro ⟨⟩) (by rintro _ ⟨⟩)
  | @receive n request free =>
    obtain ⟨-, _, -, paired⟩ := twins.threads (.request n)
    rw [free] at paired
    obtain ⟨_, free', ⟨⟩⟩ := paired.done
    have keeps : ∀ definition, loaded ext settings start history c definition → loaded ext settings start _ _ definition :=
      loaded_keep moved (by rintro ⟨⟩) (by rintro _ ⟨⟩)
    cases twin with
    | same => exact ⟨_, by simp only [step, free'], twins.put (side_enter enciphers (.same _)) fun _ => keeps⟩
    | secret _ name value value' =>
      exact ⟨_, by simp only [step, free'], twins.put (side_enter enciphers (.secret name value value')) fun _ => keeps⟩
  | drop n =>
    cases twin
    refine ⟨_, rfl, twins.put (side_enter enciphers (.same _)) fun _ => ?_⟩
    exact loaded_keep moved (by rintro ⟨⟩) (by rintro _ ⟨⟩)
  | clock now =>
    cases twin
    have masked : State.masked { c.state with clock := now } = State.masked { c'.state with clock := now } :=
      congrArg (fun s : State => { s with clock := now }) twins.common.masked
    refine ⟨_, rfl, Twins.mono ⟨⟨masked, twins.common.opens, twins.common.opens'⟩, twins.threads⟩ ?_⟩
    exact loaded_keep moved (by rintro ⟨⟩) (by rintro _ ⟨⟩)
  | edit path contents =>
    cases twin
    have masked : State.masked { c.state with files := Function.update c.state.files path contents } =
        State.masked { c'.state with files := Function.update c'.state.files path contents } :=
      congrArg (fun s : State => { s with files := Function.update s.files path contents }) twins.common.masked
    refine ⟨_, rfl, Twins.mono ⟨⟨masked, twins.common.opens, twins.common.opens'⟩, twins.threads⟩ ?_⟩
    exact loaded_keep moved (by rintro ⟨⟩) (by rintro _ ⟨⟩)
  | @boot hostname affected db registered =>
    cases twin
    obtain ⟨state', ran', common⟩ := run_common twins.common rfl (run_write registered)
    rcases exec_write ⟨_, ran'⟩ with ⟨⟨why, never⟩, -⟩ | ⟨affected', db', registered', -, rfl⟩
    · cases never
    · exact ⟨⟨{ c'.state with db := db' }, fun slot => enter ext settings slot.home⟩,
        by simp only [step, registered'], common, fun slot => side_enter enciphers (.same _)⟩

/-- Twin histories have the same course, if no row is inserted for a node that lists secrets. -/
theorem path_twins (enciphers : ext.Enciphers) (idle : ∀ slot, start.threads slot = enter ext settings .idle)
    (opens : start.state.db.Open ext settings) {history' : List Label} (twins : List.Forall₂ Label.Twin history history')
    (run : (system ext settings).Path everything start history c) (noLeak : Sealed ext settings start history) :
    ∃ c', (system ext settings).Path everything start history' c' ∧
      Twins ext settings (loaded ext settings start history c) c c' := by
  induction run generalizing history' with
  | nil =>
    cases twins
    refine ⟨start, .nil, ⟨rfl, opens, opens⟩, fun slot => ?_⟩
    rw [idle]
    exact side_enter enciphers (.same _)
  | @cons history before after label run admitted moved ih =>
    cases twins with
    | cons twin twins =>
      obtain ⟨before', run', sides⟩ := ih twins noLeak.earlier
      obtain ⟨after', moved', sides⟩ := twins_step enciphers idle run twin moved noLeak sides
      exact ⟨after', run'.cons trivial moved', sides⟩

end

end AtRest

theorem secrets_at_rest (ext : External) (settings : Settings) (files : String → Option String) (clock : Nat)
    (enciphers : ext.Enciphers) {history history' : List Label} {c : Config}
    (twins : List.Forall₂ Label.Twin history history')
    (run : (system ext settings).Path everything (Config.initial ext settings files clock) history c)
    (noLeak : Sealed ext settings (Config.initial ext settings files clock) history) :
    ∃ c', (system ext settings).Path everything (Config.initial ext settings files clock) history' c' ∧
      c.state.db.SameButSecrets c'.state.db := by
  have opens : (Config.initial ext settings files clock).state.db.Open ext settings := by rintro _ _ ⟨⟩
  obtain ⟨c', run', sides⟩ :=
    AtRest.path_twins enciphers (Config.initial_idle ext settings files clock) opens twins run noLeak
  exact ⟨c', run', Db.sameButSecrets_of_masked (congrArg State.db sides.common.masked)⟩

/-! ## A server with a key -/

namespace Sample

/-- AES-256-GCM under a key and with a nonce of zero bytes; other texts stand for themselves. -/
def aes : Equiv.Perm String :=
  (Equiv.swap "alpha" "afcb30552c2c27db314208f00e7c517b8593cbd11e").trans
    (Equiv.swap "bravo" "acd5214b22f7feccc5cbca86e4e3b57de4726568ca")

def sealing : External where
  __ := ext
  encrypt _ value _ := .ok (aes value)
  decrypt _ secret := .ok (aes.symm secret.encryptedValue)

def deploySealing : External where
  __ := sealing
  parseYaml := deploying.parseYaml

theorem sealing_enciphers : sealing.Enciphers where
  inverts := by
    rintro key value nonce _ ⟨⟩
    exact congrArg Except.ok (aes.symm_apply_apply value)
  uniform := by rintro _ _ _ _ _ ⟨⟩

theorem deploySealing_enciphers : deploySealing.Enciphers := ⟨sealing_enciphers.inverts, sealing_enciphers.uniform⟩

theorem withSecret_twins (path jobId value value' : String) (count : Nat) :
    List.Forall₂ Label.Twin (withSecret path jobId value count).reverse (withSecret path jobId value' count).reverse := by
  have same : ∀ labels : List Label, List.Forall₂ Label.Twin labels labels :=
    fun labels => List.forall₂_same.mpr fun label _ => .same label
  refine List.forall₂_reverse_iff.mpr ?_
  exact List.rel_append (List.rel_append (List.rel_append (List.rel_append (same _)
    (.cons (.secret 2 "DEPLOY_KEY" value value') (same _))) (same _)) (same _)) (same _)

/-- No definition that this server knows lists secrets. -/
theorem sealing_resolves {contents : String} {definition : ResolvedJobDefinition}
    (resolves : sealing.Resolves contents definition) : ∀ node ∈ definition.nodes, node.secrets = [] := by
  have listed : ∀ source ∈ [fork, remote], source.resolve.toOption.all (fun definition =>
      definition.nodes.all fun node => node.secrets = []) = true := by decide +kernel
  obtain ⟨source, parsed, accepted⟩ := resolves
  have known : source ∈ [fork, remote] := by
    simp only [sealing, ext] at parsed
    split at parsed
    · cases parsed
      exact List.mem_cons_self
    · split at parsed
      · cases parsed
        exact List.mem_cons_of_mem _ List.mem_cons_self
      · cases parsed
  have all := listed source known
  rw [accepted] at all
  intro node member
  exact of_decide_eq_true (List.all_eq_true.mp all node member)

end Sample

theorem secrets_at_rest_fork : ∃ c c', c.state.db.nodeRuns.find 3 ≠ none ∧
    (system Sample.sealing Sample.keyed).Path everything (Config.initial Sample.sealing Sample.keyed Sample.files 1000000)
      (Sample.withSecret "fork.yaml" "fork" "alpha" 7).reverse c ∧
    (system Sample.sealing Sample.keyed).Path everything (Config.initial Sample.sealing Sample.keyed Sample.files 1000000)
      (Sample.withSecret "fork.yaml" "fork" "bravo" 7).reverse c' ∧
    c.state.db.SameButSecrets c'.state.db := by
  have passed : ((system Sample.sealing Sample.keyed).follow (fun _ _ => true)
      (Config.initial Sample.sealing Sample.keyed Sample.files 1000000) (Sample.withSecret "fork.yaml" "fork" "alpha" 7)).any
        (fun c => (c.state.db.nodeRuns.find 3).isSome) = true := by decide +kernel
  obtain ⟨c, followed, prepared⟩ := (Option.any_eq_true _ _).mp passed
  have run : (system Sample.sealing Sample.keyed).Path everything _ (_ ++ []) c :=
    (system Sample.sealing Sample.keyed).follow_path (fun _ _ _ => trivial) .nil followed
  rw [List.append_nil] at run
  obtain ⟨c', run', same⟩ := secrets_at_rest Sample.sealing Sample.keyed Sample.files 1000000 Sample.sealing_enciphers
    (Sample.withSecret_twins "fork.yaml" "fork" "alpha" "bravo" 7) run
    (.inr fun _ _ _ _ _ _ _ _ _ loads member _ => by
      obtain ⟨_, _, _, _, _, -, -, -, -, happened⟩ := loads.happened
      exact Sample.sealing_resolves happened.2.2.2.2 _ member)
  exact ⟨c, c', Option.isSome_iff_ne_none.mp prepared, run, run', same⟩

theorem secrets_at_rest_env : ¬∀ ext settings files clock history history' c, External.Enciphers ext →
    List.Forall₂ Label.Twin history history' →
    (system ext settings).Path everything (Config.initial ext settings files clock) history c →
    ∃ c', (system ext settings).Path everything (Config.initial ext settings files clock) history' c' ∧
      c.state.db.SameButSecrets c'.state.db := by
  intro claim
  have passed : ((system Sample.deploySealing Sample.keyed).follow (fun _ _ => true)
      (Config.initial Sample.deploySealing Sample.keyed Sample.deployFiles 1000000)
        (Sample.withSecret "deploy.yaml" "deploy" "alpha" 4)).any (fun c =>
      ((system Sample.deploySealing Sample.keyed).follow (fun _ _ => true)
        (Config.initial Sample.deploySealing Sample.keyed Sample.deployFiles 1000000)
          (Sample.withSecret "deploy.yaml" "deploy" "bravo" 4)).any fun c' =>
        (c.state.db.nodeRuns.find 1).map (·.envJson) ≠ (c'.state.db.nodeRuns.find 1).map (·.envJson)) = true := by
    decide +kernel
  obtain ⟨c, followed, passed⟩ := (Option.any_eq_true _ _).mp passed
  obtain ⟨c', followed', differ⟩ := (Option.any_eq_true _ _).mp passed
  have run : (system Sample.deploySealing Sample.keyed).Path everything _ (_ ++ []) c :=
    (system Sample.deploySealing Sample.keyed).follow_path (fun _ _ _ => trivial) .nil followed
  have run' : (system Sample.deploySealing Sample.keyed).Path everything _ (_ ++ []) c' :=
    (system Sample.deploySealing Sample.keyed).follow_path (fun _ _ _ => trivial) .nil followed'
  rw [List.append_nil] at run run'
  obtain ⟨other, otherRun, same⟩ := claim _ _ _ _ _ _ _ Sample.deploySealing_enciphers
    (Sample.withSecret_twins "deploy.yaml" "deploy" "alpha" "bravo" 4) run
  cases run'.unique otherRun
  refine of_decide_eq_true differ ?_
  rw [show c'.state.db.nodeRuns = c.state.db.nodeRuns by rw [same]]

end PostJen.Server
