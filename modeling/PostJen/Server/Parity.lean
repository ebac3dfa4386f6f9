import PostJen.Server.Disabled
import PostJen.Server.Parameters

/-! The two requests that create runs with parameters.

`start_run` and `webhook_trigger` resolve the declared parameters in the same
way. Only the first one also looks at the supplied names, so a request with a
name that is not declared gets a run from the second.
-/

set_option autoImplicit false

open PostJen.Foundations PostJen.Core

namespace PostJen.Server

/-! ## Requests without failures -/

/-- An operation that does not fail for a reason outside the server. -/
def Op.unfailing (ext : External) (op : Op) (before : State) (reply : op.Reply) (after : State) : Prop :=
  ∃ choice, (∀ text, choice ≠ .fail text) ∧ op.run ext choice before = some (reply, after)

/-- A handler executed alone comes to an outcome. -/
def Handles (ext : External) (program : Proc Sig ApiError Answer) (s : State) (outcome : Except ApiError Answer)
    (s' : State) : Prop :=
  (program.attempt (F := Empty)).Returns (fun op : Op => op.unfailing ext) s outcome s'

/-- The request gets a run with these parameters, however the handler is executed. -/
structure CreatesWith (ext : External) (program : Proc Sig ApiError Answer) (s : State) (paramsJson : Option String) :
    Prop where
  ends : ∃ outcome s', Handles ext program s outcome s'
  run : ∀ outcome s', Handles ext program s outcome s' → (∃ answer, outcome = .ok answer) ∧
    ∃ run, s'.db.jobRuns = s.db.jobRuns.insert run ∧ run.paramsJson = paramsJson

structure Rejects (ext : External) (program : Proc Sig ApiError Answer) (s : State) : Prop where
  ends : ∃ outcome s', Handles ext program s outcome s'
  error : ∀ outcome s', Handles ext program s outcome s' → (∃ why, outcome = .error why) ∧ s'.db = s.db

def Declared (params : List ParamDefinition) (supplied : StringMap String) : Prop :=
  ∀ key ∈ supplied.keys, ∃ param ∈ params, param.name = key

def Sufficient (params : List ParamDefinition) (supplied : StringMap String) : Prop :=
  ∀ param ∈ params, param.required = true → param.default = none → param.name ∈ supplied.keys

structure Offered (ext : External) (s : State) (jobId : String) (definition : ResolvedJobDefinition) : Prop where
  listed : ∃ id row, s.db.jobDefinitions.find id = some row ∧ row.jobId = jobId
  loads : ∀ id row, s.db.jobDefinitions.find id = some row → row.jobId = jobId →
    row.enabled = true ∧ loadDefinition ext s.files row.definitionPath = .ok definition

/-- Both requests get the same parameters or none of them a run, and which of the two it is. -/
structure TriggersAgree (ext : External) (s : State) (jobId : String) (payload : StartRunRequest)
    (webhook : Option WebhookPayload) (definition : ResolvedJobDefinition) : Prop where
  agree : (∃ paramsJson, CreatesWith ext (startRun ext jobId payload) s paramsJson ∧
      CreatesWith ext (webhookTrigger ext jobId webhook) s paramsJson) ∨
    Rejects ext (startRun ext jobId payload) s ∧ Rejects ext (webhookTrigger ext jobId webhook) s
  started : (∃ paramsJson, CreatesWith ext (startRun ext jobId payload) s paramsJson) ↔
    Declared definition.params (payload.params.getD ∅) ∧ Sufficient definition.params (payload.params.getD ∅)
  triggered : (∃ paramsJson, CreatesWith ext (webhookTrigger ext jobId webhook) s paramsJson) ↔
    Declared definition.params (payload.params.getD ∅) ∧ Sufficient definition.params (payload.params.getD ∅)

/-! ## Replies -/

namespace Parity

variable {ext : External} {s s' : State}

theorem unfailing_total (op : Op) (s : State) : ∃ reply s', op.unfailing ext s reply s' := by
  have runs : ∃ choice : Choice, (∀ text, choice ≠ .fail text) ∧ (op.run ext choice s).isSome = true := by
    cases op with
    | select query =>
      refine ⟨.answer 0, by rintro _ ⟨⟩, ?_⟩
      cases rows : query.answers s.db <;> simp [Op.run, rows]
    | write write =>
      refine ⟨.answer 0, by rintro _ ⟨⟩, ?_⟩
      cases applied : write.apply s.now s.db <;> simp [Op.run, applied]
    | transact body =>
      refine ⟨.answer 0, by rintro _ ⟨⟩, ?_⟩
      cases applied : body.apply s.now s.db <;> simp [Op.run, applied]
    | readFile path =>
      refine ⟨.answer 0, by rintro _ ⟨⟩, ?_⟩
      cases found : s.files path <;> simp [Op.run, found]
    | order keys =>
      obtain ⟨index, found⟩ := List.mem_iff_getElem?.mp (List.mem_permutations'.mpr (.refl keys))
      exact ⟨.answer index, by rintro _ ⟨⟩, by simp [Op.run, found]⟩
    | random count => exact ⟨.bytes (List.replicate count ⟨0, by decide⟩), by rintro _ ⟨⟩, by simp [Op.run]⟩
    | process node => exact ⟨.child ⟨.spawnFailed "", "", ""⟩, by rintro _ ⟨⟩, rfl⟩
    | metadata path => exact ⟨.size none, by rintro _ ⟨⟩, rfl⟩
    | copyFile source dest => exact ⟨.contents "", by rintro _ ⟨⟩, rfl⟩
    | _ => exact ⟨.answer 0, by rintro _ ⟨⟩, rfl⟩
  obtain ⟨choice, proper, ran⟩ := runs
  obtain ⟨⟨reply, s'⟩, ran⟩ := Option.isSome_iff_exists.mp ran
  exact ⟨reply, s', choice, proper, ran⟩

theorem handles_some (program : Proc Sig ApiError Answer) (s : State) : ∃ outcome s', Handles ext program s outcome s' :=
  Proc.returns_exists unfailing_total program s

theorem unfailing_load {path : String} {reply : Except AnyError ResolvedJobDefinition}
    (ran : (Op.load path).unfailing ext s reply s') : s' = s ∧ reply = loadDefinition ext s.files path := by
  obtain ⟨choice, proper, ran⟩ := ran
  cases choice with
  | answer index =>
    cases ran
    exact ⟨rfl, rfl⟩
  | fail text => exact absurd rfl (proper text)
  | _ => cases ran

theorem unfailing_select {query : Select} {reply : Except SqlError query.Row}
    (ran : (Op.select query).unfailing ext s reply s') (some' : query.answers s.db ≠ []) :
    s' = s ∧ ∃ row ∈ query.answers s.db, reply = .ok row := by
  obtain ⟨choice, proper, ran⟩ := ran
  cases choice with
  | answer index =>
    simp only [Op.run] at ran
    obtain ⟨row, found, same⟩ := Option.map_eq_some_iff.mp ran
    cases same
    exact ⟨rfl, row, List.mem_of_getElem? found, rfl⟩
  | fail text => exact absurd rfl (proper text)
  | _ => cases ran

theorem unfailing_transact {body : Transaction} {reply : Except SqlError body.Row} {row : body.Row} {db : Db}
    (ran : (Op.transact body).unfailing ext s reply s') (applied : body.apply s.now s.db = .ok (row, db)) :
    reply = .ok row ∧ s' = { s with db } := by
  obtain ⟨choice, proper, ran⟩ := ran
  cases choice with
  | answer index =>
    simp only [Op.run, applied] at ran
    cases ran
    exact ⟨rfl, rfl⟩
  | fail text => exact absurd rfl (proper text)
  | _ => cases ran

theorem unfailing_write {write : Write} {reply : Except SqlError Nat} {affected : Nat} {db : Db}
    (ran : (Op.write write).unfailing ext s reply s') (applied : write.apply s.now s.db = .ok (affected, db)) :
    reply = .ok affected ∧ s' = { s with db } := by
  obtain ⟨choice, proper, ran⟩ := ran
  cases choice with
  | answer index =>
    simp only [Op.run, applied] at ran
    cases ran
    exact ⟨rfl, rfl⟩
  | fail text => exact absurd rfl (proper text)
  | _ => cases ran

theorem unfailing_order {keys reply : List String} (ran : (Op.order keys).unfailing ext s reply s') :
    s' = s ∧ reply.Perm keys := by
  obtain ⟨choice, proper, ran⟩ := ran
  cases choice with
  | answer index =>
    obtain ⟨order, found, same⟩ := Option.map_eq_some_iff.mp ran
    cases same
    exact ⟨rfl, List.mem_permutations'.mp (List.mem_of_getElem? found)⟩
  | _ => cases ran

/-! ## The checks of the parameters -/

theorem resolve_ok_iff {supplied resolved : StringMap String} {params : List ParamDefinition} :
    (∃ stored, resolveParams supplied params resolved = .ok stored) ↔ Sufficient params supplied := by
  induction params generalizing resolved with
  | nil => exact ⟨fun _ _ member => (nomatch member), fun _ => ⟨resolved, rfl⟩⟩
  | cons param rest ih =>
    have split' : Sufficient (param :: rest) supplied ↔
        (param.required = true → param.default = none → param.name ∈ supplied.keys) ∧ Sufficient rest supplied :=
      List.forall_mem_cons
    rw [split']
    unfold resolveParams
    split
    · rename_i value given
      have inside : param.name ∈ supplied.keys := AList.mem_keys.mpr (AList.lookup_isSome.mp (by rw [given]; rfl))
      rw [ih]
      exact ⟨fun rest => ⟨fun _ _ => inside, rest⟩, And.right⟩
    · rename_i missing
      have outside : param.name ∉ supplied.keys := fun inside => AList.lookup_eq_none.mp missing (AList.mem_keys.mp inside)
      split
      · rename_i value defaulted
        rw [ih, defaulted]
        exact ⟨fun rest => ⟨fun _ impossible => (by cases impossible), rest⟩, And.right⟩
      · rename_i undefaulted
        split
        · rename_i required
          constructor
          · rintro ⟨_, impossible⟩
            cases impossible
          · exact fun both => absurd (both.1 required undefaulted) outside
        · rename_i optional
          rw [ih]
          exact ⟨fun rest => ⟨fun required => absurd required optional, rest⟩, And.right⟩

theorem rejectUnknown_ok_iff {params : List ParamDefinition} {keys : List String} :
    rejectUnknown params keys = .ok () ↔ ∀ key ∈ keys, ∃ param ∈ params, param.name = key := by
  induction keys with
  | nil => exact ⟨fun _ _ member => (nomatch member), fun _ => rfl⟩
  | cons key rest ih =>
    rw [List.forall_mem_cons, ← ih, rejectUnknown]
    have known : (params.any fun param => param.name = key) = true ↔ ∃ param ∈ params, param.name = key := by
      simp only [List.any_eq_true, decide_eq_true_eq]
    split
    · rename_i here
      exact ⟨fun rest => ⟨known.mp here, rest⟩, And.right⟩
    · rename_i absent
      constructor
      · exact fun impossible => by cases impossible
      · exact fun both => absurd (known.mpr both.1) absent

/-! ## The handlers -/

def discipline (ext : External) : Discipline Sig State where
  exec op := op.unfailing ext
  rely before after := after = before
  guarantee _ _ _ := True

variable {jobId : String} {definition : ResolvedJobDefinition} {A : Type} {post : A → State → Prop}
  {failed : ApiError → State → Prop}

theorem anyOne_some {B : Type} {rows : List B} (some' : rows ≠ []) : anyOne rows = rows.map some := by
  unfold anyOne limitOne
  split
  · exact absurd rfl some'
  · rw [List.filter_eq_self.mpr]
    intro row _
    simp

theorem holds_offered (offered : Offered ext s jobId definition) :
    (enabledJob jobId).Holds (discipline ext) (fun job now => now = s ∧
      (s.db.jobDefinitions.find job.id).isSome = true ∧
        loadDefinition ext s.files job.definitionPath = .ok definition) (fun _ _ => False) s := by
  obtain ⟨id, row, found, named⟩ := offered.listed
  have listed : (id, row) ∈ s.db.jobDefinitions.rows.filter fun row => row.2.jobId = jobId :=
    List.mem_filter.mpr ⟨Serial.find_eq_some.mp found, decide_eq_true named⟩
  have rows : (Select.jobForRun jobId).answers s.db = (s.db.jobDefinitions.rows.filter fun row => row.2.jobId = jobId).map
      fun entry => some (⟨entry.1, entry.2.jobId, entry.2.name, entry.2.definitionPath, entry.2.definitionHash,
        entry.2.enabled⟩ : JobDefinitionForRun) := by
    rw [Select.answers, anyOne_some (List.ne_nil_of_mem (List.mem_map_of_mem listed)), List.map_map]
    rfl
  refine (Proc.holds_bind _ _ _).mpr ?_
  rintro s rfl reply after ran
  have some' : (Select.jobForRun jobId).answers s.db ≠ [] := by
    rw [rows]
    exact List.ne_nil_of_mem (List.mem_map_of_mem listed)
  obtain ⟨rfl, job, member, rfl⟩ := unfailing_select ran some'
  rw [rows] at member
  obtain ⟨⟨id', row'⟩, inside, rfl⟩ := List.mem_map.mp member
  obtain ⟨inside, named'⟩ := List.mem_filter.mp inside
  have found' := Serial.find_eq_some.mpr inside
  obtain ⟨enabled, loads⟩ := offered.loads id' row' found' (of_decide_eq_true named')
  refine ⟨trivial, ?_⟩
  simp only [orHalt, Proc.holds_done, enabled, if_true]
  exact ⟨trivial, by rw [found']; rfl, loads⟩

theorem holds_loadOrReject {path : String} {next : ResolvedJobDefinition → Proc Sig ApiError A}
    (loads : loadDefinition ext s.files path = .ok definition)
    (continues : (next definition).Holds (discipline ext) post failed s) :
    (loadOrReject path >>= next).Holds (discipline ext) post failed s := by
  rintro s rfl reply after ran
  obtain ⟨rfl, rfl⟩ := unfailing_load ran
  rw [loads]
  exact ⟨trivial, continues⟩

theorem holds_order {keys : List String} {next : List String → Proc Sig ApiError A}
    (continues : ∀ order : List String, order.Perm keys → (next order).Holds (discipline ext) post failed s) :
    ((Proc.call (Op.order keys) .done : Proc Sig ApiError (List String)) >>= next).Holds (discipline ext) post failed
      s := by
  rintro s rfl reply after ran
  obtain ⟨rfl, order⟩ := unfailing_order ran
  exact ⟨trivial, continues reply order⟩

theorem holds_lift_ok {B : Type} {value : Except ApiError B} {found : B} {next : B → Proc Sig ApiError A}
    (here : value = .ok found) (continues : (next found).Holds (discipline ext) post failed s) :
    (lift value >>= next).Holds (discipline ext) post failed s := by
  rw [here]
  exact continues

theorem holds_lift_error {B : Type} {value : Except ApiError B} {why : ApiError} {next : B → Proc Sig ApiError A}
    (here : value = .error why) (stops : failed why s) :
    (lift value >>= next).Holds (discipline ext) post failed s := by
  rw [here]
  exact stops

theorem holds_create {run : NewRun} (linked : (s.db.jobDefinitions.find run.jobDefinitionId).isSome = true)
    (fresh : run.rerunOfJobRunId = none) :
    (commit (.createRun run) >>= fun response => (pure (created (.run response)) : Proc Sig ApiError Answer)).Holds
      (discipline ext) (fun _ now => now.db.jobRuns = s.db.jobRuns.insert (run.row s.now)) (fun _ _ => False) s := by
  have applied : ∃ response db, (Transaction.createRun run).apply s.now s.db = .ok (response, db) ∧
      db.jobRuns = s.db.jobRuns.insert (run.row s.now) := by
    have here : (s.db.jobDefinitions.find run.jobDefinitionId).isNone = false :=
      Option.isNone_eq_false_iff.mpr linked
    simp [Transaction.apply, here, fresh]
  obtain ⟨response, db, applied, inserted⟩ := applied
  rintro s rfl reply after ran
  obtain ⟨rfl, rfl⟩ := unfailing_transact ran applied
  exact ⟨trivial, inserted⟩

theorem resolve_cases (supplied : StringMap String) (params : List ParamDefinition) :
    (∃ resolved, resolveParams supplied params ∅ = .ok resolved ∧ Sufficient params supplied) ∨
      ∃ why, resolveParams supplied params ∅ = .error why ∧ ¬Sufficient params supplied := by
  cases resolved : resolveParams supplied params ∅ with
  | ok stored => exact .inl ⟨stored, rfl, resolve_ok_iff.mp ⟨stored, resolved⟩⟩
  | error why =>
    refine .inr ⟨why, rfl, fun sufficient => ?_⟩
    obtain ⟨stored, ended⟩ := resolve_ok_iff.mpr sufficient
    cases resolved.symm.trans ended

theorem creates_of_holds {program : Proc Sig ApiError Answer} {paramsJson : Option String}
    (holds : program.Holds (discipline ext) (fun _ now => ∃ run, now.db.jobRuns = s.db.jobRuns.insert run ∧
      run.paramsJson = paramsJson) (fun _ _ => False) s) : CreatesWith ext program s paramsJson where
  ends := handles_some program s
  run := by
    intro outcome s' handled
    have ended := holds.returns (fun _ => rfl) handled
    cases outcome with
    | ok answer => exact ⟨⟨answer, rfl⟩, ended.1 answer rfl⟩
    | error why => exact (ended.2 why rfl).elim

theorem rejects_of_holds {program : Proc Sig ApiError Answer}
    (holds : program.Holds (discipline ext) (fun _ _ => False) (fun _ now => now.db = s.db) s) :
    Rejects ext program s where
  ends := handles_some program s
  error := by
    intro outcome s' handled
    have ended := holds.returns (fun _ => rfl) handled
    cases outcome with
    | ok answer => exact (ended.1 answer rfl).elim
    | error why => exact ⟨⟨why, rfl⟩, ended.2 why rfl⟩

theorem not_both {program : Proc Sig ApiError Answer} {paramsJson : Option String}
    (creates : CreatesWith ext program s paramsJson) (rejects : Rejects ext program s) : False := by
  obtain ⟨outcome, s', handled⟩ := creates.ends
  obtain ⟨⟨answer, rfl⟩, -⟩ := creates.run _ _ handled
  obtain ⟨⟨why, impossible⟩, -⟩ := rejects.error _ _ handled
  cases impossible

section
variable (offered : Offered ext s jobId definition)
include offered

theorem webhookTrigger_cases (webhook : Option WebhookPayload)
    (enabled : (definition.triggers.map (·.webhook)).getD false = true) :
    (∃ resolved, resolveParams ((webhook.bind (·.params)).getD ∅) definition.params ∅ = .ok resolved ∧
      CreatesWith ext (webhookTrigger ext jobId webhook) s (encodeParams ext resolved)) ∨
    (¬Sufficient definition.params ((webhook.bind (·.params)).getD ∅) ∧
      Rejects ext (webhookTrigger ext jobId webhook) s) := by
  have head := holds_offered offered
  rcases resolve_cases ((webhook.bind (·.params)).getD ∅) definition.params with ⟨resolved, ended, -⟩ | ⟨why, ended, scant⟩
  · refine .inl ⟨resolved, ended, creates_of_holds ((Proc.holds_bind _ _ _).mpr (head.mono ?_ fun _ _ never => never))⟩
    rintro job now ⟨rfl, linked, loads⟩
    refine holds_loadOrReject loads ?_
    simp only [enabled, Bool.true_eq_false, if_false]
    refine holds_lift_ok ended ?_
    exact (holds_create linked rfl).mono (fun _ _ inserted => ⟨_, inserted, rfl⟩) fun _ _ never => never
  · refine .inr ⟨scant, rejects_of_holds ((Proc.holds_bind _ _ _).mpr (head.mono ?_ fun _ _ never => never.elim))⟩
    rintro job now ⟨rfl, linked, loads⟩
    refine holds_loadOrReject loads ?_
    simp only [enabled, Bool.true_eq_false, if_false]
    exact holds_lift_error ended rfl

theorem startRun_cases (payload : StartRunRequest) (named : trim (payload.triggerType.getD "manual") ≠ "") :
    (∃ resolved, resolveParams (payload.params.getD ∅) definition.params ∅ = .ok resolved ∧
      Declared definition.params (payload.params.getD ∅) ∧
      CreatesWith ext (startRun ext jobId payload) s (encodeParams ext resolved)) ∨
    (¬(Declared definition.params (payload.params.getD ∅) ∧ Sufficient definition.params (payload.params.getD ∅)) ∧
      Rejects ext (startRun ext jobId payload) s) := by
  have head := holds_offered offered
  rcases resolve_cases (payload.params.getD ∅) definition.params with ⟨resolved, ended, -⟩ | ⟨why, ended, scant⟩
  · by_cases declared : Declared definition.params (payload.params.getD ∅)
    · refine .inl ⟨resolved, ended, declared,
        creates_of_holds ((Proc.holds_bind _ _ _).mpr (head.mono ?_ fun _ _ never => never))⟩
      rintro job now ⟨rfl, linked, loads⟩
      simp only [named, if_false]
      refine holds_loadOrReject loads (holds_lift_ok ended (holds_order fun keys order => ?_))
      -- the parameters are read in an order of the map's own, in which the declared ones are still all
      have known : rejectUnknown definition.params keys = .ok () :=
        rejectUnknown_ok_iff.mpr fun key member => declared key (order.mem_iff.mp member)
      refine holds_lift_ok known ?_
      exact (holds_create linked rfl).mono (fun _ _ inserted => ⟨_, inserted, rfl⟩) fun _ _ never => never
    · refine .inr ⟨fun both => declared both.1,
        rejects_of_holds ((Proc.holds_bind _ _ _).mpr (head.mono ?_ fun _ _ never => never.elim))⟩
      rintro job now ⟨rfl, linked, loads⟩
      simp only [named, if_false]
      refine holds_loadOrReject loads (holds_lift_ok ended (holds_order fun keys order => ?_))
      have unknown : ∃ why, rejectUnknown definition.params keys = .error why := by
        cases rejected : rejectUnknown definition.params keys with
        | error why => exact ⟨why, rfl⟩
        | ok nothing =>
          exact absurd (fun key member => rejectUnknown_ok_iff.mp rejected key (order.mem_iff.mpr member)) declared
      obtain ⟨why, rejected⟩ := unknown
      exact holds_lift_error rejected rfl
  · refine .inr ⟨fun both => scant both.2,
      rejects_of_holds ((Proc.holds_bind _ _ _).mpr (head.mono ?_ fun _ _ never => never.elim))⟩
    rintro job now ⟨rfl, linked, loads⟩
    simp only [named, if_false]
    exact holds_loadOrReject loads (holds_lift_error ended rfl)

end

end Parity

/-- The requests agree unless the only fault of a request is a name that is not declared. -/
theorem triggers_agree {ext : External} {s : State} {jobId : String} {payload : StartRunRequest}
    {webhook : Option WebhookPayload} {definition : ResolvedJobDefinition}
    (offered : Offered ext s jobId definition)
    (enabled : (definition.triggers.map (·.webhook)).getD false = true)
    (named : trim (payload.triggerType.getD "manual") ≠ "")
    (same : (webhook.bind (·.params)).getD ∅ = payload.params.getD ∅) :
    TriggersAgree ext s jobId payload webhook definition ↔
      Declared definition.params (payload.params.getD ∅) ∨ ¬Sufficient definition.params (payload.params.getD ∅) := by
  have start := Parity.startRun_cases offered payload named
  have trigger := Parity.webhookTrigger_cases offered webhook enabled
  rw [same] at trigger
  -- the one difference is what becomes of a name that is not declared
  constructor
  · intro agrees
    by_contra undeclared
    rw [not_or, not_not] at undeclared
    obtain ⟨undeclared, sufficient⟩ := undeclared
    rcases trigger with ⟨resolved, ended, creates⟩ | ⟨scant, -⟩
    · exact undeclared (agrees.triggered.mp ⟨_, creates⟩).1
    · exact scant sufficient
  · intro proper
    rcases start with ⟨resolved, ended, declared, creates⟩ | ⟨improper, rejects⟩
    · have sufficient := Parity.resolve_ok_iff.mp ⟨resolved, ended⟩
      rcases trigger with ⟨resolved', ended', creates'⟩ | ⟨scant, -⟩
      · cases ended.symm.trans ended'
        exact ⟨.inl ⟨_, creates, creates'⟩, ⟨fun _ => ⟨declared, sufficient⟩, fun _ => ⟨_, creates⟩⟩,
          ⟨fun _ => ⟨declared, sufficient⟩, fun _ => ⟨_, creates'⟩⟩⟩
      · exact absurd sufficient scant
    · have scant : ¬Sufficient definition.params (payload.params.getD ∅) := by
        intro sufficient
        rcases proper with declared | scant
        · exact improper ⟨declared, sufficient⟩
        · exact scant sufficient
      rcases trigger with ⟨resolved, ended, -⟩ | ⟨-, rejects'⟩
      · exact absurd (Parity.resolve_ok_iff.mp ⟨resolved, ended⟩) scant
      · exact ⟨.inr ⟨rejects, rejects'⟩,
          ⟨fun ⟨_, creates⟩ => (Parity.not_both creates rejects).elim, fun both => absurd both.2 scant⟩,
          ⟨fun ⟨_, creates⟩ => (Parity.not_both creates rejects').elim, fun both => absurd both.2 scant⟩⟩

/-! ## A job with a webhook and one parameter -/

namespace Sample

def hookYaml : String :=
"version: 1
id: release
name: Release
defaults:
  working_dir: /tmp
params:
  - name: BRANCH
    default: main
triggers:
  webhook: true
nodes:
  - id: build
    program: make
"

def hook : JobDefinition where
  version := 1
  id := "release"
  name := "Release"
  defaults := some { workingDir := some "/tmp" }
  params := some [⟨"BRANCH", some "main", false⟩]
  triggers := some ⟨none, true⟩
  nodes := [{ id := "build", program := "make" }]

def hooking : External where
  __ := ext
  parseYaml text := if text = hookYaml then .ok hook else .error "missing field version"

def hookRegistered (test : State → Bool) : Bool :=
  ((system hooking settings).follow (fun _ _ => true)
    (Config.initial hooking settings (fun path => if path = "release.yaml" then some hookYaml else none) 1000000)
    ([.boot "localhost"] ++ serve 0 (.registerJob "release.yaml" none) 4)).any fun c => test c.state

theorem release_offered : ∃ s definition, Offered hooking s "release" definition ∧
    definition.params = [⟨"BRANCH", some "main", false⟩] ∧ (definition.triggers.map (·.webhook)).getD false = true := by
  have passed : hookRegistered (fun s =>
      s.db.jobDefinitions.rows.map (fun row => (row.2.jobId, row.2.enabled, row.2.definitionPath)) =
        [("release", true, "release.yaml")] &&
      (loadDefinition hooking s.files "release.yaml").toOption.any fun definition =>
        definition.params = [⟨"BRANCH", some "main", false⟩] && (definition.triggers.map (·.webhook)).getD false) = true := by
    decide +kernel
  obtain ⟨c, -, passed⟩ := (Option.any_eq_true _ _).mp passed
  obtain ⟨rows, loads⟩ := Bool.and_eq_true_iff.mp passed
  have rows := of_decide_eq_true rows
  obtain ⟨definition, loaded, fits⟩ := (Option.any_eq_true _ _).mp loads
  obtain ⟨params, webhook⟩ := Bool.and_eq_true_iff.mp fits
  obtain ⟨⟨id, row⟩, tail, split⟩ := List.exists_cons_of_ne_nil (fun empty => by simp [empty] at rows :
    c.state.db.jobDefinitions.rows ≠ [])
  rw [split, List.map_cons, List.cons.injEq, List.map_eq_nil_iff, Prod.mk.injEq, Prod.mk.injEq] at rows
  obtain ⟨⟨name, enabled, path⟩, rfl⟩ := rows
  refine ⟨c.state, definition, ⟨⟨id, row, ?_, name⟩, fun id' row' found _ => ?_⟩, of_decide_eq_true params, webhook⟩
  · exact Serial.find_eq_some.mpr (split ▸ List.mem_cons_self)
  · have inside := Serial.find_eq_some.mp found
    rw [split] at inside
    cases List.mem_singleton.mp inside
    refine ⟨enabled, ?_⟩
    rw [path]
    cases result : loadDefinition hooking c.state.files "release.yaml" with
    | error why =>
      rw [result] at loaded
      cases loaded
    | ok other =>
      rw [result] at loaded
      exact congrArg Except.ok (Option.some.inj loaded)

end Sample

theorem triggers_agree_release : ∃ s definition, Offered Sample.hooking s "release" definition ∧
    TriggersAgree Sample.hooking s "release" { params := some (AList.singleton "BRANCH" "develop") }
      (some { params := some (AList.singleton "BRANCH" "develop") }) definition := by
  obtain ⟨s, definition, offered, params, webhook⟩ := Sample.release_offered
  refine ⟨s, definition, offered, (triggers_agree offered webhook (by decide) rfl).mpr (.inl ?_)⟩
  rw [params]
  intro key member
  cases List.mem_singleton.mp member
  exact ⟨_, List.mem_cons_self, rfl⟩

/-- A misspelled name: the webhook builds with the default. -/
theorem triggers_disagree : ¬∀ ext s jobId payload webhook definition, Offered ext s jobId definition →
    (definition.triggers.map (·.webhook)).getD false = true → (definition.params.map (·.name)).Nodup →
    trim (payload.triggerType.getD "manual") ≠ "" → (webhook.bind (·.params)).getD ∅ = payload.params.getD ∅ →
    TriggersAgree ext s jobId payload webhook definition := by
  intro claim
  obtain ⟨s, definition, offered, params, webhook⟩ := Sample.release_offered
  have agrees := claim Sample.hooking s "release" { params := some (AList.singleton "BRNACH" "develop") }
    (some { params := some (AList.singleton "BRNACH" "develop") }) definition offered webhook
    (by rw [params]; decide) (by decide) rfl
  have undeclared : ¬Declared definition.params (AList.singleton "BRNACH" "develop") := by
    intro declared
    obtain ⟨param, member, named⟩ := declared "BRNACH" List.mem_cons_self
    rw [params] at member
    cases List.mem_singleton.mp member
    exact absurd named (by decide)
  rcases Parity.webhookTrigger_cases offered (some { params := some (AList.singleton "BRNACH" "develop") }) webhook with
    ⟨resolved, -, creates⟩ | ⟨scant, -⟩
  · exact undeclared (agrees.triggered.mp ⟨_, creates⟩).1
  · refine scant fun param member required => ?_
    rw [params] at member
    cases List.mem_singleton.mp member
    cases required

end PostJen.Server
