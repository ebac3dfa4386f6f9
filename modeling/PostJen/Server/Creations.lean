import PostJen.Server.Origins
import PostJen.Server.Recall

/-! Where the rows of `job_runs` come from.

Four blocks create runs. Each of them makes the new row from what it has read
since it began: the definition of the job, or the old run of a rerun.
-/

set_option autoImplicit false

open PostJen.Foundations PostJen.Core

namespace PostJen.Server

def RunForRerun.newRun (source : RunForRerun) : NewRun where
  jobDefinitionId := source.jobDefinitionId
  jobId := source.jobId
  jobName := source.jobName
  triggerType := "rerun"
  triggeredBy := none
  definitionPath := source.definitionPath
  definitionHash := source.definitionHash
  workingDir := source.workingDir
  paramsJson := none
  rerunOfJobRunId := some source.id
  message := "rerun created"
  lastTriggeredAt := none

inductive Reading where
  | definition (path : String) (definition : ResolvedJobDefinition)
  | source (source : RunForRerun)

/-- What the row of a new run is made from. -/
inductive Made (ext : External) (known : Reading → Prop) : Point → NewRun → Prop where
  | startRun (jobId : String) (payload : StartRunRequest) (job : JobDefinitionForRun)
      (definition : ResolvedJobDefinition) (resolved : StringMap String)
      (loaded : known (.definition job.definitionPath definition))
      (resolves : resolveParams (payload.params.getD ∅) definition.params ∅ = .ok resolved) :
      Made ext known (.received (.startRun jobId payload)) (job.newRun (trim (payload.triggerType.getD "manual"))
        "run created" definition.workingDir payload.triggeredBy (encodeParams ext resolved))
  | webhookTrigger (jobId : String) (payload : Option WebhookPayload) (job : JobDefinitionForRun)
      (definition : ResolvedJobDefinition) (resolved : StringMap String)
      (loaded : known (.definition job.definitionPath definition))
      (resolves : resolveParams ((payload.bind (·.params)).getD ∅) definition.params ∅ = .ok resolved) :
      Made ext known (.received (.webhookTrigger jobId payload)) (job.newRun "webhook" "webhook triggered"
        definition.workingDir (payload.bind (·.triggeredBy)) (encodeParams ext resolved))
  | rerunRun (runId : Nat) (source : RunForRerun) (read : known (.source source)) :
      Made ext known (.received (.rerunRun runId)) source.newRun
  | cron (now : Nat) (job : CronJob) (todo : List CronJob) (definition : ResolvedJobDefinition)
      (loaded : known (.definition job.definitionPath definition)) :
      Made ext known (.cron now (job :: todo)) (job.newRun definition.workingDir now)

def Reads (ext : External) (slot : Slot) (before : Config) (label : Label) : Reading → Prop
  | .definition path definition => (∃ choice, label = .exec slot choice) ∧ before.pending slot = some (.load path) ∧
      ∃ contents, before.state.files path = some contents ∧ ext.Resolves contents definition
  | .source source => (∃ choice, label = .exec slot choice) ∧
      before.pending slot = some (.select (.runForRerun source.id)) ∧
      some source ∈ (Select.runForRerun source.id).answers before.state.db

/-! ## What the blocks have read -/

namespace Creations

variable {ext : External} {settings : Settings} {known : Reading → Prop} {E : Type}

def remembering (ext : External) : Recall Reading where
  event reading slot before label _ := Reads ext slot before label reading
  teaches _ op reply reading :=
    match op, reply, reading with
    | .load path, .ok definition, .definition path' definition' => path' = path ∧ definition' = definition
    | .select (.runForRerun _), .ok (some source), .source source' => source' = source
    | _, _, _ => False
  permits point op known := ∀ run, op = .transact (.createRun run) → Made ext known point run

def Barren (op : Op) : Prop := ∀ run, op ≠ .transact (.createRun run)

theorem barren_reads {op : Op} (reads : op.reads = true) : Barren op := by
  rintro run rfl
  cases reads

section
variable {point : Point}

theorem holds_barren {A : Type} {program : Proc Sig E A} {ends : A → Prop} (within : program.Within Barren ends) :
    program.Holds ((remembering ext).discipline point) (fun value _ => ends value) (fun _ _ => True) known :=
  Recall.holds_free within (fun _ _ barren run same => absurd same (barren run)) known

theorem holds_createRun [FromSql E] {A : Type} {run : NewRun} (made : Made ext known point run)
    (next : StartRunResponse → Proc Sig E A) (ends : ∀ response, ∃ value, next response = .done value) :
    (commit (.createRun run) >>= next).Holds ((remembering ext).discipline point) (fun _ _ => True) (fun _ _ => True)
      known := by
  intro before onward reply after _
  refine ⟨fun run' same => ?_, ?_⟩
  · cases same
    cases made with
    | startRun jobId payload job definition resolved loaded resolves =>
      exact .startRun jobId payload job definition resolved (onward _ loaded) resolves
    | webhookTrigger jobId payload job definition resolved loaded resolves =>
      exact .webhookTrigger jobId payload job definition resolved (onward _ loaded) resolves
    | rerunRun runId source read => exact .rerunRun runId source (onward _ read)
    | cron now job todo definition loaded => exact .cron now job todo definition (onward _ loaded)
  · cases reply with
    | error why => trivial
    | ok response =>
      obtain ⟨value, same⟩ := ends response
      show (next response).Holds _ _ _ _
      rw [same]
      trivial

theorem holds_loadOrReject {A : Type} {path : String} {next : ResolvedJobDefinition → Proc Sig ApiError A}
    (continues : ∀ definition (known : Reading → Prop), known (.definition path definition) →
      (next definition).Holds ((remembering ext).discipline point) (fun _ _ => True) (fun _ _ => True) known) :
    (loadOrReject path >>= next).Holds ((remembering ext).discipline point) (fun _ _ => True) (fun _ _ => True) known := by
  intro before _ reply after ran
  refine ⟨fun run same => (by cases same), ?_⟩
  cases reply with
  | error why => trivial
  | ok definition => exact continues definition after (ran _ (.inr ⟨rfl, rfl⟩))

theorem holds_lift {A : Type} {value : Except ApiError A} {B : Type} {next : A → Proc Sig ApiError B}
    (continues : ∀ found, value = .ok found →
      (next found).Holds ((remembering ext).discipline point) (fun _ _ => True) (fun _ _ => True) known) :
    (lift value >>= next).Holds ((remembering ext).discipline point) (fun _ _ => True) (fun _ _ => True) known := by
  cases value with
  | error why => trivial
  | ok found => exact continues found rfl

end

theorem holds_startRun (jobId : String) (payload : StartRunRequest) :
    (startRun ext jobId payload).Holds ((remembering ext).discipline (.received (.startRun jobId payload)))
      (fun _ _ => True) (fun _ _ => True) known := by
  refine (Proc.holds_bind _ _ _).mpr ((holds_barren (within_enabledJob (fun _ => barren_reads) jobId)).mono ?_
    fun _ _ _ => trivial)
  intro job known _
  dsimp only
  split
  · trivial
  · refine holds_loadOrReject fun definition known loaded => holds_lift fun resolved resolves => ?_
    refine (Proc.holds_bind _ _ _).mpr ?_
    intro before onward keys after ran
    refine ⟨fun run same => (by cases same), holds_lift fun _ _ => holds_createRun ?_ _ fun _ => ⟨_, rfl⟩⟩
    exact .startRun jobId payload job definition resolved (ran _ (.inl (onward _ loaded))) resolves

theorem holds_webhookTrigger (jobId : String) (payload : Option WebhookPayload) :
    (webhookTrigger ext jobId payload).Holds ((remembering ext).discipline (.received (.webhookTrigger jobId payload)))
      (fun _ _ => True) (fun _ _ => True) known := by
  refine (Proc.holds_bind _ _ _).mpr ((holds_barren (within_enabledJob (fun _ => barren_reads) jobId)).mono ?_
    fun _ _ _ => trivial)
  intro job known _
  refine holds_loadOrReject fun definition known loaded => ?_
  dsimp only
  split
  · trivial
  · exact holds_lift fun resolved resolves => holds_createRun
      (.webhookTrigger jobId payload job definition resolved loaded resolves) _ fun _ => ⟨_, rfl⟩

theorem holds_rerunRun (runId : Nat) :
    (rerunRun runId).Holds ((remembering ext).discipline (.received (.rerunRun runId)))
      (fun _ _ => True) (fun _ _ => True) known := by
  intro before _ reply after ran
  refine ⟨fun run same => (by cases same), ?_⟩
  cases reply with
  | error why => trivial
  | ok row =>
    cases row with
    | none => trivial
    | some source => exact holds_createRun (.rerunRun runId source (ran _ (.inr rfl))) _ fun _ => ⟨_, rfl⟩

theorem holds_triggerCronJob (now : Nat) (job : CronJob) (todo : List CronJob) :
    (triggerCronJob ext now job).Holds ((remembering ext).discipline (.cron now (job :: todo)))
      (fun _ _ => True) (fun _ _ => True) known := by
  unfold triggerCronJob
  split
  · trivial
  · split
    · intro before _ reply after ran
      refine ⟨fun run same => (by cases same), ?_⟩
      cases reply with
      | error why => trivial
      | ok definition =>
        exact holds_createRun (.cron now job todo definition (ran _ (.inr ⟨rfl, rfl⟩))) _ fun _ => ⟨_, rfl⟩
    · trivial

theorem holds_block (settings : Settings) (point : Point) (known : Reading → Prop) :
    (block ext settings point).Holds ((remembering ext).discipline point) (fun _ _ => True) (fun why _ => why.elim)
      known := by
  by_cases creates : ∃ run, point.commits (.createRun run) = true
  · obtain ⟨run, creates⟩ := creates
    cases point with
    | cron now jobs =>
      cases jobs with
      | nil => trivial
      | cons job todo =>
        exact holds_otherwise ((Proc.holds_bind _ _ _).mpr ((holds_triggerCronJob now job todo).mono
          (fun _ _ _ => trivial) fun _ _ _ => trivial))
    | received request =>
      cases request with
      | startRun jobId payload => exact holds_respond (holds_startRun jobId payload)
      | webhookTrigger jobId payload => exact holds_respond (holds_webhookTrigger jobId payload)
      | rerunRun runId => exact holds_respond (holds_rerunRun runId)
      | _ => cases creates
    | _ => cases creates
  · obtain ⟨slot, hosted⟩ := point.hosted
    refine (holds_barren ((block_within ext settings hosted).mono ?_ fun _ _ => trivial)).mono (fun _ _ _ => trivial)
      fun why => why.elim
    rintro _ may run rfl
    exact creates ⟨run, may⟩

theorem recall_valid : (remembering ext).Valid ext settings where
  blocks := holds_block settings
  learns := by
    intro slot c choice after op reply reading next ran taught
    cases op with
    | load path =>
      cases reply with
      | error why => exact taught.elim
      | ok definition =>
        cases reading with
        | source source => exact taught.elim
        | definition path' definition' =>
          obtain ⟨rfl, rfl⟩ := taught
          obtain ⟨contents, -, found, resolves⟩ := run_load ran
          exact ⟨⟨choice, rfl⟩, next, contents, found, resolves⟩
    | select query =>
      cases query with
      | runForRerun runId =>
        cases reply with
        | error why => exact taught.elim
        | ok row =>
          cases row with
          | none => exact taught.elim
          | some source =>
            cases reading with
            | definition path definition => exact taught.elim
            | source source' =>
              cases taught
              obtain ⟨-, ⟨why, impossible⟩ | ⟨row, member, same⟩⟩ := exec_select ⟨choice, ran⟩
              · cases impossible
              · cases same
                obtain ⟨run, found, made⟩ := Option.map_eq_some_iff.mp (List.mem_singleton.mp member).symm
                have sameId : source.id = runId := by rw [← made]
                subst sameId
                exact ⟨⟨choice, rfl⟩, next, member⟩
      | _ => exact taught.elim
    | _ => exact taught.elim

end Creations

/-! ## Rows -/

def CreatesRun (id : Nat) (run : NewRun) (before : Config) (label : Label) (after : Config) : Prop :=
  ∃ slot choice, label = .exec slot choice ∧ before.pending slot = some (.transact (.createRun run)) ∧
    before.state.db.jobRuns.find id = none ∧ after.state.db.jobRuns.find id = some (run.row before.state.now)

section
variable {ext : External} {settings : Settings} {start c after : Config} {admits : Config → Label → Prop}
  {history : List Label}

theorem path_created (empty : ∀ id, start.state.db.jobRuns.find id = none)
    (run : (system ext settings).Path admits start history c) {id : Nat} {row : JobRun}
    (found : c.state.db.jobRuns.find id = some row) :
    ∃ new, (system ext settings).Happened admits start (CreatesRun id new) history ∧
      row.snapshot = new.row row.createdAt := by
  induction run generalizing row with
  | nil =>
    rw [empty] at found
    cases found
  | @cons history before after label run admitted moved ih =>
    cases old : before.state.db.jobRuns.find id with
    | some row' =>
      obtain ⟨new, created, made⟩ := ih old
      obtain ⟨row'', found', same⟩ := (step_keeps moved).runs id row' old
      cases found.symm.trans found'
      refine ⟨new, created.later _, ?_⟩
      have stamp : row.snapshot.createdAt = row'.snapshot.createdAt := by rw [same]
      rw [same, made]
      exact congrArg new.row stamp.symm
    | none =>
      obtain ⟨slot, choice, new, rfl, next, here, rfl⟩ := runStep_born moved old found
      exact ⟨new, run.happens admitted moved ⟨slot, choice, rfl, next, old, found⟩, rfl⟩

/-- The row of a new run is made from what its task has read since its block began. -/
theorem path_made {slot : Slot} (idle : start.threads slot = enter ext settings .idle)
    (run : (system ext settings).Path admits start history c) {choice : Choice}
    (admitted : admits c (.exec slot choice)) (moved : step ext settings c (.exec slot choice) = some after)
    {new : NewRun} (next : c.pending slot = some (.transact (.createRun new))) :
    Made ext (fun reading => Current ext settings start admits slot
      (fun before label _ => Reads ext slot before label reading) history c) (c.threads slot).point new :=
  Creations.recall_valid.permitted idle run admitted moved next new rfl

end

end PostJen.Server
