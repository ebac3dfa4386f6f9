import PostJen.Server.Handing
import PostJen.Server.Network
import PostJen.Server.Recall

/-! What an execution has found when it reports a success.

Both workers check the outputs that came with their task once the process has
succeeded, and report a success only where every required one was there.
-/

set_option autoImplicit false

open PostJen.Foundations PostJen.Core

namespace PostJen.Server

/-- What a local task learns about its execution. -/
inductive Finding where
  | loaded (task : Task) (reply : Except AnyError ResolvedJobDefinition)
  | ran (node : ResolvedNodeDefinition) (result : ChildResult)
  | found (path : String)

/-- The process of a task succeeded and each required output was found. -/
structure Passed (known : Finding → Prop) (task : Task) (outputs : List ResolvedNodeOutput) : Prop where
  succeeded : ∃ args env result, known (.ran (task.node args env outputs) result) ∧ result.outcome.status = .success
  found : ∀ output ∈ outputs, output.required = true → known (.found (resolveOutputPath task.workingDir output))

theorem Passed.mono {known later : Finding → Prop} {task : Task} {outputs : List ResolvedNodeOutput}
    (passed : Passed known task outputs) (kept : ∀ fact, known fact → later fact) : Passed later task outputs := by
  obtain ⟨⟨args, env, result, ran, succeeded⟩, found⟩ := passed
  exact ⟨⟨args, env, result, kept _ ran, succeeded⟩, fun output member required => kept _ (found output member required)⟩

/-- What a task knows when it ends a row with a status. -/
structure Supported (known : Finding → Prop) (point : Point) (status : NodeStatus) : Prop where
  passed : ∀ task, point = .localTask task → status = .success →
    ∃ reply, known (.loaded task reply) ∧ Passed known task (task.declared reply)
  reported : ∀ headers payload, point = .received (.reportResult headers payload) →
    validStatus payload.status = some status

namespace Findings

variable {ext : External} {settings : Settings}

def finding (ext : External) : Recall Finding where
  event
    | .loaded task reply, slot, before, label, after =>
        (before.threads slot).point = .localTask task ∧ Performs ext slot (.load task.definitionPath) reply before label after
    | .ran node result, slot, before, label, after => Performs ext slot (.process node) result before label after
    | .found path, slot, before, label, after =>
        ∃ bytes, Performs ext slot (.metadata path) (some bytes) before label after
  teaches point op reply fact :=
    match op, reply, fact with
    | .load path, reply, .loaded task reply' => point = .localTask task ∧ path = task.definitionPath ∧ reply' = reply
    | .process node, result, .ran node' result' => node' = node ∧ result' = result
    | .metadata path, some _, .found path' => path' = path
    | _, _, _ => False
  permits point op known := ∀ id status exitCode reason, op = .write (.updateNode id (.finish status exitCode reason)) →
    Supported known point status

def Open (op : Op) : Prop := ∀ id status exitCode reason, op ≠ .write (.updateNode id (.finish status exitCode reason))

theorem open_minor (op : Op) (minor : op.minor = true) : Open op := by
  rintro id status exitCode reason rfl
  cases minor

theorem open_artifact (artifact : NewArtifact) : Open (.write (.artifact artifact)) := by rintro id status exitCode reason ⟨⟩

theorem open_log (log : NewLog) : Open (.write (.log log)) := by rintro id status exitCode reason ⟨⟩

section
variable {point : Point} {known : Finding → Prop} {E A : Type}

theorem holds_open {program : Proc Sig E A} {ends : A → Prop} (within : program.Within Open ends) (known : Finding → Prop) :
    program.Holds ((finding ext).discipline point) (fun value _ => ends value) (fun _ _ => True) known :=
  Recall.holds_free within (fun _ _ free id status exitCode reason same => absurd same (free id status exitCode reason)) known

theorem holds_then {B : Type} {first : Proc Sig E A} {next : A → Proc Sig E B} {ends : A → Prop}
    (within : first.Within Open ends) (continues : ∀ value later, ends value → (∀ fact, known fact → later fact) →
      (next value).Holds ((finding ext).discipline point) (fun _ _ => True) (fun _ _ => True) later) :
    (first >>= next).Holds ((finding ext).discipline point) (fun _ _ => True) (fun _ _ => True) known := by
  have stable : ((finding ext).discipline point).Stable fun later => ∀ fact, known fact → later fact :=
    fun _ _ onward holds fact before => onward fact (holds fact before)
  refine (Proc.holds_bind _ _ _).mpr ((within.holds stable ?_ fun _ => id).mono
    (fun value later ended => continues value later ended.1 ended.2) fun _ _ _ => trivial)
  exact fun op before reply after free holds ran =>
    ⟨fun id status exitCode reason same => absurd same (free id status exitCode reason),
      fun fact before => ran fact (.inl (holds fact before))⟩

theorem holds_run [FromSql E] {write : Write} {next : Unit → Proc Sig E A}
    (permitted : ∀ later : Finding → Prop, (∀ fact, known fact → later fact) → (finding ext).permits point (.write write) later)
    (continues : ∀ later, (next ()).Holds ((finding ext).discipline point) (fun _ _ => True) (fun _ _ => True) later) :
    (run write >>= next).Holds ((finding ext).discipline point) (fun _ _ => True) (fun _ _ => True) known := by
  intro before onward reply after _
  refine ⟨permitted before onward, ?_⟩
  cases reply with
  | error why => trivial
  | ok affected => exact continues after

theorem holds_checkOutputs (workingDir : String) (outputs : List ResolvedNodeOutput) (known : Finding → Prop) :
    (checkOutputs workingDir outputs : Proc Sig E _).Holds ((finding ext).discipline point)
      (fun results later => (∀ fact, known fact → later fact) ∧ ∀ output ∈ outputs, ∃ size,
        checkOutput workingDir output size ∈ results ∧
          (size.isSome = true → later (.found (resolveOutputPath workingDir output)))) (fun _ _ => True) known := by
  induction outputs generalizing known with
  | nil => exact ⟨fun _ => id, fun _ member => absurd member List.not_mem_nil⟩
  | cons output rest ih =>
    intro before onward size after ran
    refine ⟨fun id status exitCode reason same => (by cases same), (Proc.holds_bind _ _ _).mpr ((ih after).mono ?_
      fun _ _ _ => trivial)⟩
    rintro results later ⟨kept, found⟩
    refine ⟨fun fact holds => kept fact (ran fact (.inl (onward fact holds))), ?_⟩
    rintro other member
    rcases List.mem_cons.mp member with rfl | member
    · refine ⟨size, List.mem_cons_self, fun present => kept _ (ran _ (.inr ?_))⟩
      obtain ⟨bytes, rfl⟩ := Option.isSome_iff_exists.mp present
      exact rfl
    · obtain ⟨size', listed, learned⟩ := found other member
      exact ⟨size', List.mem_cons_of_mem _ listed, learned⟩

theorem required_exists {workingDir : String} {output : ResolvedNodeOutput} {size : Option Nat} {results : List ArtifactResult}
    (complete : missingArtifactsReason results = none) (listed : checkOutput workingDir output size ∈ results)
    (required : output.required = true) : size.isSome = true := by
  unfold missingArtifactsReason at complete
  dsimp only at complete
  split at complete
  · rename_i none
    rw [List.map_eq_nil_iff, List.filter_eq_nil_iff] at none
    simpa [checkOutput, required, Option.isSome_iff_ne_none] using none _ listed
  · cases complete

theorem enforced_success {outcome : NodeExecutionOutcome} {results : List ArtifactResult}
    (success : (enforceOutputs outcome results).1 = .success) : missingArtifactsReason results = none := by
  unfold enforceOutputs at success
  split at success
  · cases success
  · assumption

theorem enforced_status {outcome : NodeExecutionOutcome} {results : List ArtifactResult}
    (success : (enforceOutputs outcome results).1 = .success) : outcome.status = .success := by
  unfold enforceOutputs at success
  split at success
  · cases success
  · exact success

theorem holds_finish {task : Task} {outcome : NodeExecutionOutcome} {results : List ArtifactResult}
    (passed : (enforceOutputs outcome results).1 = .success →
      ∃ reply, known (.loaded task reply) ∧ Passed known task (task.declared reply)) :
    (match enforceOutputs outcome results with
      | (status, failureReason) => do
        run (.updateNode task.nodeRunId (.finish status outcome.exitCode failureReason))
        insertNodeEvent task.jobRunId task.nodeRunId .running status failureReason : Proc Sig AnyError Unit).Holds
      ((finding ext).discipline (.localTask task)) (fun _ _ => True) (fun _ _ => True) known := by
  refine holds_run (fun later onward => ?_) fun known => ?_
  · rintro id status exitCode reason ⟨⟩
    refine ⟨?_, by rintro _ _ ⟨⟩⟩
    rintro _ ⟨⟩ success
    obtain ⟨reply, loaded, passed⟩ := passed success
    exact ⟨reply, onward _ loaded, passed.mono onward⟩
  · exact (holds_open (within_event open_minor _) known).mono (fun _ _ _ => trivial) fun _ _ _ => trivial

theorem holds_executeLocalTask (task : Task) (known : Finding → Prop) :
    (executeLocalTask ext settings task).Holds ((finding ext).discipline (.localTask task)) (fun _ _ => True)
      (fun _ _ => True) known := by
  have reads := reads_of open_minor
  unfold executeLocalTask
  rw [loadOutputs_eq]
  intro before _ reply after ran
  refine ⟨fun id status exitCode reason same => (by cases same), ?_⟩
  have loaded : after (.loaded task reply) := ran _ (.inr ⟨rfl, rfl, rfl⟩)
  intro before onward result later ran
  refine ⟨fun id status exitCode reason same => (by cases same), ?_⟩
  have loaded : later (.loaded task reply) := ran _ (.inl (onward _ loaded))
  have finished := ran (.ran _ result) (.inr ⟨rfl, rfl⟩)
  dsimp only [Proc.bind]
  refine holds_then (within_fetch reads _ rfl) fun sequence now _ kept => ?_
  -- both findings are carried through the rest of the task
  have loaded := kept _ loaded
  have finished := kept _ finished
  refine holds_then (within_logs open_log _ _ _ _) fun _ now _ kept => ?_
  have loaded := kept _ loaded
  have finished := kept _ finished
  by_cases succeeded : result.outcome.status = .success
  · unfold checkAfter
    rw [if_pos succeeded]
    refine (Proc.holds_bind _ _ _).mpr ((holds_checkOutputs _ _ now).mono ?_ fun _ _ _ => trivial)
    rintro results now ⟨kept, found⟩
    have loaded := kept _ loaded
    have finished := kept _ finished
    refine holds_then (within_recordLocalArtifacts reads settings task open_artifact results) fun _ now _ kept => ?_
    refine holds_finish fun success => ⟨reply, kept _ loaded, ⟨_, _, result, kept _ finished, succeeded⟩, ?_⟩
    intro output member required
    obtain ⟨size, listed, learned⟩ := found output member
    exact kept _ (learned (required_exists (enforced_success success) listed required))
  · refine holds_then (within_checkAfter reads _ _ _) fun results now _ _ => ?_
    refine holds_then (within_recordLocalArtifacts reads settings task open_artifact results) fun _ now _ _ => ?_
    exact holds_finish fun success => absurd (enforced_status success) succeeded

theorem holds_reportResult (headers : Headers) (payload : ReportResultRequest) (known : Finding → Prop) :
    (reportResult ext headers payload).Holds ((finding ext).discipline (.received (.reportResult headers payload)))
      (fun _ _ => True) (fun _ _ => True) known := by
  have reads := reads_of open_minor
  unfold reportResult
  refine holds_then (within_authenticateAgent reads ext headers) fun agentId known _ _ => ?_
  refine holds_then (within_fetch reads _ rfl) fun assigned known _ _ => ?_
  split
  · trivial
  · split
    · trivial
    · rename_i status valid
      refine holds_then (within_nodeJobRun reads _ _) fun runId known _ _ => ?_
      refine holds_run (fun known _ => ?_) fun known => ?_
      · rintro id status' exitCode reason ⟨⟩
        refine ⟨by rintro _ ⟨⟩, ?_⟩
        rintro _ _ ⟨⟩
        exact valid
      · refine holds_then (within_event open_minor _) fun _ known _ _ => ?_
        exact holds_then (within_recordArtifacts _ _ open_artifact _) fun _ _ _ _ => trivial

end

theorem holds_block (point : Point) (known : Finding → Prop) :
    (block ext settings point).Holds ((finding ext).discipline point) (fun _ _ => True) (fun why _ => why.elim) known := by
  by_cases isTask : ∃ task, point = .localTask task
  · obtain ⟨task, rfl⟩ := isTask
    exact holds_otherwise ((Proc.holds_bind _ _ _).mpr ((holds_executeLocalTask task known).mono
      (fun _ _ _ => trivial) fun _ _ _ => trivial))
  by_cases isReport : ∃ headers payload, point = .received (.reportResult headers payload)
  · obtain ⟨headers, payload, rfl⟩ := isReport
    exact holds_respond (holds_reportResult headers payload known)
  · obtain ⟨slot, hosted⟩ := point.hosted
    refine (Recall.holds_free (block_within ext settings hosted) (fun op known _ id status exitCode reason _ => ?_)
      known).mono (fun _ _ _ => trivial) fun why => why.elim
    exact ⟨fun task same => absurd ⟨task, same⟩ isTask, fun headers payload same => absurd ⟨headers, payload, same⟩ isReport⟩

theorem recall_valid : (finding ext).Valid ext settings where
  blocks := holds_block
  learns := by
    intro slot c choice after op reply fact next ran taught
    cases op with
    | load path =>
      cases fact with
      | loaded task reply' =>
        obtain ⟨point, rfl, rfl⟩ := taught
        exact ⟨point, choice, rfl, next, ran⟩
      | _ => exact taught.elim
    | process node =>
      cases fact with
      | ran node' result =>
        obtain ⟨rfl, rfl⟩ := taught
        exact ⟨choice, rfl, next, ran⟩
      | _ => exact taught.elim
    | metadata path =>
      cases reply with
      | none => exact taught.elim
      | some bytes =>
        cases fact with
        | found path' =>
          cases taught
          exact ⟨bytes, choice, rfl, next, ran⟩
        | _ => exact taught.elim
    | _ => exact taught.elim

/-! ## The agent's execution -/

def finds (seen : List AgentSig.Event) : Finding → Prop
  | .loaded _ _ => False
  | .ran node result => (⟨.process node, result⟩ : AgentSig.Event) ∈ seen
  | .found path => ∃ bytes, (⟨.metadata path, some bytes⟩ : AgentSig.Event) ∈ seen

def Given (seen : List AgentSig.Event) (task : Task) (outputs : List ResolvedNodeOutput) : Prop :=
  ∃ request status, (⟨.request request, .ok (.ok ⟨status, .task task outputs⟩)⟩ : AgentSig.Event) ∈ seen

def reporting : Protocol AgentSig (List AgentSig.Event) where
  permits seen op := ∀ headers payload, op = .request (.reportResult headers payload) →
    validStatus payload.status = some .success → ∃ task outputs, Given seen task outputs ∧
      task.nodeRunId = payload.nodeRunId ∧ Passed (finds seen) task outputs
  advance op reply seen := seen ++ [⟨op, reply⟩]

theorem finds_mono {seen later : List AgentSig.Event} (more : seen ⊆ later) (fact : Finding) (found : finds seen fact) :
    finds later fact := by
  cases fact with
  | loaded task reply => exact found
  | ran node result => exact more found
  | found path =>
    obtain ⟨bytes, member⟩ := found
    exact ⟨bytes, more member⟩

theorem Given.mono {seen later : List AgentSig.Event} {task : Task} {outputs : List ResolvedNodeOutput}
    (given : Given seen task outputs) (more : seen ⊆ later) : Given later task outputs := by
  obtain ⟨request, status, member⟩ := given
  exact ⟨request, status, more member⟩

def Unreported (op : AgentOp) : Prop := ∀ headers payload, op ≠ .request (.reportResult headers payload)

section
variable {E A B : Type} {seen : List AgentSig.Event} {ends : A → Prop}

theorem holds_unreported {program : Proc AgentSig E A} (within : program.Within Unreported ends) :
    program.Holds reporting.discipline (fun value later => ends value ∧ seen ⊆ later) (fun _ later => seen ⊆ later) seen :=
  within.holds (reporting.stable fun later => seen ⊆ later) (by
    rintro op before _ _ free holds rfl
    exact ⟨fun headers payload same => absurd same (free headers payload),
      fun event member => List.mem_append_left _ (holds member)⟩) (List.Subset.refl seen)

theorem within_send {request : Request} (other : ∀ headers payload, request ≠ .reportResult headers payload)
    (disconnected refused : String) :
    (send request disconnected refused).Within Unreported fun _ => True := by
  refine ⟨fun headers payload same => other headers payload (by cases same; rfl), fun reply => ?_⟩
  cases reply with
  | error why => trivial
  | ok response => cases response <;> trivial

theorem within_uploadAll (token : String) (nodeRunId : Nat) (artifacts : List ArtifactResult) :
    (AgentWorker.uploadAll token nodeRunId artifacts).Within Unreported fun _ => True := by
  have uploads : ∀ artifact, (AgentWorker.upload token nodeRunId artifact).Within Unreported fun _ => True := by
    intro artifact
    unfold AgentWorker.upload
    split
    · refine ⟨by rintro _ _ ⟨⟩, fun reply => ?_⟩
      cases reply with
      | error why => trivial
      | ok fileData =>
        have sends : (AgentClient.uploadArtifact token nodeRunId artifact.path fileData).Within Unreported fun _ => True :=
          (within_send (by rintro _ _ ⟨⟩) _ _).bind fun _ _ => trivial
        exact sends.attempt.bind fun _ _ => trivial
    · trivial
  induction artifacts with
  | nil => trivial
  | cons artifact rest ih => exact (uploads artifact).bind fun _ _ => ih

theorem within_sendLogs (token : String) (nodeRunId : Nat) (logs : List (String × String)) :
    (AgentWorker.sendLogs token nodeRunId logs).Within Unreported fun _ => True := by
  unfold AgentWorker.sendLogs
  split
  · trivial
  · exact (within_send (by rintro _ _ ⟨⟩) _ _).bind fun _ _ => trivial

theorem holds_pollTask (token : String) (seen : List AgentSig.Event) :
    (AgentClient.pollTask token).Holds reporting.discipline
      (fun info later => ∀ found, info = some found → ∃ task outputs, found = task.info outputs ∧ Given later task outputs)
      (fun _ _ => True) seen := by
  refine Protocol.holds_call.mpr fun reply => ⟨by rintro _ _ ⟨⟩, ?_⟩
  cases reply with
  | error why => trivial
  | ok answer =>
    cases answer with
    | error why => trivial
    | ok response =>
      obtain ⟨status, body⟩ := response
      cases body with
      | empty => rintro _ ⟨⟩
      | task task outputs =>
        rintro _ ⟨⟩
        exact ⟨task, outputs, rfl, _, status, List.mem_append_right _ List.mem_cons_self⟩
      | _ => trivial

theorem then_unreported {first : Proc AgentSig E A} {next : A → Proc AgentSig E B} (within : first.Within Unreported ends)
    (continues : ∀ value later, ends value → seen ⊆ later →
      (next value).Holds reporting.discipline (fun _ _ => True) (fun _ _ => True) later) :
    (first >>= next).Holds reporting.discipline (fun _ _ => True) (fun _ _ => True) seen :=
  (Proc.holds_bind _ _ _).mpr ((holds_unreported within).mono
    (fun value later ended => continues value later ended.1 ended.2) fun _ _ _ => trivial)

theorem holds_agentCheck (workingDir : String) (outputs : List ResolvedNodeOutput) (seen : List AgentSig.Event) :
    (AgentWorker.checkOutputs workingDir outputs).Holds reporting.discipline
      (fun results later => seen ⊆ later ∧ ∀ output ∈ outputs, ∃ size, checkOutput workingDir output size ∈ results ∧
        (size.isSome = true → finds later (.found (resolveOutputPath workingDir output)))) (fun _ _ => True) seen := by
  induction outputs generalizing seen with
  | nil => exact ⟨List.Subset.refl seen, fun _ member => absurd member List.not_mem_nil⟩
  | cons output rest ih =>
    refine Protocol.holds_call.mpr fun size => ⟨by rintro _ _ ⟨⟩, ?_⟩
    refine (Proc.holds_bind _ _ _).mpr ((ih _).mono ?_ fun _ _ _ => trivial)
    rintro results later ⟨more, found⟩
    refine ⟨fun event member => more (List.mem_append_left _ member), ?_⟩
    rintro other member
    rcases List.mem_cons.mp member with rfl | member
    · refine ⟨size, List.mem_cons_self, fun present => ?_⟩
      obtain ⟨bytes, rfl⟩ := Option.isSome_iff_exists.mp present
      exact ⟨bytes, more (List.mem_append_right _ List.mem_cons_self)⟩
    · obtain ⟨size', listed, learned⟩ := found other member
      exact ⟨size', List.mem_cons_of_mem _ listed, learned⟩

theorem status_of_valid {status valid : NodeStatus} (isValid : validStatus status.text = some valid) : status = valid := by
  cases status <;> first | exact Option.some.inj isValid | cases isValid

theorem reported_success {nodeRunId : Nat} {outcome : NodeExecutionOutcome} {results : List ArtifactResult}
    (success : validStatus (AgentWorker.resultReport nodeRunId outcome results).status = some .success) :
    (enforceOutputs outcome results).1 = .success := by
  unfold AgentWorker.resultReport at success
  exact status_of_valid success

theorem holds_report {token : String} {payload : ReportResultRequest}
    (passed : validStatus payload.status = some .success → ∃ task outputs, Given seen task outputs ∧
      task.nodeRunId = payload.nodeRunId ∧ Passed (finds seen) task outputs) :
    (AgentClient.reportResult token payload).Holds reporting.discipline (fun _ _ => True) (fun _ _ => True) seen := by
  refine Protocol.holds_call.mpr fun reply => ⟨?_, ?_⟩
  · rintro headers payload ⟨⟩
    exact passed
  · cases reply with
    | error why => trivial
    | ok response => cases response <;> trivial

theorem holds_executeTask (ext : External) (complaint : String → String) (token : String) {task : Task}
    {outputs : List ResolvedNodeOutput} (given : Given seen task outputs) :
    (AgentWorker.executeTask ext complaint token (task.info outputs)).Holds reporting.discipline (fun _ _ => True)
      (fun _ _ => True) seen := by
  unfold AgentWorker.executeTask AgentWorker.decodeArgs
  cases ext.decodeStrings (task.info outputs).argsJson with
  | none => trivial
  | some args =>
    refine Protocol.holds_call.mpr fun result => ⟨by rintro _ _ ⟨⟩, ?_⟩
    have ran : finds (reporting.advance (.process (task.node args (decodeEnv ext task.envJson) outputs)) result seen)
        (.ran (task.node args (decodeEnv ext task.envJson) outputs) result) :=
      List.mem_append_right _ List.mem_cons_self
    have given := given.mono (List.subset_append_left seen [⟨.process _, result⟩])
    dsimp only [Proc.bind]
    refine then_unreported (within_sendLogs _ _ _) fun _ later _ more => ?_
    have given := given.mono more
    have ran := finds_mono more _ ran
    by_cases succeeded : result.outcome.status = .success
    · unfold AgentWorker.checkAfter
      rw [if_pos succeeded]
      refine (Proc.holds_bind _ _ _).mpr ((holds_agentCheck _ _ later).mono ?_ fun _ _ _ => trivial)
      rintro results later ⟨more, found⟩
      have given := given.mono more
      have ran := finds_mono more _ ran
      refine then_unreported (within_uploadAll _ _ _) fun _ later _ more => ?_
      refine holds_report fun success => ⟨task, outputs, given.mono more, rfl,
        ⟨_, _, result, finds_mono more _ ran, succeeded⟩, ?_⟩
      intro output member required
      obtain ⟨size, listed, learned⟩ := found output member
      exact finds_mono more _ (learned (required_exists (enforced_success (reported_success success)) listed required))
    · unfold AgentWorker.checkAfter
      rw [if_neg succeeded, Proc.done_bind]
      refine then_unreported (within_uploadAll _ _ _) fun _ later _ _ => ?_
      exact holds_report fun success => absurd (enforced_status (reported_success success)) succeeded

/-- A turn of `poll_loop` reports successes only of tasks that have passed. -/
theorem holds_pollOnce (ext : External) (complaint : String → String) (token : String) :
    (AgentWorker.pollOnce ext complaint token).Holds reporting.discipline (fun _ _ => True) (fun why _ => why.elim) [] := by
  unfold AgentWorker.pollOnce
  refine (Proc.holds_bind _ _ _).mpr ((Proc.holds_attempt _ _).mpr ((holds_pollTask token []).mono ?_ ?_))
  · intro info seen known
    cases info with
    | none => trivial
    | some info =>
      obtain ⟨task, outputs, rfl, given⟩ := known info rfl
      refine (Proc.holds_bind _ _ _).mpr ((Proc.holds_attempt _ _).mpr
        ((holds_executeTask ext complaint token given).mono (fun _ _ _ => trivial) fun why seen _ => ?_))
      exact (Proc.holds_bind _ _ _).mpr ((Proc.holds_attempt _ _).mpr ((holds_report (by rintro ⟨⟩)).mono
        (fun _ _ _ => trivial) fun _ _ _ => trivial))
  · exact fun _ _ _ => trivial

end

end Findings

end PostJen.Server
