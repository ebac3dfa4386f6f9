import PostJen.Server.Closing
import PostJen.Server.Completeness
import PostJen.Server.Journal

/-! The status of a run when its loop ends.

`determine_job_status` looks at failures and at the cancel flag only. It does
not have to look at skipped nodes: every skip goes back to a failure that was
recorded or to a cancellation that was seen.
-/

set_option autoImplicit false

open PostJen.Foundations PostJen.Core

namespace PostJen.Server

/-- No cancellation was seen, and every node found an agent. -/
structure Journal.Undisturbed (heard : Journal) : Prop where
  uncanceled : heard.canceled = false
  assigned : heard.unassigned = false

/-- The outcomes of the nodes are those that the wait has read. -/
def Journal.Realizes (heard : Journal) (outcome : String → NodeStatus) : Prop :=
  ∀ entry ∈ heard.ended, entry.2 = outcome entry.1

/-- The status of a run that ends with the variables `x`, by what its loop has heard. -/
structure Verdict (x : Execution) (heard : Journal) (status : JobStatus) : Prop where
  recorded : ∀ node ∈ x.nodes, ∃ result, x.results.lookup node.id = some result ∧
    (result = .skipped ∨ (node.id, result) ∈ heard.ended ∨ result = .failed ∧ heard.unassigned = true)
  success : status = .success ↔
    heard.canceled = false ∧ ∀ node ∈ x.nodes, x.results.lookup node.id = some .success
  outcomes : heard.Undisturbed → ∀ outcome, heard.Realizes outcome →
    (status = .success ↔ ∀ node ∈ x.nodes, outcome node.id = .success)
  failing : heard.Undisturbed → status ≠ .success →
    status = if ∃ node ∈ x.nodes, x.results.lookup node.id = some .timedOut then .timedOut
      else if ∃ node ∈ x.nodes, x.results.lookup node.id = some .failed then .failed
      else .canceled

section
variable (ext : External) (settings : Settings)

/-- After a history of the server, the loop of a run ends with the variables `x`. -/
def LoopEnds (files : String → Option String) (clock : Nat) (history : List Label) (x : Execution) : Prop :=
  ∃ c, (system ext settings).Path everything (Config.initial ext settings files clock) history c ∧
    (c.threads .scheduler).code = .done (.finalizing x)

/-- The scheduler executes the last UPDATE of a run, which then has the status of its verdict. -/
def Concludes (x : Execution) (before : Config) (label : Label) (after : Config) : Prop :=
  ∃ index run, label = .exec .scheduler (.answer index) ∧
    before.pending .scheduler = some (.write (.updateJob x.run.id
      (.finished (determineJobStatus x.results x.canceling) (finalReason (determineJobStatus x.results x.canceling))))) ∧
    after.state.db.jobRuns.find x.run.id = some run ∧ run.status = determineJobStatus x.results x.canceling

def Breaks (_ : Config) (label : Label) (_ : Config) : Prop := ∃ text, label = .exec .scheduler (.fail text)

/-- The verdicts on runs, and that they are what `finalize_job` records. -/
structure JobVerdict : Prop where
  verdict : ∀ files clock history x, LoopEnds ext settings files clock history x →
    Verdict x (journal ext settings (Config.initial ext settings files clock) history)
      (determineJobStatus x.results x.canceling)
  finalized : ∀ files clock c slot id status message,
    (system ext settings).Reaches everything (Config.initial ext settings files clock) c →
    c.pending slot = some (.write (.updateJob id (.finished status message))) →
    ∃ x, (c.threads slot).point = .finalizing x ∧ id = x.run.id ∧
      status = determineJobStatus x.results x.canceling
  /-- The end of the block behind the loop. -/
  concluded : ∀ files clock history c x next,
    (system ext settings).Path everything (Config.initial ext settings files clock) history c →
    (c.threads .scheduler).point = .finalizing x → (c.threads .scheduler).code = .done next → next = .schedulerTick ∧
      (Current ext settings (Config.initial ext settings files clock) everything .scheduler (Concludes x) history c ∨
        Current ext settings (Config.initial ext settings files clock) everything .scheduler Breaks history c)
  /-- Two runs with the same outcomes, completed in any two orders. -/
  orderFree : ∀ files clock history x files' clock' history' x' outcome,
    LoopEnds ext settings files clock history x → LoopEnds ext settings files' clock' history' x' →
    (journal ext settings (Config.initial ext settings files clock) history).Undisturbed →
    (journal ext settings (Config.initial ext settings files' clock') history').Undisturbed →
    (journal ext settings (Config.initial ext settings files clock) history).Realizes outcome →
    (journal ext settings (Config.initial ext settings files' clock') history').Realizes outcome →
    x.nodes.map (·.id) = x'.nodes.map (·.id) →
    (determineJobStatus x.results x.canceling = .success ↔ determineJobStatus x'.results x'.canceling = .success)

end

/-! ## `determine_job_status` -/

section
variable {canceling : Bool} {results : StringMap NodeStatus}

theorem mem_statuses {status : NodeStatus} :
    status ∈ results.entries.map (·.2) ↔ ∃ key, results.lookup key = some status := by
  rw [List.mem_map]
  constructor
  · rintro ⟨entry, inside, rfl⟩
    exact ⟨entry.1, AList.mem_lookup_iff.mpr inside⟩
  · rintro ⟨key, found⟩
    exact ⟨⟨key, status⟩, AList.mem_lookup_iff.mp found, rfl⟩

theorem determineJobStatus_success :
    determineJobStatus results canceling = .success ↔ canceling = false ∧
      ∀ key status, results.lookup key = some status → isTerminalFailure status = false := by
  unfold determineJobStatus
  dsimp only
  constructor
  · intro same
    split at same
    · cases same
    · rename_i noTimeout
      split at same
      · cases same
      · rename_i noFailure
        split at same
        · cases same
        · rename_i noCancel
          simp only [Bool.or_eq_true, decide_eq_true_eq, not_or, Bool.not_eq_true] at noCancel
          refine ⟨noCancel.1, fun key status found => ?_⟩
          cases status with
          | timedOut => exact absurd (mem_statuses.mpr ⟨key, found⟩) noTimeout
          | failed => exact absurd (mem_statuses.mpr ⟨key, found⟩) noFailure
          | canceled => exact absurd (mem_statuses.mpr ⟨key, found⟩) noCancel.2
          | _ => rfl
  · rintro ⟨rfl, clean⟩
    have absent : ∀ status, isTerminalFailure status = true → status ∉ results.entries.map (·.2) := by
      intro status failure inside
      obtain ⟨key, found⟩ := mem_statuses.mp inside
      rw [clean key status found] at failure
      cases failure
    rw [if_neg (absent .timedOut rfl), if_neg (absent .failed rfl)]
    simp [absent .canceled rfl]

/-- Which failure a run reports, if all its results belong to nodes. -/
theorem determineJobStatus_failing {nodes : List ResolvedNodeDefinition}
    (listed : ∀ key status, results.lookup key = some status → key ∈ nodes.map (·.id))
    (failing : determineJobStatus results canceling ≠ .success) :
    determineJobStatus results canceling =
      if ∃ node ∈ nodes, results.lookup node.id = some .timedOut then .timedOut
      else if ∃ node ∈ nodes, results.lookup node.id = some .failed then .failed else .canceled := by
  have belongs : ∀ status, status ∈ results.entries.map (·.2) ↔
      ∃ node ∈ nodes, results.lookup node.id = some status := by
    intro status
    rw [mem_statuses]
    constructor
    · rintro ⟨key, found⟩
      obtain ⟨node, member, rfl⟩ := List.mem_map.mp (listed key status found)
      exact ⟨node, member, found⟩
    · rintro ⟨node, -, found⟩
      exact ⟨node.id, found⟩
  unfold determineJobStatus at failing ⊢
  dsimp only at failing ⊢
  simp only [belongs] at failing ⊢
  split
  · rfl
  · rename_i noTimeout
    rw [if_neg noTimeout] at failing
    split
    · rfl
    · rename_i noFailure
      rw [if_neg noFailure] at failing
      split
      · rfl
      · rename_i clean
        rw [if_neg clean] at failing
        exact absurd rfl failing

end

/-! ## The verdict -/

section
variable {x : Execution} {heard : Journal}

theorem Execution.Told.verdict (told : x.Told heard) (sound : x.Sound [])
    (settled : ∀ node ∈ x.nodes, ∃ status, x.results.lookup node.id = some status) :
    Verdict x heard (determineJobStatus x.results x.canceling) := by
  have owned : heard.canceled = false → ∀ key status, x.results.lookup key = some status →
      ∃ node ∈ x.nodes, node.id = key := by
    intro uncanceled key status found
    rcases told.keyed key status found with listed | interrupted
    · exact List.mem_map.mp listed
    · rw [told.interrupted interrupted] at uncanceled
      cases uncanceled
  have success : determineJobStatus x.results x.canceling = .success ↔
      heard.canceled = false ∧ ∀ node ∈ x.nodes, x.results.lookup node.id = some .success := by
    rw [determineJobStatus_success]
    constructor
    · rintro ⟨uncanceled, clean⟩
      have unseen : heard.canceled = false := by
        by_contra seen
        rw [told.observed (Bool.not_eq_false _ ▸ seen)] at uncanceled
        cases uncanceled
      refine ⟨unseen, fun node member => ?_⟩
      obtain ⟨status, found⟩ := settled node member
      have terminal := sound.terminal node.id status found
      have passed := clean node.id status found
      cases status with
      | success => exact found
      | skipped =>
        -- a skip goes back to a cancellation or a failure
        rcases told.skipped node.id found with seen | ⟨key, ended, recorded, failure⟩
        · rw [unseen] at seen
          cases seen
        · rw [clean key ended recorded] at failure
          cases failure
      | failed | timedOut | canceled => cases passed
      | _ => cases terminal
    · rintro ⟨unseen, succeeded⟩
      have clean : ∀ key status, x.results.lookup key = some status → isTerminalFailure status = false := by
        intro key status found
        obtain ⟨node, member, rfl⟩ := owned unseen key status found
        cases (succeeded node member).symm.trans found
        rfl
      refine ⟨?_, clean⟩
      by_contra canceling
      rcases told.canceling (Bool.not_eq_false _ ▸ canceling) with seen | ⟨key, ended, recorded, failure⟩
      · rw [unseen] at seen
        cases seen
      · rw [clean key ended recorded] at failure
        cases failure
  have recorded : ∀ node ∈ x.nodes, ∃ result, x.results.lookup node.id = some result ∧
      (result = .skipped ∨ (node.id, result) ∈ heard.ended ∨ result = .failed ∧ heard.unassigned = true) := by
    intro node member
    obtain ⟨status, found⟩ := settled node member
    exact ⟨status, found, told.recorded node member status found⟩
  refine ⟨recorded, success, ?_, ?_⟩
  · rintro ⟨unseen, assigned⟩ outcome realizes
    have read : ∀ node ∈ x.nodes, ∀ status, x.results.lookup node.id = some status → status ≠ .skipped →
        status = outcome node.id := by
      intro node member status found ran
      rcases told.recorded node member status found with skipped | ended | ⟨-, unassigned⟩
      · exact absurd skipped ran
      · exact realizes _ ended
      · rw [assigned] at unassigned
        cases unassigned
    rw [success]
    constructor
    · rintro ⟨-, succeeded⟩ node member
      exact (read node member .success (succeeded node member) (by simp)).symm
    · intro succeeds
      have clean : ¬x.Spoiled := by
        rintro ⟨key, status, found, failure⟩
        obtain ⟨node, member, rfl⟩ := owned unseen key status found
        have ran : status ≠ .skipped := by
          rintro rfl
          cases failure
        rw [read node member status found ran, succeeds node member] at failure
        cases failure
      refine ⟨unseen, fun node member => ?_⟩
      obtain ⟨status, found⟩ := settled node member
      by_cases skipped : status = .skipped
      · subst skipped
        rcases told.skipped node.id found with seen | spoiled
        · rw [unseen] at seen
          cases seen
        · exact absurd spoiled clean
      · rw [found, read node member status found skipped, succeeds node member]
  · rintro ⟨unseen, -⟩ failing
    refine determineJobStatus_failing (fun key status found => ?_) failing
    obtain ⟨node, member, rfl⟩ := owned unseen key status found
    exact List.mem_map_of_mem member

variable {ext : External} {settings : Settings} {files : String → Option String} {clock : Nat}
  {history : List Label}

theorem LoopEnds.verdict (ends : LoopEnds ext settings files clock history x) :
    Verdict x (journal ext settings (Config.initial ext settings files clock) history)
      (determineJobStatus x.results x.canceling) := by
  obtain ⟨c, run, ended⟩ := ends
  obtain ⟨⟨looping, settled⟩, told, -⟩ := journal_told (Config.initial_idle ext settings files clock) run ended
  exact told.verdict looping.sound settled

end

/-! ## The UPDATE behind the loop -/

def Execution.concluding (x : Execution) : (op : Op) → op.Reply → Prop
  | .write (.updateJob id change), _ => id = x.run.id ∧ change =
      .finished (determineJobStatus x.results x.canceling) (finalReason (determineJobStatus x.results x.canceling))
  | .select (.jobStatus id), reply => id = x.run.id ∧ ∃ why : SqlError, reply = .error why
  | _, _ => False

section
variable {ext : External} {settings : Settings} {start c : Config} {history : List Label}

theorem until_concluding (ext : External) (settings : Settings) (x : Execution) :
    (block ext settings (.finalizing x)).Until x.concluding (fun _ => False) fun why => why.elim := by
  have reads : (fetch (.jobStatus x.run.id) : Proc Sig AnyError JobStatus).Until x.concluding (fun _ => True)
      fun _ => False := by
    rintro (why | status)
    · exact .inl ⟨rfl, why, rfl⟩
    · exact .inr trivial
  have concludes : (finalizeJob x.run.id (determineJobStatus x.results x.canceling)).Until x.concluding
      (fun _ => False) fun _ => False := by
    refine reads.bind fun current _ => ?_
    unfold transitionJob
    rw [transitionChange_terminal (determineJobStatus_terminal _ _)]
    exact fun reply => .inl ⟨rfl, rfl⟩
  have body : (finalizeJob x.run.id (determineJobStatus x.results x.canceling) >>= fun _ =>
      pure Point.schedulerTick).Until x.concluding (fun _ => False) fun _ => False :=
    concludes.bind fun _ never => never.elim
  have attempted : (Proc.attempt (F := Empty) (finalizeJob x.run.id (determineJobStatus x.results x.canceling) >>= fun _ =>
      pure Point.schedulerTick)).Until x.concluding (fun _ => False) fun why => why.elim := body.attempt
  exact attempted.bind fun _ never => never.elim

theorem concluding_answer (idle : ∀ slot, start.threads slot = enter ext settings .idle) {x : Execution}
    {before after : Config} {label : Label} (run : (system ext settings).Path everything start history before)
    (answers : Answers ext .scheduler (.finalizing x) x.concluding before label after) :
    Concludes x before label after ∨ Breaks before label after := by
  obtain ⟨choice, op, reply, rfl, here, next, ran, concluding⟩ := answers
  refine or_iff_not_imp_right.mpr fun works => ?_
  have works : ∀ text, choice ≠ .fail text := fun text same => works ⟨text, by rw [same]⟩
  -- the driven run has a row, so that neither statement can be refused for lack of one
  obtain ⟨row, found⟩ := Option.isSome_iff_exists.mp (driven_exists idle run (by rw [here]; rfl))
  cases op with
  | write write =>
    cases write with
    | updateJob id change =>
      obtain ⟨rfl, rfl⟩ := concluding
      cases choice with
      | answer index =>
        let change := JobChange.finished (determineJobStatus x.results x.canceling)
          (finalReason (determineJobStatus x.results x.canceling))
        refine ⟨index, change.apply before.state.now row, rfl, next, ?_, rfl⟩
        rw [updateJob_answered ran works, Serial.find_updateAt_self, found]
        rfl
      | fail text => exact absurd rfl (works text)
      | _ => cases ran
    | _ => exact concluding.elim
  | select query =>
    cases query with
    | jobStatus id =>
      obtain ⟨rfl, why, rfl⟩ := concluding
      have answered : (Select.jobStatus x.run.id).answers before.state.db = [row.status] := by
        simp only [Select.answers, found]
        rfl
      obtain ⟨status, -, impossible⟩ := select_answered ran works (by rw [answered]; simp)
      cases impossible
    | _ => exact concluding.elim
  | _ => exact concluding.elim

/-- Behind its loop a run gets its verdict, unless the database fails. -/
theorem finalized_concludes (idle : ∀ slot, start.threads slot = enter ext settings .idle)
    (run : (system ext settings).Path everything start history c) {x : Execution} {next : Point}
    (here : (c.threads .scheduler).point = .finalizing x) (ended : (c.threads .scheduler).code = .done next) :
    next = .schedulerTick ∧ (Current ext settings start everything .scheduler (Concludes x) history c ∨
      Current ext settings start everything .scheduler Breaks history c) := by
  refine ⟨?_, ?_⟩
  · have leads := ((reached_placed idle run.reaches).follows ended).2 rfl
    rw [here] at leads
    cases leads with
    | finalize | abandon => rfl
  · have met := ((reached_awaits idle run (until_concluding ext settings x) here).ended ended).resolve_left id
    exact (met.imp fun _ _ _ _ run _ _ answers => concluding_answer idle run answers).or

end

/-- The status of every run says how its nodes have ended, in whatever order they did. -/
theorem job_verdict (ext : External) (settings : Settings) : JobVerdict ext settings where
  verdict := fun _ _ _ _ ends => ends.verdict
  finalized := by
    intro files clock c slot id status message reached next
    have placed := reached_placed (Config.initial_idle ext settings files clock) reached
    obtain ⟨-, revises⟩ := revises_scheduler placed next
    generalize (c.threads slot).point = point at revises
    cases revises with
    | finish x => exact ⟨x, rfl, rfl, rfl⟩
  concluded := by
    intro files clock history c x next run here ended
    exact finalized_concludes (Config.initial_idle ext settings files clock) run here ended
  orderFree := by
    intro files clock history x files' clock' history' x' outcome ends ends' calm calm' realizes realizes' same
    rw [ends.verdict.outcomes calm outcome realizes, ends'.verdict.outcomes calm' outcome realizes']
    have named : ∀ nodes : List ResolvedNodeDefinition, (∀ node ∈ nodes, outcome node.id = .success) ↔
        ∀ id ∈ nodes.map (·.id), outcome id = .success := fun nodes => by rw [List.forall_mem_map]
    rw [named, named, same]

/-! ## The fork in two orders -/

namespace Sample

/-- The wait reads the root that succeeds first, so that the third node runs. -/
def forkReordered : List Label :=
  forkQueued ++ [.exec .scheduler (.answer 1), .resume .scheduler] ++ workLocally 0 (exited 0) ++
    workLocally 1 (exited 1) ++ block 1 ++ block 1 ++ block 0 ++ block 0 ++ block 3 ++ block 0 ++ block 1 ++
    workLocally 2 (exited 0) ++ block 1 ++ block 1 ++ block 0 ++ block 0 ++ block 0 ++ block 0 ++ block 1 ++
    block 2 ++ block 1 ++ block 0 ++ block 0 ++ block 0

def forkConcluded : List Label := forkFinished ++ block 0 ++ turns .scheduler 3

def outcomes (nodeId : String) : NodeStatus := if nodeId = "lint" then .failed else .success

def unbroken : Label → Bool
  | .exec .scheduler (.fail _) => false
  | _ => true

def finishing : Option Op → Option (Nat × JobStatus × Option String)
  | some (.write (.updateJob id (.finished status message))) => some (id, status, message)
  | _ => none

theorem finishing_eq {op : Option Op} {id : Nat} {status : JobStatus} {message : Option String}
    (found : finishing op = some (id, status, message)) :
    op = some (.write (.updateJob id (.finished status message))) := by
  unfold finishing at found
  split at found
  · cases found
    rfl
  · cases found

def failing (c : Config) : Bool :=
  (c.ended .scheduler).any fun point => (finalized point).any fun x =>
    x.nodes.map (·.id) = ["build", "lint", "deploy"] ∧ determineJobStatus x.results x.canceling = .failed

theorem loop_ends {labels : List Label} (passed : ((run (fun _ _ => true) labels).any failing) = true) :
    ∃ x, LoopEnds ext settings files 1000000 labels.reverse x ∧ x.nodes.map (·.id) = ["build", "lint", "deploy"] ∧
      determineJobStatus x.results x.canceling = .failed := by
  obtain ⟨c, followed, stands⟩ := (Option.any_eq_true _ _).mp passed
  obtain ⟨point, ended, stands⟩ := (Option.any_eq_true _ _).mp stands
  obtain ⟨x, found, holds⟩ := (Option.any_eq_true _ _).mp stands
  cases finalized_eq found
  exact ⟨x, ⟨c, path_freely followed, ended_eq_some.mp ended⟩, of_decide_eq_true holds⟩

theorem heard_same : ∀ labels ∈ [forkFinished, forkReordered],
    (journal ext settings initial labels.reverse).Undisturbed ∧
      (journal ext settings initial labels.reverse).Realizes outcomes := by
  have heard : journal ext settings initial forkFinished.reverse =
      ⟨3, false, 0, false, [("build", .success), ("lint", .failed)]⟩ := by decide +kernel
  have heard' : journal ext settings initial forkReordered.reverse =
      ⟨4, false, 0, false, [("lint", .failed), ("deploy", .success), ("build", .success)]⟩ := by decide +kernel
  simp only [List.forall_mem_cons, heard, heard']
  refine ⟨⟨⟨rfl, rfl⟩, ?_⟩, ⟨⟨rfl, rfl⟩, ?_⟩, by simp⟩
  · unfold Journal.Realizes
    decide
  · unfold Journal.Realizes
    decide

theorem unbroken_breaks {labels : List Label} {c : Config} (passed : labels.all unbroken = true) :
    ¬Current ext settings initial everything .scheduler Breaks labels.reverse c := by
  intro broken
  obtain ⟨recent, label, earlier, before, after, same, -, -, -, text, rfl⟩ := broken.happened
  have member : Label.exec .scheduler (.fail text) ∈ labels := by
    rw [← List.mem_reverse, same]
    exact List.mem_append_right _ List.mem_cons_self
  have checked : unbroken (.exec .scheduler (.fail text)) = true := List.all_eq_true.mp passed _ member
  cases checked

end Sample

theorem job_verdict_fork : ∃ x x' y c z before message,
    LoopEnds Sample.ext Sample.settings Sample.files 1000000 Sample.forkFinished.reverse x ∧
    LoopEnds Sample.ext Sample.settings Sample.files 1000000 Sample.forkReordered.reverse x' ∧
    Verdict x (journal Sample.ext Sample.settings Sample.initial Sample.forkFinished.reverse) .failed ∧
    (determineJobStatus x.results x.canceling = .success ↔ determineJobStatus x'.results x'.canceling = .success) ∧
    (system Sample.ext Sample.settings).Reaches everything Sample.initial before ∧
    before.pending .scheduler = some (.write (.updateJob 1 (.finished .failed message))) ∧
    (before.threads .scheduler).point = .finalizing z ∧
    (system Sample.ext Sample.settings).Path everything Sample.initial Sample.forkConcluded.reverse c ∧
    Current Sample.ext Sample.settings Sample.initial everything .scheduler (Concludes y) Sample.forkConcluded.reverse c ∧
    (c.state.db.jobRuns.find 1).map (·.status) = some .failed := by
  have law := job_verdict Sample.ext Sample.settings
  have first : ((Sample.run (fun _ _ => true) Sample.forkFinished).any Sample.failing) = true := by decide +kernel
  have second : ((Sample.run (fun _ _ => true) Sample.forkReordered).any Sample.failing) = true := by decide +kernel
  obtain ⟨x, ends, named, failed⟩ := Sample.loop_ends first
  obtain ⟨x', ends', named', -⟩ := Sample.loop_ends second
  obtain ⟨calm, realizes⟩ := Sample.heard_same Sample.forkFinished (by simp)
  obtain ⟨calm', realizes'⟩ := Sample.heard_same Sample.forkReordered (by simp)
  have updating : ((Sample.run (fun _ _ => true) (Sample.forkFinished ++ Sample.block 0 ++ Sample.turns .scheduler 1)).any
      fun c => Sample.finishing (c.pending .scheduler) = some (1, .failed, some "one or more nodes failed")) = true := by
    decide +kernel
  obtain ⟨before, followed, found⟩ := (Option.any_eq_true _ _).mp updating
  have pending := Sample.finishing_eq (of_decide_eq_true found)
  obtain ⟨z, there, -, -⟩ := law.finalized _ _ before .scheduler 1 .failed _ (Sample.reached_freely followed) pending
  have concluding : ((Sample.run (fun _ _ => true) Sample.forkConcluded).any fun c => (c.ended .scheduler).any fun _ =>
      (c.state.db.jobRuns.find 1).map (·.status) = some .failed &&
        (Sample.finalized (c.threads .scheduler).point).any fun y => y.run.id = 1) = true := by decide +kernel
  obtain ⟨c, followed', stands⟩ := (Option.any_eq_true _ _).mp concluding
  obtain ⟨next, ended, stands⟩ := (Option.any_eq_true _ _).mp stands
  rw [Bool.and_eq_true] at stands
  obtain ⟨y, here, -⟩ := (Option.any_eq_true _ _).mp stands.2
  have path := Sample.path_freely followed'
  obtain ⟨-, concluded⟩ := law.concluded _ _ _ c y next path (Sample.finalized_eq here) (ended_eq_some.mp ended)
  refine ⟨x, x', y, c, z, before, _, ends, ends', ?_, ?_, Sample.reached_freely followed, pending, there, path,
    concluded.resolve_right (Sample.unbroken_breaks (by decide)), of_decide_eq_true stands.1⟩
  · rw [← failed]
    exact law.verdict _ _ _ x ends
  · exact law.orderFree _ _ _ _ _ _ _ _ Sample.outcomes ends ends' calm calm' realizes realizes' (named.trans named'.symm)

end PostJen.Server
