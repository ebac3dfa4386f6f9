import PostJen.Server.Rows
import PostJen.Server.Driving

/-! What `execute_run` hears about its run.

The journal is a ghost of the scheduler's own replies: how often the loop has
begun an iteration, whether it saw a cancellation, which results the wait has
read. The loop's variables follow it.
-/

set_option autoImplicit false

open PostJen.Foundations PostJen.Core

namespace PostJen.Server

/-- What the scheduler has heard since it last looked for a run. -/
structure Journal where
  /-- iterations of the loop begun so far -/
  rounds : Nat
  canceled : Bool
  /-- waits that ended because of a cancellation -/
  interrupts : Nat
  /-- a node found no matching agent -/
  unassigned : Bool
  /-- the results that the wait has read, the latest first -/
  ended : List (String × NodeStatus)
  deriving DecidableEq

namespace Journal

def blank : Journal := ⟨0, false, 0, false, []⟩

def seesCancel : Except SqlError JobStatus → Bool
  | .ok status => status = .cancelRequested
  | .error _ => false

def read (heard : Journal) (key : String) : Except SqlError NodeStatus → Journal
  | .ok status => if status.reported then { heard with ended := (key, status) :: heard.ended } else heard
  | .error _ => heard

def fails (heard : Journal) : Except SqlError Nat → Journal
  | .ok _ => { heard with unassigned := true }
  | .error _ => heard

def hear (heard : Journal) : Point → (op : Op) → op.Reply → Journal
  | .schedulerTick, .select .nextQueuedRun, _ => .blank
  | .scheduling _, .select (.jobStatus _), reply =>
      { heard with rounds := heard.rounds + 1, canceled := heard.canceled || seesCancel reply }
  | .polling _ [], .select (.jobStatus _), reply =>
      if seesCancel reply then { heard with canceled := true, interrupts := heard.interrupts + 1 } else heard
  | .polling _ (key :: _), .select (.nodeStatus _), reply => heard.read key reply
  | .pass _ _ _, .write (.updateNode _ (.status .failed _ _ _)), reply => heard.fails reply
  | _, _, _ => heard

theorem hear_interrupts (heard : Journal) {point : Point} {op : Op} (reply : op.Reply)
    (other : ∀ x id, point = .polling x [] → op ≠ .select (.jobStatus id)) :
    (heard.hear point op reply).interrupts = heard.interrupts ∨ heard.hear point op reply = .blank := by
  unfold hear
  split
  · exact .inr rfl
  · exact .inl rfl
  · exact absurd rfl (other _ _ rfl)
  · unfold read
    split
    · split <;> exact .inl rfl
    · exact .inl rfl
  · unfold fails
    split <;> exact .inl rfl
  · exact .inl rfl

end Journal

section
variable (ext : External) (settings : Settings)

def Journal.note (c : Config) (label : Label) (heard : Journal) : Journal :=
  match label, (c.threads .scheduler).code with
  | .exec .scheduler choice, .call op _ =>
      match op.run ext choice c.state with
      | some (reply, _) => heard.hear (c.threads .scheduler).point op reply
      | none => heard
  | _, _ => heard

def journal (start : Config) (history : List Label) : Journal :=
  (system ext settings).annals (Journal.note ext) .blank start history

end

variable {ext : External} {settings : Settings} {start c after : Config} {admits : Config → Label → Prop}
  {history : List Label} {label : Label}

theorem journal_exec (run : (system ext settings).Path admits start history c) {choice : Choice} {op : Op}
    {rest : op.Reply → Proc Sig Empty Point} {reply : op.Reply} {state : State}
    (next : (c.threads .scheduler).code = .call op rest) (ran : op.run ext choice c.state = some (reply, state)) :
    journal ext settings start (.exec .scheduler choice :: history) =
      (journal ext settings start history).hear (c.threads .scheduler).point op reply := by
  unfold journal
  rw [run.annals]
  simp only [Journal.note, next, ran]

theorem journal_other (run : (system ext settings).Path admits start history c)
    (other : ∀ choice, label ≠ .exec .scheduler choice) :
    journal ext settings start (label :: history) = journal ext settings start history := by
  unfold journal
  rw [run.annals]
  unfold Journal.note
  split
  · exact absurd rfl (other _)
  · rfl

/-- No fact about the rows, for the bookkeeping of the loop alone. -/
def factless : RowRegime where
  fact _ _ := True
  may _ _ := True

theorem factless_valid : factless.Valid where
  refl := fun _ => trivial
  trans := fun _ _ _ _ _ => trivial
  stable := fun _ _ _ _ _ => trivial
  fresh := fun _ _ => trivial
  advance := fun _ _ _ _ _ _ _ => trivial
  read := fun _ _ _ => trivial

/-! ## The loop's variables -/

def isTerminalFailure : NodeStatus → Bool
  | .failed | .timedOut | .canceled => true
  | _ => false

namespace Execution

def Spoiled (x : Execution) : Prop := ∃ key status, x.results.lookup key = some status ∧ isTerminalFailure status = true

def unsettled (x : Execution) : Nat := x.nodes.countP fun node => (x.results.lookup node.id).isNone

section
variable {x : Execution} {key : String}

theorem Spoiled.record (spoiled : x.Spoiled) (unsettled : x.results.lookup key = none) (status : NodeStatus) :
    (x.record key status).Spoiled := by
  obtain ⟨other, ended, found, failure⟩ := spoiled
  refine ⟨other, ended, ?_, failure⟩
  have ne : other ≠ key := by
    rintro rfl
    cases unsettled.symm.trans found
  simp only [Execution.record, lookup_insert_ite, if_neg ne, found]

theorem Spoiled.complete (spoiled : x.Spoiled) (unsettled : x.results.lookup key = none)
    (outcome : NodeExecutionOutcome) : (x.complete key outcome).Spoiled := spoiled.record unsettled outcome.status

theorem unsettled_record_le (status : NodeStatus) : (x.record key status).unsettled ≤ x.unsettled := by
  refine List.countP_mono_left fun node _ missing => ?_
  simp only [record, lookup_insert_ite, Option.isNone_iff_eq_none] at missing ⊢
  split at missing
  · cases missing
  · exact missing

theorem unsettled_record_lt (listed : key ∈ x.nodes.map (·.id)) (unsettled : x.results.lookup key = none)
    (status : NodeStatus) : (x.record key status).unsettled < x.unsettled := by
  obtain ⟨node, member, rfl⟩ := List.mem_map.mp listed
  obtain ⟨front, back, split⟩ := List.append_of_mem member
  have fewer : ∀ nodes : List ResolvedNodeDefinition,
      nodes.countP (fun other => ((x.record node.id status).results.lookup other.id).isNone) ≤
        nodes.countP fun other => (x.results.lookup other.id).isNone := by
    refine fun nodes => List.countP_mono_left fun other _ missing => ?_
    simp only [record, lookup_insert_ite, Option.isNone_iff_eq_none] at missing ⊢
    split at missing
    · cases missing
    · exact missing
  have before : x.unsettled = (front ++ node :: back).countP fun other => (x.results.lookup other.id).isNone := by
    rw [← split]
    rfl
  have later : (x.record node.id status).unsettled =
      (front ++ node :: back).countP fun other => ((x.record node.id status).results.lookup other.id).isNone := by
    rw [← split]
    rfl
  have first := fewer front
  have second := fewer back
  have here : ((x.record node.id status).results.lookup node.id).isNone = false := by
    simp [record]
  have there : (x.results.lookup node.id).isNone = true := by rw [unsettled]; rfl
  rw [before, later, List.countP_append, List.countP_append, List.countP_cons, List.countP_cons, here, there]
  simp only [Bool.false_eq_true, if_false, if_true]
  omega

end

theorem blockedBy_some {x : Execution} {node : ResolvedNodeDefinition} {dep : String} {status : NodeStatus}
    (blocked : x.blockedBy node = some (dep, status)) :
    dep ∈ node.dependsOn ∧ x.results.lookup dep = some status ∧ status ≠ .success := by
  obtain ⟨need, needed, found⟩ := List.exists_of_findSome?_eq_some blocked
  obtain ⟨ended, recorded, same⟩ := Option.bind_eq_some_iff.mp found
  split at same
  · rename_i failed
    cases same
    exact ⟨needed, recorded, failed⟩
  · cases same

/-- What the loop's variables and the journal know of each other. -/
structure Told (x : Execution) (heard : Journal) : Prop where
  observed : heard.canceled = true → x.canceling = true
  interrupted : heard.interrupts ≠ 0 → heard.canceled = true
  keyed : ∀ key status, x.results.lookup key = some status → key ∈ x.nodes.map (·.id) ∨ heard.interrupts ≠ 0
  canceling : x.canceling = true → heard.canceled = true ∨ x.Spoiled
  stopped : x.stopScheduling = true → heard.canceled = true ∨ x.Spoiled
  skipped : ∀ key, x.results.lookup key = some .skipped → heard.canceled = true ∨ x.Spoiled
  recorded : ∀ node ∈ x.nodes, ∀ status, x.results.lookup node.id = some status →
    status = .skipped ∨ (node.id, status) ∈ heard.ended ∨ status = .failed ∧ heard.unassigned = true

namespace Told

variable {x : Execution} {heard : Journal} {key : String}

theorem fresh (queued : QueuedRun) (nodes : List ResolvedNodeDefinition) (nodeIds : StringMap Nat) :
    Told ⟨queued, nodes, nodeIds, ∅, ∅, false, false⟩ .blank := by
  refine ⟨?_, ?_, ?_, ?_, ?_, ?_, ?_⟩ <;> simp [Journal.blank]

theorem observe (told : Told x heard) (canceled : Bool) :
    Told { x with canceling := x.canceling || canceled }
      { heard with rounds := heard.rounds + 1, canceled := heard.canceled || canceled } where
  observed := by
    intro seen
    rcases Bool.or_eq_true_iff.mp seen with before | now
    · exact Bool.or_eq_true_iff.mpr (.inl (told.observed before))
    · exact Bool.or_eq_true_iff.mpr (.inr now)
  interrupted := fun interrupted => Bool.or_eq_true_iff.mpr (.inl (told.interrupted interrupted))
  keyed := told.keyed
  canceling := by
    intro canceling
    rcases Bool.or_eq_true_iff.mp canceling with before | now
    · exact (told.canceling before).imp_left fun seen => Bool.or_eq_true_iff.mpr (.inl seen)
    · exact .inl (Bool.or_eq_true_iff.mpr (.inr now))
  stopped := fun stopped => (told.stopped stopped).imp_left fun seen => Bool.or_eq_true_iff.mpr (.inl seen)
  skipped := fun key skipped => (told.skipped key skipped).imp_left fun seen => Bool.or_eq_true_iff.mpr (.inl seen)
  recorded := told.recorded

theorem result (told : Told x heard) (y : Execution) (later : Journal) {status : NodeStatus} (listed : key ∈ x.nodes.map (·.id))
    (unsettled : x.results.lookup key = none) (canceled : later.canceled = heard.canceled)
    (interrupts : later.interrupts = heard.interrupts) (grows : ∀ entry ∈ heard.ended, entry ∈ later.ended)
    (unassigned : heard.unassigned = true → later.unassigned = true)
    (due : status = .skipped ∨ (key, status) ∈ later.ended ∨ status = .failed ∧ later.unassigned = true)
    (reason : status = .skipped → heard.canceled = true ∨ x.Spoiled)
    (nodes : y.nodes = x.nodes) (results : y.results = x.results.insert key status)
    (observed : x.canceling = true → y.canceling = true)
    (canceling : y.canceling = true → x.canceling = true ∨ isTerminalFailure status = true)
    (stopped : y.stopScheduling = true → x.stopScheduling = true ∨ isTerminalFailure status = true) : Told y later := by
  have spoils : isTerminalFailure status = true → y.Spoiled := fun failure =>
    ⟨key, status, by rw [results, lookup_insert_ite, if_pos rfl], failure⟩
  have keeps : x.Spoiled → y.Spoiled := by
    intro spoiled
    obtain ⟨other, ended, found, failure⟩ := spoiled.record unsettled status
    exact ⟨other, ended, by rw [results]; exact found, failure⟩
  have carries : heard.canceled = true ∨ x.Spoiled → later.canceled = true ∨ y.Spoiled :=
    Or.imp (fun seen => canceled.trans seen) keeps
  -- every entry of the results is old or the new one
  refine ⟨?_, ?_, ?_, ?_, ?_, ?_, ?_⟩
  · exact fun seen => observed (told.observed (canceled ▸ seen))
  · exact fun interrupted => canceled.trans (told.interrupted (interrupts ▸ interrupted))
  · intro other ended found
    rw [results, lookup_insert_ite] at found
    rw [nodes, interrupts]
    split at found
    · rename_i same
      exact .inl (same ▸ listed)
    · exact told.keyed other ended found
  · intro canceling'
    rcases canceling canceling' with before | failure
    · exact carries (told.canceling before)
    · exact .inr (spoils failure)
  · intro stopped'
    rcases stopped stopped' with before | failure
    · exact carries (told.stopped before)
    · exact .inr (spoils failure)
  · intro other found
    rw [results, lookup_insert_ite] at found
    split at found
    · exact carries (reason (Option.some.inj found))
    · exact carries (told.skipped other found)
  · intro node member ended found
    rw [nodes] at member
    rw [results, lookup_insert_ite] at found
    split at found
    · rename_i same
      cases found
      rw [same]
      exact due
    · exact (told.recorded node member ended found).imp_right
        (Or.imp (grows _) (And.imp_right unassigned))

theorem skip (told : Told x heard) (listed : key ∈ x.nodes.map (·.id)) (unsettled : x.results.lookup key = none)
    (reason : heard.canceled = true ∨ x.Spoiled) : Told (x.record key .skipped) heard :=
  told.result _ heard listed unsettled rfl rfl (fun _ inside => inside) (fun unassigned => unassigned) (.inl rfl)
    (fun _ => reason) rfl rfl (fun canceling => canceling) .inl .inl

theorem fail (told : Told x heard) (listed : key ∈ x.nodes.map (·.id)) (unsettled : x.results.lookup key = none) :
    Told { x.record key .failed with stopScheduling := true } { heard with unassigned := true } :=
  told.result _ _ listed unsettled rfl rfl (fun _ inside => inside) (fun _ => rfl) (.inr (.inr ⟨rfl, rfl⟩))
    (fun skipped => by cases skipped) rfl rfl (fun canceling => canceling) .inl fun _ => .inr rfl

theorem complete (told : Told x heard) (listed : key ∈ x.nodes.map (·.id)) (unsettled : x.results.lookup key = none)
    {outcome : NodeExecutionOutcome} (reported : outcome.status.reported = true) :
    Told (x.complete key outcome) { heard with ended := (key, outcome.status) :: heard.ended } := by
  have grows : ∀ entry ∈ heard.ended, entry ∈ (key, outcome.status) :: heard.ended :=
    fun _ inside => List.mem_cons_of_mem _ inside
  refine told.result _ _ listed unsettled rfl rfl grows (fun unassigned => unassigned)
    (.inr (.inl List.mem_cons_self)) (fun skipped => ?_) rfl rfl ?_ ?_ ?_
  · rw [skipped] at reported
    cases reported
  · exact fun canceling => Bool.or_eq_true_iff.mpr (.inl canceling)
  · intro canceling
    refine (Bool.or_eq_true_iff.mp canceling).imp_right fun failure => ?_
    rw [of_decide_eq_true failure]
    rfl
  · intro stopped
    refine (Bool.or_eq_true_iff.mp stopped).imp_right fun failure => ?_
    simp only [Bool.or_eq_true, decide_eq_true_eq] at failure
    rcases failure with (same | same) | same <;> rw [same] <;> rfl

theorem interrupt (told : Told x heard) (named : ∀ node ∈ x.nodes, node.id ≠ "") :
    Told (x.complete "" .canceled) { heard with canceled := true, interrupts := heard.interrupts + 1 } where
  observed := fun _ => Bool.or_eq_true_iff.mpr (.inr rfl)
  interrupted := fun _ => rfl
  keyed := fun _ _ _ => .inr (Nat.succ_ne_zero _)
  canceling := fun _ => .inl rfl
  stopped := fun _ => .inl rfl
  skipped := fun _ _ => .inl rfl
  recorded := by
    intro node member status found
    simp only [Execution.complete, lookup_insert_ite, if_neg (named node member)] at found
    exact told.recorded node member status found

end Told

end Execution

/-! ## The blocks -/

namespace Journal

def discipline (point : Point) : Discipline Sig Journal where
  exec op before reply after := after = before.hear point op reply
  rely before after := after = before
  guarantee _ _ _ := True

def Silent (point : Point) (op : Op) : Prop := ∀ reply heard, hear heard point op reply = heard

def told : Point → Journal → Prop
  | .executeRun _, heard => heard = .blank
  | .scheduling x, heard => x.Told heard ∧ heard.rounds + x.unsettled ≤ x.nodes.length + heard.interrupts
  | .pass x _ _, heard | .waiting x, heard | .polling x _, heard | .finalizing x, heard =>
      x.Told heard ∧ heard.rounds + x.unsettled ≤ x.nodes.length + 1 + heard.interrupts
  | _, _ => True

variable {point : Point} {E A : Type} {post : A → Journal → Prop} {failed : E → Journal → Prop} {heard : Journal}

theorem holds_call {op : Op} {rest : op.Reply → Proc Sig E A}
    (next : ∀ reply, (rest reply).Holds (discipline point) post failed (heard.hear point op reply)) :
    (Proc.call op rest).Holds (discipline point) post failed heard := by
  rintro before rfl reply after rfl
  exact ⟨trivial, next reply⟩

theorem holds_silent {program : Proc Sig E A} {ends : A → Prop} (within : program.Within (Silent point) ends) :
    program.Holds (discipline point) (fun value later => ends value ∧ later = heard) (fun _ _ => True) heard := by
  have stable : (discipline point).Stable fun later => later = heard := by
    rintro before after rfl same
    exact same
  refine (within.holds stable ?_ rfl).mono (fun _ _ ended => ended) fun _ _ _ => trivial
  rintro op before reply after silent rfl ran
  exact ⟨trivial, ran.trans (silent reply before)⟩

theorem holds_recover {runId : Nat} {body : Proc Sig AnyError Point}
    (holds : body.Holds (discipline point) told (fun _ _ => True) heard) :
    (recover runId body).Holds (discipline point) told (fun why _ => why.elim) heard :=
  Server.holds_recover (fun _ => True)
    (fun _ _ _ => Proc.holds_trivial _ _ (fun _ _ _ _ _ => trivial) (fun _ _ => trivial) fun _ _ => trivial) holds

theorem holds_quiet (ext : External) (settings : Settings) (hosted : Slot.scheduler.hosts point = true)
    (silent : ∀ op, Silent point op) (next : ∀ following, point.Leads following → told following heard) :
    (block ext settings point).Holds (discipline point) told (fun why _ => why.elim) heard := by
  have within := (block_within ext settings hosted).mono (fun op _ => silent op) fun _ follows => follows
  refine (holds_silent within).mono ?_ fun why _ _ => why.elim
  rintro following _ ⟨follows, rfl⟩
  exact next following (follows.2 rfl)

section
variable {ext : External} {x : Execution} {newlyQueued : List (String × Nat)} {node : ResolvedNodeDefinition}
  {todo : List ResolvedNodeDefinition}

theorem silent_minor {op : Op} (minor : op.minor = true) : Silent (.pass x newlyQueued todo) op := by
  intro reply heard
  cases op with
  | write write => cases write <;> first | rfl | cases minor
  | _ => rfl

theorem holds_scheduleNode (sound : x.Sound newlyQueued) (member : node ∈ x.nodes) (told : x.Told heard)
    (bound : heard.rounds + x.unsettled ≤ x.nodes.length + 1 + heard.interrupts) :
    (x.scheduleNode ext newlyQueued node).Holds (discipline (.pass x newlyQueued (node :: todo)))
      (fun result heard => result.1.Told heard ∧
        heard.rounds + result.1.unsettled ≤ result.1.nodes.length + 1 + heard.interrupts) (fun _ _ => True) heard := by
  have listed : node.id ∈ x.nodes.map (·.id) := List.mem_map_of_mem member
  have minor : ∀ op : Op, op.minor = true → Silent (.pass x newlyQueued (node :: todo)) op := fun _ => silent_minor
  have skip : ∀ reason, x.results.lookup node.id = none → (heard.canceled = true ∨ x.Spoiled) →
      (x.markNodeSkipped node reason >>= fun x => pure (x, newlyQueued)).Holds
        (discipline (.pass x newlyQueued (node :: todo))) (fun result heard => result.1.Told heard ∧
          heard.rounds + result.1.unsettled ≤ result.1.nodes.length + 1 + heard.interrupts) (fun _ _ => True) heard := by
    intro reason unsettled due
    refine (Proc.holds_bind _ _ _).mpr ((holds_silent (x.within_markNodeSkipped minor node reason
      fun _ _ _ => rfl)).mono ?_ fun _ _ _ => trivial)
    rintro _ _ ⟨rfl, rfl⟩
    have fewer : (x.record node.id .skipped).unsettled ≤ x.unsettled := Execution.unsettled_record_le _
    exact ⟨told.skip listed unsettled due, (Nat.add_le_add_left fewer _).trans bound⟩
  unfold Execution.scheduleNode
  split
  · exact ⟨told, bound⟩
  · rename_i unplaced
    simp only [Bool.or_eq_true, not_or, Option.not_isSome_iff_eq_none] at unplaced
    split
    · -- a dependency has not succeeded
      rename_i dep status blocked
      obtain ⟨-, found, failed⟩ := Execution.blockedBy_some blocked
      refine skip _ unplaced.1 ?_
      have terminal := sound.terminal dep status found
      -- a skipped dependency passes on its own reason, a failed one is the reason
      cases status with
      | success => exact absurd rfl failed
      | skipped => exact told.skipped dep found
      | failed | timedOut | canceled => exact .inr ⟨dep, _, found, rfl⟩
      | _ => cases terminal
    · split
      · exact ⟨told, bound⟩
      · split
        · rename_i stopped
          exact skip _ unplaced.1 (told.stopped stopped)
        · split
          · rename_i canceling
            exact skip _ unplaced.1 (told.canceling canceling)
          · refine (Proc.holds_bind _ _ _).mpr ((holds_silent (x.within_nodeRunId node.id)).mono ?_ fun _ _ _ => trivial)
            rintro id _ ⟨-, rfl⟩
            refine (Proc.holds_bind _ _ _).mpr ((holds_silent (within_assignToAgent (reads_of minor) ext id node
              fun _ _ _ => rfl)).mono ?_ fun _ _ _ => trivial)
            rintro assigned _ ⟨-, rfl⟩
            cases assigned with
            | true =>
              have within : (updateNodeStatus x.run.id id .pending .queued none none none 0).Within
                  (Silent (.pass x newlyQueued (node :: todo))) fun _ => True :=
                (within_run fun _ _ => rfl).bind fun _ _ => within_event minor _
              refine (Proc.holds_bind _ _ _).mpr ((holds_silent within).mono ?_ fun _ _ _ => trivial)
              rintro _ _ ⟨-, rfl⟩
              exact ⟨told, bound⟩
            | false =>
              refine (Proc.holds_bind _ _ _).mpr ((Proc.holds_bind _ _ _).mpr ((Proc.holds_bind _ _ _).mpr
                (holds_call fun reply => ?_)))
              cases reply with
              | error why => trivial
              | ok affected =>
                refine (holds_silent (within_event minor _)).mono ?_ fun _ _ _ => trivial
                rintro _ _ ⟨-, rfl⟩
                have fewer : (x.record node.id .failed).unsettled ≤ x.unsettled := Execution.unsettled_record_le _
                exact ⟨told.fail listed unplaced.1, (Nat.add_le_add_left fewer _).trans bound⟩

theorem holds_pollNode {key : String} {keys : List String} {id : Nat} (listed : key ∈ x.nodes.map (·.id))
    (unsettled : x.results.lookup key = none) (told : x.Told heard)
    (bound : heard.rounds + x.unsettled ≤ x.nodes.length + 1 + heard.interrupts) :
    (Execution.pollNode id).Holds (discipline (.polling x (key :: keys)))
      (fun outcome later => (outcome = none → later = heard) ∧ ∀ ended, outcome = some ended →
        (x.complete key ended).Told later ∧
          later.rounds + (x.complete key ended).unsettled ≤ x.nodes.length + later.interrupts)
      (fun _ _ => True) heard := by
  have ends : ∀ outcome : NodeExecutionOutcome, outcome.status.reported = true → ∀ later,
      later = heard.read key (.ok outcome.status) → (some outcome = none → later = heard) ∧
        ∀ ended, some outcome = some ended → (x.complete key ended).Told later ∧
          later.rounds + (x.complete key ended).unsettled ≤ x.nodes.length + later.interrupts := by
    rintro ended reported _ rfl
    refine ⟨fun same => (by cases same), ?_⟩
    rintro _ ⟨⟩
    have fewer : (x.complete key ended).unsettled < x.unsettled := x.unsettled_record_lt listed unsettled ended.status
    simp only [read, reported, if_true]
    exact ⟨told.complete listed unsettled reported, by omega⟩
  refine (Proc.holds_bind _ _ _).mpr (holds_call fun reply => ?_)
  cases reply with
  | error why => trivial
  | ok status =>
    cases status with
    | success => exact ends (.success none) rfl _ rfl
    | failed =>
      refine (Proc.holds_bind _ _ _).mpr (holds_call fun reply => ?_)
      cases reply with
      | error why => trivial
      | ok reason => exact ends (.failed _) rfl _ rfl
    | timedOut => exact ends .timedOut rfl _ rfl
    | canceled => exact ends .canceled rfl _ rfl
    | _ => exact ⟨fun _ => rfl, fun _ same => by cases same⟩

end

theorem holds_block (ext : External) (settings : Settings) (point : Point) (s : State)
    (sound : (factless.regime ext).assertion point s) (here : told point heard) :
    (block ext settings point).Holds (discipline point) told (fun why _ => why.elim) heard := by
  cases point with
  | idle => trivial
  | schedulerTick =>
    refine holds_otherwise ((Proc.holds_bind _ _ _).mpr (holds_call fun reply => ?_))
    cases reply with
    | error why => trivial
    | ok queued => cases queued <;> trivial
  | executeRun queued =>
    cases here
    refine holds_quiet ext settings rfl (fun _ _ _ => rfl) ?_
    rintro _ (_ | _)
    · exact ⟨Execution.Told.fresh queued _ _, (Nat.zero_add _).trans_le List.countP_le_length⟩
    · trivial
  | scheduling x =>
    refine holds_recover ((Proc.holds_bind _ _ _).mpr ((Proc.holds_bind _ _ _).mpr
      ((Proc.holds_bind _ _ _).mpr (holds_call fun reply => ?_))))
    cases reply with
    | error why => trivial
    | ok status =>
      obtain ⟨told, bound⟩ := here
      refine ⟨told.observe _, ?_⟩
      show heard.rounds + 1 + x.unsettled ≤ x.nodes.length + 1 + heard.interrupts
      omega
  | pass x newlyQueued todo =>
    cases todo with
    | nil =>
      obtain ⟨told, bound⟩ := here
      have launched : (x.launch newlyQueued).Told heard :=
        ⟨told.observed, told.interrupted, told.keyed, told.canceling, told.stopped, told.skipped, told.recorded⟩
      unfold block
      dsimp only
      split
      · exact ⟨launched, bound⟩
      · exact ⟨launched, bound⟩
    | cons node todo =>
      obtain ⟨looping, -, front, split, -⟩ := sound
      have member : node ∈ x.nodes := by rw [split]; simp
      exact holds_recover ((Proc.holds_bind _ _ _).mpr (holds_scheduleNode looping member here.1 here.2))
  | waiting x =>
    refine holds_quiet ext settings rfl (fun _ _ _ => rfl) ?_
    rintro _ (_ | _)
    · exact here
    · trivial
  | polling x todo =>
    cases todo with
    | nil =>
      refine holds_recover ((Proc.holds_bind _ _ _).mpr ((Proc.holds_bind _ _ _).mpr (holds_call fun reply => ?_)))
      cases reply with
      | error why => trivial
      | ok status =>
        by_cases canceled : status = .cancelRequested
        · subst canceled
          have fewer : (x.complete "" .canceled).unsettled ≤ x.unsettled := Execution.unsettled_record_le _
          refine ⟨here.1.interrupt sound.sound.accepted.named, ?_⟩
          show heard.rounds + (x.complete "" .canceled).unsettled ≤ x.nodes.length + (heard.interrupts + 1)
          have bound := here.2
          omega
        · have unseen : decide (status = JobStatus.cancelRequested) = false := decide_eq_false canceled
          simp only [hear, seesCancel, unseen, Bool.false_eq_true, if_false, orHalt, Proc.holds_done, Proc.pure_eq]
          exact here
    | cons key todo =>
      refine holds_recover ?_
      unfold pollPoint
      cases found : x.runningNodes.lookup key with
      | none => exact here
      | some id =>
        obtain ⟨-, listed, unsettled⟩ := sound.sound.running key id found
        refine (Proc.holds_bind _ _ _).mpr ((holds_pollNode listed unsettled here.1 here.2).mono ?_ fun _ _ _ => trivial)
        rintro outcome later ⟨same, ends⟩
        cases outcome with
        | none =>
          cases same rfl
          exact here
        | some outcome => exact ends outcome rfl
  | finalizing x =>
    refine holds_quiet ext settings rfl (fun _ _ _ => rfl) ?_
    rintro _ (_ | _) <;> trivial
  | _ => exact sound.elim

end Journal

/-! ## The scheduler in the server -/

theorem factless_governs (idle : ∀ slot, start.threads slot = enter ext settings .idle) :
    (factless.regime ext).Governs ext settings start admits fun _ c => c.state :=
  factless_valid.governs idle fun _ _ _ _ _ _ _ _ _ _ _ _ _ _ _ => trivial

namespace Journal

def watched (ext : External) (point : Point) : Discipline Sig (State × Journal) where
  exec op before reply after := op.exec ext before.1 reply after.1 ∧ after.2 = before.2.hear point op reply
  rely before after := (factless.regime ext).others before.1 after.1 ∧ after.2 = before.2
  guarantee _ _ _ := True

theorem watched_joins (ext : External) (point : Point) :
    (watched ext point).Joins Prod.fst ((factless.regime ext).discipline point) Prod.snd (discipline point) where
  exec := fun _ _ _ _ ran => ran
  rely := fun _ _ moved => moved
  guarantee := fun _ _ _ _ _ => trivial

variable (ext settings start admits) in
def watch : Watch ext settings start admits .scheduler (State × Journal) where
  view history c := (c.state, journal ext settings start history)
  discipline := watched ext
  assertion point s := (factless.regime ext).assertion point s.1 ∧ told point s.2

theorem watch_valid (idle : ∀ slot, start.threads slot = enter ext settings .idle) :
    (watch ext settings start admits).Valid where
  refl := fun _ s => ⟨factless_valid.regime.refl s.1, rfl⟩
  blocks := fun point s holds =>
    ((Regime.holds_block ext settings factless_valid.regime point s.1 holds.1).join (watched_joins ext point)
      (holds_block ext settings point s.1 holds.1 holds.2)).mono (fun _ _ both => both) fun why _ => why.elim
  runs := fun _ _ choice _ _ _ _ run _ _ next ran => ⟨⟨choice, ran⟩, journal_exec run next ran⟩
  resumes := by
    intro history c after point run admitted moved ended holds
    have same : after.state = c.state := by
      cases step_moved moved with
      | resume => rfl
    show (factless.regime ext).assertion point after.state ∧
      told point (journal ext settings start (.resume .scheduler :: history))
    rw [same, journal_other run fun _ equal => by cases equal]
    exact holds
  suffers := by
    intro history c label after run admitted moved notExec entry other holds
    have onward : (watched ext (c.threads .scheduler).point).rely ((watch ext settings start admits).view history c)
        ((watch ext settings start admits).view (label :: history) after) :=
      ⟨(factless_governs idle).others history c label after run admitted moved notExec, journal_other run notExec⟩
    have order : ((watch ext settings start admits).discipline (c.threads .scheduler).point).Preorder :=
      ⟨fun s => ⟨factless_valid.regime.refl s.1, rfl⟩, fun _ _ _ first second =>
        ⟨factless_valid.regime.trans _ _ _ first.1 second.1, second.2.trans first.2⟩⟩
    refine Thread.Holds.rely order ?_ holds onward
    rintro point before after ⟨moved, same⟩ ⟨sound, told⟩
    refine ⟨Regime.stable_assertion .idle factless_valid.regime point before.1 after.1 moved sound, ?_⟩
    rw [same]
    exact told
  enters := by
    intro history c label after point _ _ _ entry
    cases entry
    exact ⟨trivial, trivial⟩
  idle := ⟨trivial, trivial⟩

end Journal

/-- What the scheduler's variables say of the journal where it stands at a control point. -/
theorem journal_told (idle : ∀ slot, start.threads slot = enter ext settings .idle)
    (run : (system ext settings).Path admits start history c) {point : Point}
    (ended : (c.threads .scheduler).code = .done point) :
    (factless.regime ext).assertion point c.state ∧ Journal.told point (journal ext settings start history) :=
  Thread.Holds.at_point ((Journal.watch_valid idle).sound (idle .scheduler) run) ended

end PostJen.Server
