import PostJen.Server.Findings
import PostJen.Server.Provision
import PostJen.Server.Sample

/-! The outputs that a node's success requires.

The outputs are not part of a row. Both dispatch paths load the definition anew
when a worker takes the task, and take none for required where that fails. So a
success stands for the outputs that the run started with as long as each
dispatch of the row finds them still declared.
-/

set_option autoImplicit false

open PostJen.Foundations PostJen.Core

namespace PostJen.Server

def RequiresOutput (node : ResolvedNodeDefinition) (path : String) : Prop :=
  ∃ output ∈ node.outputs, output.required = true ∧ path = resolveOutputPath node.workingDir output

/-- The load of a dispatch still requires what the node required when the run started. -/
def Covers (base : ResolvedNodeDefinition) (task : Task) (definition : ResolvedJobDefinition) : Prop :=
  ∃ node, (definition.nodes.find? fun node => node.id = task.nodeId) = some node ∧
    ∀ output ∈ base.outputs, output.required = true → ∃ declared ∈ node.outputs, declared.required = true ∧
      resolveOutputPath task.workingDir declared = resolveOutputPath base.workingDir output

def DispatchesCover (ext : External) (settings : Settings) (start : Config) (history : List Label) (id : Nat) (base : ResolvedNodeDefinition) : Prop :=
  ∀ recent slot choice earlier before task, history = recent ++ .exec slot choice :: earlier →
    (system ext settings).Path everything start earlier before →
    Dispatches ext settings everything start slot task earlier before → task.nodeRunId = id →
    ∃ definition, (Op.load task.definitionPath).run ext choice before.state = some (.ok definition, before.state) ∧
      Covers base task definition

section
variable (ext : External) (settings : Settings) (complaint : String → String) (start : Network)

/-- What is known of the execution that an UPDATE of a row ends. -/
inductive Executed (history : List NetLabel) (net : Network) : Slot → Nat → (Finding → Prop) → Prop where
  | here (slot : Slot) (task : Task) (point : (net.server.threads slot).point = .localTask task) :
      Executed history net slot task.nodeRunId fun fact => Current ext settings start.server everything slot
        ((Findings.finding ext).event fact slot) (served history) net.server
  | agent (i n : Nat) (headers : Headers) (payload : ReportResultRequest) (client : Client)
      (point : (net.server.threads (.request n)).point = .received (.reportResult headers payload))
      (sent : (network ext settings complaint).Happened unrestricted start
        (fun before label _ => label = .send i n (.reportResult headers payload) ∧ before.clients i = some client) history) :
      Executed history net (.request n) payload.nodeRunId (Findings.finds client.seen)

/-- The process of a dispatch of the row succeeded and these paths were found. -/
def Enforced (history : List NetLabel) (net : Network) (slot : Slot) (id : Nat) (required : String → Prop) : Prop :=
  ∃ known task outputs, Executed ext settings complaint start history net slot id known ∧ task.nodeRunId = id ∧
    Handed ext settings everything start.server task outputs (served history) ∧
    (∃ args env result, known (.ran (task.node args env outputs) result) ∧ result.outcome.status = .success) ∧
    ∀ path, required path → known (.found path)

/-- A success stands for the outputs that the definition required when the run started. -/
def OutputLaw (condition : List Label → Nat → ResolvedNodeDefinition → Prop) : Prop :=
  ∀ history net label after id row row', (network ext settings complaint).Path unrestricted start history net →
    net.step ext settings complaint label = some after → net.server.state.db.nodeRuns.find id = some row →
    row.status ≠ .success → after.server.state.db.nodeRuns.find id = some row' → row'.status = .success →
    ∃ (provision : Provision) (earlier : List Label) (before : Config),
      Inserted ext settings everything start.server id (newNodeRun ext provision.queued.id provision.node) earlier before
        (served history) ∧
      provision.Valid ext settings everything start.server earlier before ∧
      (condition (served history) id provision.base → ∃ slot choice, label = .server (.exec slot choice) ∧
        Enforced ext settings complaint start history net slot id (RequiresOutput provision.base))

end

namespace Enforcement

variable {ext : External} {settings : Settings} {complaint : String → String} {start net after : Network}
  {history : List NetLabel} {label : NetLabel}

theorem handed_served {task : Task} {outputs : List ResolvedNodeOutput}
    (handed : Handed ext settings everything start.server task outputs (served history)) (label : NetLabel) :
    Handed ext settings everything start.server task outputs (served (label :: history)) := by
  rw [served]
  cases isMove : label.label with
  | none =>
    rw [List.filterMap_cons_none isMove]
    exact handed
  | some move =>
    rw [List.filterMap_cons_some isMove]
    exact handed.later move

variable (ext settings complaint start)

/-- An agent's code and what it has seen, along a run. -/
structure Honest (history : List NetLabel) (client : Client) : Prop where
  code : client.code.Holds Findings.reporting.discipline (fun _ _ => True) (fun why _ => why.elim) client.seen
  given : ∀ task outputs, Findings.Given client.seen task outputs →
    Handed ext settings everything start.server task outputs (served history)

def Reported (history : List NetLabel) (n : Nat) (headers : Headers) (payload : ReportResultRequest) : Prop :=
  ∃ i client, (network ext settings complaint).Happened unrestricted start
    (fun before label _ => label = .send i n (.reportResult headers payload) ∧ before.clients i = some client) history ∧
    (validStatus payload.status = some .success → ∃ task outputs, task.nodeRunId = payload.nodeRunId ∧
      Handed ext settings everything start.server task outputs (served history) ∧
      Passed (Findings.finds client.seen) task outputs)

structure Attested (history : List NetLabel) (net : Network) : Prop where
  clients : ∀ i client, net.clients i = some client → Honest ext settings start history client
  reports : ∀ n headers payload, (net.server.threads (.request n)).point = .received (.reportResult headers payload) →
    Reported ext settings complaint start history n headers payload

variable {ext settings complaint start}

theorem Honest.later {client : Client} (honest : Honest ext settings start history client) (label : NetLabel) :
    Honest ext settings start (label :: history) client where
  code := honest.code
  given := fun task outputs given => handed_served (honest.given task outputs given) label

theorem Reported.later {n : Nat} {headers : Headers} {payload : ReportResultRequest}
    (reported : Reported ext settings complaint start history n headers payload) (label : NetLabel) :
    Reported ext settings complaint start (label :: history) n headers payload := by
  obtain ⟨i, client, sent, passed⟩ := reported
  refine ⟨i, client, sent.later label, fun success => ?_⟩
  obtain ⟨task, outputs, row, handed, found⟩ := passed success
  exact ⟨task, outputs, row, handed_served handed label, found⟩

theorem honest_begin (token : String) : Honest ext settings start history (.begin ext complaint token) where
  code := Findings.holds_pollOnce ext complaint token
  given := by
    rintro task outputs ⟨request, status, member⟩
    cases member

section
variable (idle : ∀ slot, start.server.threads slot = enter ext settings .idle)
  (run : (network ext settings complaint).Path unrestricted start history net)
include idle run

theorem honest_observe {client : Client} (honest : Honest ext settings start history client) {op : AgentOp}
    {rest : op.Reply → Proc AgentSig Empty Unit} {reply : op.Reply} (next : client.code = .call op rest)
    (seen : Seen net client label op reply) :
    Honest ext settings start (label :: history) (client.observe op rest reply) where
  code := by
    have code := honest.code
    rw [next] at code
    exact (Protocol.holds_call.mp code reply).2
  given := by
    rintro task outputs ⟨request, status, member⟩
    refine handed_served ?_ label
    rcases List.mem_append.mp member with before | now
    · exact honest.given task outputs ⟨request, status, before⟩
    · have same := List.mem_singleton.mp now
      cases seen with
      | answer sent ended =>
        cases same
        exact Handing.carried (network_served run) (idle _) ended rfl
      | _ => cases same

theorem honest_step (attested : Attested ext settings complaint start history net)
    (moved : net.Moved ext settings complaint label after) (i : Nat) (client : Client)
    (found : after.clients i = some client) : Honest ext settings start (label :: history) client := by
  have stepped := moved.clients i
  rw [found] at stepped
  cases stepped with
  | same _ before other => exact (attested.clients i client before).later label
  | @server client' before move isMove =>
    have honest := (attested.clients i client' before).later label
    exact ⟨by simpa using honest.code, by simpa using honest.given⟩
  | begin token => exact honest_begin token
  | @send client' before n request rest asks ready isSend =>
    have honest := (attested.clients i client' before).later label
    exact ⟨honest.code, honest.given⟩
  | @observe client' before op rest reply next seen =>
    exact honest_observe idle run (attested.clients i client' before) next seen

theorem reported_step (attested : Attested ext settings complaint start history net)
    (moved : net.step ext settings complaint label = some after) {n : Nat} {headers : Headers}
    {payload : ReportResultRequest}
    (point : (after.server.threads (.request n)).point = .received (.reportResult headers payload)) :
    Reported ext settings complaint start (label :: history) n headers payload := by
  have net_moved := network_moved moved
  rcases net_moved.server with ⟨move, isMove, stepped⟩ | ⟨-, same⟩
  · have thread := thread_step stepped (.request n)
    generalize after.server.threads (.request n) = there at thread point
    cases thread with
    | same other => exact (attested.reports n headers payload point).later label
    | exec next ran => exact (attested.reports n headers payload point).later label
    | resume ended =>
      cases point
      exact absurd ended (never_received idle (network_served run).reaches)
    | entered entry =>
      cases point
      cases entry with
      | receive _ request =>
        obtain ⟨i, rfl⟩ := receives_worker net_moved rfl isMove
        obtain ⟨client, rest, -, found, asks, -⟩ := step_send moved
        have honest := attested.clients i client found
        refine ⟨i, client, run.happens trivial moved ⟨rfl, found⟩, fun success => ?_⟩
        have code := honest.code
        rw [asks] at code
        obtain ⟨task, outputs, given, row, passed⟩ :=
          (Protocol.holds_call.mp code (.error "")).1 headers payload rfl success
        exact ⟨task, outputs, row, handed_served (honest.given task outputs given) _, passed⟩
  · rw [same] at point
    exact (attested.reports n headers payload point).later label

theorem attested (none : ∀ i, start.clients i = none) : Attested ext settings complaint start history net := by
  induction run with
  | nil =>
    refine ⟨fun i client found => ?_, fun n headers payload point => ?_⟩
    · rw [none] at found
      cases found
    · rw [idle] at point
      cases point
  | cons run _ moved ih =>
    exact ⟨honest_step idle run ih (network_moved moved), fun n headers payload => reported_step idle run ih moved⟩

end

theorem found_required {start : Config} {history : List Label} {id : Nat} {base : ResolvedNodeDefinition} {task : Task}
    {outputs : List ResolvedNodeOutput} {known : Finding → Prop}
    (cover : DispatchesCover ext settings start history id base) (row : task.nodeRunId = id)
    (handed : Handed ext settings everything start task outputs history) (passed : Passed known task outputs)
    {path : String} (required : RequiresOutput base path) : known (.found path) := by
  obtain ⟨slot, earlier, before, choice, dispatched⟩ := handed
  obtain ⟨recent, split⟩ := dispatched.split
  obtain ⟨reply, state, ran, rfl⟩ := dispatched.outputs
  obtain ⟨definition, loaded, node, found, covers⟩ :=
    cover recent slot choice earlier before task split dispatched.run dispatched.dispatches row
  cases ran.symm.trans loaded
  obtain ⟨output, member, isRequired, rfl⟩ := required
  obtain ⟨declared, listed, still, same⟩ := covers output member isRequired
  rw [← same]
  refine passed.found declared ?_ still
  rw [Task.declared, found]
  exact listed

theorem handed_loaded {start c : Config} {history : List Label} {slot : Slot} {task : Task}
    {reply : Except AnyError ResolvedJobDefinition}
    (loaded : Current ext settings start everything slot ((Findings.finding ext).event (.loaded task reply) slot) history c) :
    Handed ext settings everything start task (task.declared reply) history := by
  obtain ⟨recent, label, earlier, before, after, rfl, run, -, -, point, choice, rfl, next, ran⟩ := loaded.happened
  exact ⟨slot, earlier, before, choice, ⟨recent, rfl⟩, run, ⟨next, .inl point⟩, reply, after.state, ran, rfl⟩

/-- Only the end of a local task and the report of an agent make a row succeed. -/
theorem update_success {point : Point} {id : Nat} {change : NodeChange} {now : Timestamp} {row : NodeRun}
    (updates : point.Updates id change) (fresh : row.status ≠ .success) (success : (change.apply now row).status = .success) :
    (∃ exitCode reason, change = .finish .success exitCode reason) ∧
      ((∃ task, point = .localTask task ∧ task.nodeRunId = id) ∨
        ∃ headers payload, point = .received (.reportResult headers payload) ∧ payload.nodeRunId = id) := by
  cases updates with
  | finish task status exitCode reason reported =>
    cases success
    exact ⟨⟨exitCode, reason, rfl⟩, .inl ⟨task, rfl, rfl⟩⟩
  | report headers payload status exitCode reason reported =>
    cases success
    exact ⟨⟨exitCode, reason, rfl⟩, .inr ⟨headers, payload, rfl, rfl⟩⟩
  | assign => exact absurd success fresh
  | pick =>
    simp only [NodeChange.apply] at success
    split at success
    · cases success
    · exact absurd success fresh
  | status x newlyQueued todo _ toStatus reason exitCode retryCount valid =>
    rcases valid with rfl | rfl <;> cases success
  | _ => cases success

/-- An output was found by the task itself, or behind a report of an agent. -/
theorem Executed.looked {net : Network} {slot : Slot} {id : Nat} {known : Finding → Prop} {path : String}
    (executed : Executed ext settings complaint start history net slot id known) (found : known (.found path)) :
    Current ext settings start.server everything slot ((Findings.finding ext).event (.found path) slot) (served history)
        net.server ∨
      ∃ i n request, (network ext settings complaint).Happened unrestricted start
        (fun _ label _ => label = .send i n request) history := by
  cases executed with
  | here slot task point => exact .inl found
  | agent i n headers payload client point sent =>
    obtain ⟨recent, label, earlier, before, after, split, there, admitted, moved, same, -⟩ := sent
    exact .inr ⟨i, n, _, recent, label, earlier, before, after, split, there, admitted, moved, same⟩

end Enforcement

/-- In a run whose dispatches cover what the run started with, a success stands for every required output. -/
theorem outputs_enforced (ext : External) (settings : Settings) (complaint : String → String)
    (files : String → Option String) (clock : Nat) :
    OutputLaw ext settings complaint (Network.initial ext settings files clock)
      (DispatchesCover ext settings (Config.initial ext settings files clock)) := by
  intro history net label after id row row' run moved found fresh found' success
  have idle := Config.initial_idle ext settings files clock
  have served := network_served run
  rcases (network_moved moved).server with ⟨move, isMove, stepped⟩ | ⟨-, same⟩
  · obtain ⟨provision, earlier, before, inserted, valid, -⟩ := path_provided idle (fun _ => rfl) served found
    refine ⟨provision, earlier, before, inserted, valid, fun cover => ?_⟩
    obtain ⟨row'', found'', changed⟩ := nodeStep stepped found
    cases found'.symm.trans found''
    cases changed with
    | same => exact absurd success fresh
    | update slot choice change executed next =>
      subst executed
      have isServer : label = .server (.exec slot choice) := by cases label <;> cases isMove; rfl
      refine ⟨slot, choice, isServer, ?_⟩
      have updates := (reached_placed idle served.reaches).updates next
      obtain ⟨⟨exitCode, reason, rfl⟩, ⟨task, point, row⟩ | ⟨headers, payload, point, row⟩⟩ :=
        Enforcement.update_success updates fresh success
      -- the local task has checked the outputs itself
      · have permitted := Findings.recall_valid.permitted (idle slot) served trivial stepped next id _ _ _ rfl
        obtain ⟨reply, loaded, passed⟩ := permitted.passed task point rfl
        have handed := Enforcement.handed_loaded loaded
        subst row
        exact ⟨_, task, task.declared reply, .here slot task point, rfl, handed, passed.succeeded,
          fun path required => Enforcement.found_required cover rfl handed passed required⟩
      -- an agent's report: the agent has checked what it was handed out
      · obtain ⟨n, rfl⟩ : ∃ n, slot = .request n := by
          have hosted := (reached_placed idle served.reaches slot).1
          rw [point] at hosted
          cases slot <;> first | exact ⟨_, rfl⟩ | cases hosted
        have permitted := Findings.recall_valid.permitted (idle _) served trivial stepped next id _ _ _ rfl
        have attested := Enforcement.attested (by exact idle) run fun _ => rfl
        obtain ⟨i, client, sent, passes⟩ := attested.reports n headers payload point
        obtain ⟨task, outputs, ofRow, handed, passed⟩ := passes (permitted.reported headers payload point)
        subst row
        exact ⟨_, task, outputs, .agent i n headers payload client point sent, ofRow, handed, passed.succeeded,
          fun path required => Enforcement.found_required cover ofRow handed passed required⟩
  · rw [same, found] at found'
    cases found'
    exact absurd success fresh

namespace Sample

def strictYaml : String :=
"version: 1
id: strict
name: Strict
defaults:
  working_dir: /tmp
nodes:
  - id: hello
    program: hostname
    outputs:
      - path: out.txt
        required: true
"

def strict : JobDefinition where
  version := 1
  id := "strict"
  name := "Strict"
  defaults := some { workingDir := some "/tmp" }
  nodes := [{ id := "hello", program := "hostname", outputs := some [⟨"out.txt", some true⟩] }]

def requiring : External where
  __ := ext
  parseYaml text := if text = strictYaml then .ok strict else .error "missing field version"

def strictFiles (path : String) : Option String := if path = "strict.yaml" then some strictYaml else none

def strictNetwork : Network := Network.initial requiring settings strictFiles 1000000

/-- The file is removed while the node is queued, and the local worker takes it up to the UPDATE of its row. -/
def strictRemoved : List Label :=
  started "strict.yaml" "strict" ++ block 1 ++ block 5 ++ block 1 ++ block 3 ++ block 0 ++
    [.edit "strict.yaml" none] ++ turns .localWorker 3 ++ [.spawn 0] ++ turns (.localTask 0) 1 ++
    [.exec (.localTask 0) (.child (exited 0))] ++ turns (.localTask 0) 1

def unlooked (net : Network) : NetLabel → Bool
  | .server (.exec slot _) => match net.server.pending slot with
      | some (.metadata _) => false
      | _ => true
  | .server _ => true
  | _ => false

def Unlooking (c : Config) (label : Label) : Prop :=
  ∀ slot choice path, label = .exec slot choice → c.pending slot ≠ some (.metadata path)

theorem unlooked_move (net : Network) (label : NetLabel) (move : Label) (passes : unlooked net label = true)
    (isMove : label.label = some move) : Unlooking net.server move := by
  rintro slot choice path rfl next
  cases label <;> cases isMove
  simp [unlooked, next] at passes

theorem strict_requires {contents : String} {definition : ResolvedJobDefinition}
    (resolves : requiring.Resolves contents definition) {node : ResolvedNodeDefinition} (member : node ∈ definition.nodes) :
    RequiresOutput node "/tmp/out.txt" := by
  obtain ⟨source, parsed, resolved⟩ := resolves
  simp only [requiring] at parsed
  split at parsed
  · cases parsed
    have outputs : strict.resolve.toOption.map (fun definition =>
        definition.nodes.map fun node => (node.workingDir, node.outputs)) = some [("/tmp", [⟨"out.txt", true⟩])] := by
      decide +kernel
    rw [resolved] at outputs
    have listed := List.mem_map_of_mem (f := fun node : ResolvedNodeDefinition => (node.workingDir, node.outputs)) member
    have shown : definition.nodes.map (fun node => (node.workingDir, node.outputs)) = [("/tmp", [⟨"out.txt", true⟩])] :=
      Option.some.inj outputs
    rw [shown, List.mem_singleton] at listed
    obtain ⟨workingDir, outputs⟩ := Prod.mk.inj listed
    refine ⟨⟨"out.txt", true⟩, by rw [outputs]; exact List.mem_cons_self, rfl, ?_⟩
    rw [workingDir]
    decide +kernel
  · cases parsed

end Sample

/-- The load of the worker fails, and the node succeeds without its output. -/
theorem outputs_enforced_removed :
    ¬OutputLaw Sample.requiring Sample.settings Sample.complaint Sample.strictNetwork fun _ _ _ => True := by
  intro law
  have passed : (((network Sample.requiring Sample.settings Sample.complaint).follow Sample.unlooked
      Sample.strictNetwork (Sample.strictRemoved.map .server)).any fun net =>
        (net.server.state.db.nodeRuns.find 1).any fun row => row.status = .running ∧
          (net.step Sample.requiring Sample.settings Sample.complaint (.server (.exec (.localTask 0) (.answer 0)))).any
            fun after => (after.server.state.db.nodeRuns.find 1).any fun row => row.status = .success) = true := by
    decide +kernel
  obtain ⟨net, followed, passed⟩ := (Option.any_eq_true _ _).mp passed
  obtain ⟨row, found, passed⟩ := (Option.any_eq_true _ _).mp passed
  obtain ⟨running, passed⟩ := of_decide_eq_true passed
  obtain ⟨after, moved, passed⟩ := (Option.any_eq_true _ _).mp passed
  obtain ⟨row', found', passed⟩ := (Option.any_eq_true _ _).mp passed
  have path : (network Sample.requiring Sample.settings Sample.complaint).Path
      (fun net label => Sample.unlooked net label = true) Sample.strictNetwork _ net :=
    (network _ _ _).follow_path (fun _ _ checked => checked) .nil followed
  have run := path.mono (fun _ _ _ => trivial : ∀ net label, Sample.unlooked net label = true → unrestricted net label)
  obtain ⟨provision, earlier, before, -, valid, enforced⟩ := law _ net _ after 1 row row' run moved found
    (by rw [running]; decide) found' (of_decide_eq_true passed)
  obtain ⟨slot, choice, -, known, task, outputs, executed, -, -, -, required⟩ := enforced trivial
  have looked := required _ (Sample.strict_requires valid.resolves valid.base)
  rcases Enforcement.Executed.looked executed looked with current | ⟨i, n, request, sent⟩
  · obtain ⟨recent, label, earlier, before, after, split, there, -, -, bytes, choice, rfl, next, -⟩ := current.happened
    have served := network_admitted Sample.unlooked_move path
    rw [split] at served
    exact served.admitted there slot choice _ rfl next
  · obtain ⟨recent, label, earlier, before, after, split, there, -, -, rfl⟩ := sent
    rw [split] at path
    cases path.admitted there

end PostJen.Server
