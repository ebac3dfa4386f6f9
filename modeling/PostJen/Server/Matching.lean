import PostJen.Server.Assignment
import PostJen.Server.Driving
import PostJen.Server.Plans
import PostJen.Server.Preparation
import PostJen.Server.Tokens

/-! Which agents a node may run on.

A row with a target is assigned to an agent that was registered with the name
and the labels that the target asks for, and a row without one to the local
agent. A node only fails for want of an agent when no online agent fitted.
-/

set_option autoImplicit false

open PostJen.Foundations PostJen.Core

namespace PostJen.Server

/-! ## Targets and agents -/

/-- An agent of this name and these labels satisfies the target. -/
def Accepts (target : NodeTarget) (name : String) (labels : List String) : Prop :=
  (∀ wanted, target.agent = some wanted → name = wanted) ∧ ∀ label ∈ target.labels, label ∈ labels

/-- Without a target only the local agent will do. -/
def Agent.Fits (ext : External) (agentId : String) (agent : Agent) : Option NodeTarget → Prop
  | none => agentId = localAgentId
  | some target => ∃ labels, agent.labelsJson = ext.encodeStrings labels ∧ Accepts target agent.name labels

def Registers (ext : External) (agentId name : String) (labels : List String) (before : Config) (label : Label)
    (after : Config) : Prop :=
  ∃ slot choice new, label = .exec slot choice ∧ before.pending slot = some (.write (.agents (.register new))) ∧
    new.agentId = agentId ∧ new.name = name ∧ new.labelsJson = ext.encodeStrings labels ∧
    before.state.db.agents.find agentId = none ∧ after.state.db.agents.find agentId ≠ none

section
variable (ext : External) (settings : Settings) (admits : Config → Label → Prop) (start : Config)

/-- No generated id was used again for an agent of another name or other labels. -/
def NeverReused (history : List Label) : Prop :=
  ∀ agentId name labels name' labels',
    (system ext settings).Happened admits start (Registers ext agentId name labels) history →
    (system ext settings).Happened admits start (Registers ext agentId name' labels') history →
    name = name' ∧ labels = labels'

/-- The scheduler's block has read the online agents, and none of them fitted. -/
inductive Unmatched (target : NodeTarget) : List Label → Config → Prop where
  | read {history : List Label} {before after : Config} {choice : Choice}
      (run : (system ext settings).Path admits start history before) (admitted : admits before (.exec .scheduler choice))
      (moved : step ext settings before (.exec .scheduler choice) = some after)
      (reads : before.pending .scheduler = some (.select (.onlineAgents target.agent)))
      (unfit : ∀ agentId agent, before.state.db.agents.find agentId = some agent → agent.status = .online →
        ¬agent.Fits ext agentId (some target)) : Unmatched target (.exec .scheduler choice :: history) after
  | keep {history : List Label} {before after : Config} {label : Label} (unmatched : Unmatched target history before)
      (admitted : admits before label) (moved : step ext settings before label = some after)
      (here : label ≠ .resume .scheduler) (up : ∀ hostname, label ≠ .boot hostname) :
      Unmatched target (label :: history) after

/-- The rules of node targets, over all runs. -/
structure TargetRules : Prop where
  recorded : ∀ history c x, (system ext settings).Path admits start history c →
    c.ended .scheduler = some (.scheduling x) → ∀ node ∈ x.nodes, ∃ id row, x.nodeIds.lookup node.id = some id ∧
      c.state.db.nodeRuns.find id = some row ∧ row.targetJson = node.target.map ext.encodeTarget
  target : ∀ history c id row, (system ext settings).Path admits start history c →
    c.state.db.nodeRuns.find id = some row → row.assignedAgentId.isSome = true →
    ∃ target : Option NodeTarget, row.targetJson = target.map ext.encodeTarget
  fits : ∀ history c id row agentId agent (target : Option NodeTarget),
    (system ext settings).Path admits start history c → NeverReused ext settings admits start history →
    c.state.db.nodeRuns.find id = some row → row.assignedAgentId = some agentId →
    c.state.db.agents.find agentId = some agent → row.targetJson = target.map ext.encodeTarget →
    agent.Fits ext agentId target
  fixed : ∀ c c' id row, (system ext settings).Reaches admits start c → (system ext settings).Reaches admits c c' →
    c.state.db.nodeRuns.find id = some row → row.status = .queued →
    ∃ row', c'.state.db.nodeRuns.find id = some row' ∧ row'.assignedAgentId = row.assignedAgentId
  polled : ∀ history before label after n id, (system ext settings).Path admits start history before →
    admits before label → step ext settings before label = some after → HandsOut (.request n) id before label after →
    ∃ headers agentId, Presents ext settings admits start n headers agentId (label :: history) after ∧
      after.state.db.AssignedTo id agentId
  picked : ∀ history before label after id, (system ext settings).Path admits start history before →
    admits before label → step ext settings before label = some after → HandsOut .localWorker id before label after →
    after.state.db.AssignedTo id localAgentId
  unmatched : ∀ history before choice after id exitCode retryCount,
    (system ext settings).Path admits start history before → admits before (.exec .scheduler choice) →
    step ext settings before (.exec .scheduler choice) = some after →
    before.pending .scheduler = some (.write (.updateNode id
      (.status .failed (some "no matching agent available") exitCode retryCount))) →
    ∃ x newlyQueued node todo target, (before.threads .scheduler).point = .pass x newlyQueued (node :: todo) ∧
      x.nodeIds.lookup node.id = some id ∧ node.target = some target ∧
      Unmatched ext settings admits start target history before

end

namespace Matching

variable {ext : External} {settings : Settings} {admits : Config → Label → Prop} {start c after : Config}
  {label : Label} {history : List Label}

/-! ## Generated ids -/

def Generated (ext : External) (op : Op) : Prop :=
  ∀ new, op = .write (.agents (.register new)) →
    new.agentId ≠ localAgentId ∧ ∃ labels, new.labelsJson = ext.encodeStrings labels

def generating (ext : External) : Plan Unit :=
  ⟨⟨fun _ op => Generated ext op, fun _ _ _ => ()⟩, fun _ _ => True⟩

theorem generated_ne_local (text : String) : "agent-" ++ text ≠ localAgentId := by
  intro same
  have lengths := congrArg String.length same
  rw [String.length_append] at lengths
  have prefixed : "agent-".length = 6 := rfl
  have known : localAgentId.length = 5 := rfl
  omega

section
attribute [local irreducible] trim

theorem generating_valid : (generating ext).Valid ext settings where
  begins := fun _ _ _ _ => ⟨(), trivial⟩
  blocks := by
    intro slot point memory hosted _
    have plain : ∀ op : Op, (∀ new, op ≠ .write (.agents (.register new))) → Generated ext op :=
      fun op other new same => absurd same (other new)
    by_cases registers : ∃ name hostname labels, point = .received (.registerAgent name hostname labels)
    · obtain ⟨name, hostname, labels, rfl⟩ := registers
      refine holds_respond ?_
      show (registerAgent ext name hostname labels).Holds _ _ _ memory
      unfold registerAgent
      dsimp only
      split
      · trivial
      · refine Protocol.holds_call.mpr fun id => ⟨plain _ (fun _ same => by cases same), ?_⟩
        refine Protocol.holds_call.mpr fun token => ⟨plain _ (fun _ same => by cases same), ?_⟩
        refine (Proc.holds_bind _ _ _).mpr ((Proc.holds_bind _ _ _).mpr (Protocol.holds_call.mpr fun reply => ⟨?_, ?_⟩))
        · rintro new same
          cases same
          exact ⟨generated_ne_local _, labels.getD [], rfl⟩
        · cases reply <;> trivial
    · refine (Protocol.holds_free (block_within ext settings hosted) (fun op _ may => plain op ?_) memory).mono
        (fun _ _ _ => trivial) fun why => why.elim
      rintro new rfl
      cases point with
      | received request =>
        cases request with
        | registerAgent name hostname labels => exact registers ⟨name, hostname, labels, rfl⟩
        | _ => cases may
      | _ => cases may

end

/-! ## The agents that were registered -/

variable (ext settings admits start) in
/-- The local agent, or one that was registered under the id with this name and these labels. -/
def Known (history : List Label) (agentId name : String) (labels : List String) : Prop :=
  (agentId = localAgentId ∧ name = "local" ∧ labels = ["local"]) ∨
    (agentId ≠ localAgentId ∧
      (system ext settings).Happened admits start (Registers ext agentId name labels) history)

theorem Known.later {agentId name : String} {labels : List String} (label : Label)
    (known : Known ext settings admits start history agentId name labels) :
    Known ext settings admits start (label :: history) agentId name labels :=
  known.imp_right fun generated => ⟨generated.1, generated.2.later label⟩

variable (ext settings admits start) in
def Listed (history : List Label) (c : Config) : Prop :=
  ∀ agentId agent, c.state.db.agents.find agentId = some agent →
    ∃ labels, agent.labelsJson = ext.encodeStrings labels ∧
      Known ext settings admits start history agentId agent.name labels

section
variable (idle : ∀ slot, start.threads slot = enter ext settings .idle)
  (localLabels : ext.encodeStrings ["local"] = "[\"local\"]")
include idle localLabels

theorem step_listed (run : (system ext settings).Path admits start history c) (admitted : admits c label)
    (moved : step ext settings c label = some after) (listed : Listed ext settings admits start history c) :
    Listed ext settings admits start (label :: history) after := by
  intro agentId agent found
  have carried : ∀ old : Agent, c.state.db.agents.find agentId = some old → old.Keeps agent →
      ∃ labels, agent.labelsJson = ext.encodeStrings labels ∧
        Known ext settings admits start (label :: history) agentId agent.name labels := by
    intro old here kept
    obtain ⟨labels, json, known⟩ := listed agentId old here
    exact ⟨labels, kept.labels.symm.trans json, kept.name ▸ known.later label⟩
  rcases step_agents moved with same | ⟨slot, choice, change, affected, rfl, next, applied⟩ |
    ⟨hostname, affected, rfl, applied⟩
  · exact carried agent (by rw [← same, found]) ⟨rfl, rfl, rfl⟩
  · rcases apply_agents applied found with ⟨old, here, kept⟩ | ⟨hostname, hash, rfl, -⟩ | ⟨new, rfl, rfl, absent, rfl⟩
    · exact carried old here kept
    · exact absurd next (Tokens.not_registersLocal (reached_placed idle run.reaches))
    · obtain ⟨rest, code⟩ := pending_eq_some.mp next
      obtain ⟨memory, -, goes⟩ := (generating_valid.sound idle run.reaches).at code
      obtain ⟨generated, labels, json⟩ := (goes (.ok 0)).1 new rfl
      refine ⟨labels, json, .inr ⟨generated, run.happens admitted moved ?_⟩⟩
      exact ⟨slot, choice, new, rfl, next, rfl, rfl, json, absent, by rw [found]; simp⟩
  · rcases apply_agents applied found with ⟨old, here, kept⟩ | ⟨_, _, -, isLocal, -, rfl⟩ | ⟨_, impossible, -⟩
    · exact carried old here kept
    · exact ⟨["local"], localLabels.symm, .inl ⟨isLocal, rfl, rfl⟩⟩
    · cases impossible

theorem path_listed (empty : ∀ agentId, start.state.db.agents.find agentId = none)
    (run : (system ext settings).Path admits start history c) : Listed ext settings admits start history c := by
  induction run with
  | nil =>
    intro agentId agent found
    rw [empty] at found
    cases found
  | cons run admitted moved ih => exact step_listed idle localLabels run admitted moved ih

end

theorem known_unique {agentId name name' : String} {labels labels' : List String}
    (unique : NeverReused ext settings admits start history)
    (first : Known ext settings admits start history agentId name labels)
    (second : Known ext settings admits start history agentId name' labels') : name = name' ∧ labels = labels' := by
  rcases first with ⟨isLocal, rfl, rfl⟩ | ⟨generated, registered⟩ <;>
    rcases second with ⟨isLocal', rfl, rfl⟩ | ⟨generated', registered'⟩
  · exact ⟨rfl, rfl⟩
  · exact absurd isLocal generated'
  · exact absurd isLocal' generated
  · exact unique _ _ _ _ _ registered registered'

/-! ## What the scheduler sees -/

structure Sight where
  state : State
  known : String → String → List String → Prop
  unmatched : NodeTarget → Prop

def rely (before after : Sight) : Prop :=
  before.state.db.Keeps after.state.db ∧
    (∀ agentId name labels, before.known agentId name labels → after.known agentId name labels) ∧
    ∀ target, before.unmatched target → after.unmatched target

def Suits (s : Sight) (agentId : String) : Option NodeTarget → Prop
  | none => agentId = localAgentId
  | some target => ∃ name labels, s.known agentId name labels ∧ Accepts target name labels

def Chosen (ext : External) (s : Sight) (id : Nat) (agentId : String) : Prop :=
  ∃ row, ∃ target : Option NodeTarget, s.state.db.nodeRuns.find id = some row ∧
    row.targetJson = target.map ext.encodeTarget ∧ Suits s agentId target

structure Promise (ext : External) (point : Point) (op : Op) (s : Sight) : Prop where
  assigns : ∀ id agentId, op = .write (.updateNode id (.assign agentId)) → Chosen ext s id agentId
  fails : ∀ id exitCode retryCount, op = .write (.updateNode id
      (.status .failed (some "no matching agent available") exitCode retryCount)) →
    ∃ x newlyQueued node todo target, point = .pass x newlyQueued (node :: todo) ∧
      x.nodeIds.lookup node.id = some id ∧ node.target = some target ∧ s.unmatched target

def discipline (ext : External) (point : Point) : Discipline Sig Sight where
  exec op before reply after :=
    op.exec ext before.state reply after.state ∧ rely before after ∧
      (∀ agentId agent, before.state.db.agents.find agentId = some agent →
        ∃ labels, agent.labelsJson = ext.encodeStrings labels ∧ before.known agentId agent.name labels) ∧
      ∀ target : NodeTarget, op = .select (.onlineAgents target.agent) →
        (∀ agentId agent, before.state.db.agents.find agentId = some agent → agent.status = .online →
          ¬agent.Fits ext agentId (some target)) → after.unmatched target
  rely := rely
  guarantee op before _ := Promise ext point op before

theorem sees (point : Point) : Sees ext Sight.state (discipline ext point) where
  ran := fun _ _ _ _ ran => ran.1
  keeps := fun _ _ moved => moved.1

def Tame (op : Op) : Prop :=
  ∀ id change, op = .write (.updateNode id change) →
    (∀ agentId, change ≠ .assign agentId) ∧ ∀ reason exitCode retryCount, change ≠ .status .failed reason exitCode retryCount

theorem tame_quiet {op : Op} (quiet : Quiet op) : Tame op := fun id change same => absurd same (quiet id change)

theorem promise_tame {point : Point} {op : Op} (tame : Tame op) (s : Sight) : Promise ext point op s where
  assigns := fun id agentId same => absurd rfl ((tame id _ same).1 agentId)
  fails := fun id exitCode retryCount same => absurd rfl ((tame id _ same).2 _ exitCode retryCount)

section
variable {point : Point} {E A : Type} {s : Sight}

theorem holds_tame {ends : A → Prop} {program : Proc Sig E A} (within : program.Within Tame ends)
    (fact : Sight → Prop) (stays : ∀ before after, rely before after → fact before → fact after) (now : fact s) :
    program.Holds (discipline ext point) (fun value s => ends value ∧ fact s) (fun _ _ => True) s :=
  (within.holds (D := discipline ext point) stays (fun _ before _ after tame holds ran =>
    ⟨promise_tame tame before, stays before after ran.2.1 holds⟩) now).mono (fun _ _ ended => ended)
      fun _ _ _ => trivial

theorem holds_free {ends : A → Prop} {program : Proc Sig E A} (within : program.Within Tame ends) :
    program.Holds (discipline ext point) (fun value _ => ends value) (fun _ _ => True) s := by
  exact (holds_tame within (fun _ => True) (fun _ _ _ holds => holds) trivial).mono (fun _ _ ended => ended.1) fun _ _ _ => trivial

theorem describes_rely {runId id : Nat} {node : ResolvedNodeDefinition} (before after : Sight)
    (moved : rely before after) (described : before.state.db.Describes ext runId node id) :
    after.state.db.Describes ext runId node id := moved.1.describes described

theorem holds_assign {runId id : Nat} {node : ResolvedNodeDefinition} {agentId : String}
    (described : s.state.db.Describes ext runId node id) (suits : Suits s agentId node.target) :
    (do run (.updateNode id (.assign agentId)); return true : Proc Sig AnyError Bool).Holds (discipline ext point)
      (fun assigned _ => assigned = true) (fun _ _ => True) s := by
  refine (Proc.holds_bind _ _ _).mpr ((Proc.holds_bind _ _ _).mpr ?_)
  intro before moved reply after ran
  refine ⟨⟨fun other agent same => ?_, fun _ _ _ same => by cases same⟩, ?_⟩
  · cases same
    obtain ⟨row, found, target⟩ := (describes_rely s before moved described).target
    refine ⟨row, node.target, found, target, ?_⟩
    unfold Suits at suits ⊢
    split
    · rename_i bare
      simpa only [bare] using suits
    · rename_i target aimed
      simp only [aimed] at suits
      obtain ⟨name, labels, known, accepts⟩ := suits
      exact ⟨name, labels, moved.2.1 _ _ _ known, accepts⟩
  · cases reply with
    | ok result => exact rfl
    | error why => trivial

theorem mem_onlineAgents {db : Db} {wanted : Option String} {agents : List AgentRow}
    (member : agents ∈ (Select.onlineAgents wanted).answers db) (row : AgentRow) :
    row ∈ agents ↔ ∃ agent, db.agents.find row.agentId = some agent ∧ agent.status = .online ∧
      (∀ name, wanted = some name → agent.name = name) ∧ agent.name = row.name ∧ agent.labelsJson = row.labelsJson := by
  rw [(List.mem_permutations'.mp member).mem_iff, List.mem_map]
  constructor
  · rintro ⟨⟨agentId, agent⟩, inside, rfl⟩
    obtain ⟨inside, same⟩ := List.mem_filter.mp inside
    simp only [Bool.and_eq_true, decide_eq_true_eq, Option.all_eq_true] at same
    exact ⟨agent, Table.find_eq_some.mpr inside, same.1, same.2, rfl, rfl⟩
  · rintro ⟨agent, found, online, named, name, labels⟩
    refine ⟨(row.agentId, agent), List.mem_filter.mpr ⟨Table.find_eq_some.mp found, ?_⟩, by dsimp only; rw [name, labels]⟩
    simp only [Bool.and_eq_true, decide_eq_true_eq, Option.all_eq_true]
    exact ⟨online, named⟩

theorem agentMatches_iff (decodes : ∀ labels, ext.decodeStrings (ext.encodeStrings labels) = some labels)
    {target : NodeTarget} {row : AgentRow} {labels : List String} (json : row.labelsJson = ext.encodeStrings labels) :
    agentMatches ext target row = true ↔ ∀ label ∈ target.labels, label ∈ labels := by
  rw [agentMatches, json, decodes, Option.getD_some, List.all_eq_true]
  simp only [decide_eq_true_eq]

/-- `assign_to_agent` assigns an agent that suits the node, or none fitted. -/
theorem holds_assignToAgent (decodes : ∀ labels, ext.decodeStrings (ext.encodeStrings labels) = some labels)
    {runId id : Nat} {node : ResolvedNodeDefinition} (described : s.state.db.Describes ext runId node id) :
    (assignToAgent ext id node).Holds (discipline ext point)
      (fun assigned s => assigned = false → ∃ target, node.target = some target ∧ s.unmatched target)
      (fun _ _ => True) s := by
  have assigned : ∀ agentId s, s.state.db.Describes ext runId node id → Suits s agentId node.target →
      (do run (.updateNode id (.assign agentId)); return true : Proc Sig AnyError Bool).Holds (discipline ext point)
        (fun assigned s => assigned = false → ∃ target, node.target = some target ∧ s.unmatched target)
        (fun _ _ => True) s := by
    intro agentId s described suits
    refine (holds_assign described suits).mono ?_ fun _ _ _ => trivial
    rintro _ s rfl ⟨⟩
  unfold assignToAgent
  cases aimed : node.target with
  | none =>
    rw [aimed] at assigned
    exact assigned _ s described rfl
  | some target =>
    refine (Proc.holds_bind _ _ _).mpr ?_
    rintro before moved reply after ⟨ran, onward, listed, reads⟩
    refine ⟨promise_tame (tame_quiet (quiet_read rfl)) before, ?_⟩
    have described := describes_rely before after onward (describes_rely s before moved described)
    obtain ⟨same, ⟨why, rfl⟩ | ⟨agents, member, rfl⟩⟩ := exec_select ran
    · trivial
    have online := mem_onlineAgents member
    simp only [orHalt, Proc.holds_done]
    -- the first fit is assigned; if there is none, all agents that are online were read and refused
    cases chosen : agents.find? (agentMatches ext target) with
    | some row =>
      obtain ⟨agent, found, -, named, name, json⟩ := (online row).mp (List.mem_of_find?_eq_some chosen)
      obtain ⟨labels, encoded, known⟩ := listed row.agentId agent found
      rw [aimed] at assigned
      refine assigned row.agentId after described ⟨agent.name, labels, onward.2.1 _ _ _ known, ?_, ?_⟩
      · exact fun wanted asks => named wanted asks
      · exact (agentMatches_iff decodes (json.symm.trans encoded)).mp (List.find?_some chosen)
    | none =>
      rintro -
      refine ⟨target, rfl, reads target rfl ?_⟩
      rintro agentId agent found isOnline ⟨labels, encoded, named, accepted⟩
      have inside : (⟨agentId, agent.name, agent.labelsJson⟩ : AgentRow) ∈ agents :=
        (online _).mpr ⟨agent, found, isOnline, fun wanted asks => named wanted asks, rfl, rfl⟩
      have refused := List.find?_eq_none.mp chosen _ inside
      exact refused ((agentMatches_iff decodes encoded).mpr accepted)

/-! ## The scheduler's blocks -/

section
variable {x : Execution} {newlyQueued : List (String × Nat)} {node : ResolvedNodeDefinition}
  {todo : List ResolvedNodeDefinition}

theorem holds_startNode (decodes : ∀ labels, ext.decodeStrings (ext.encodeStrings labels) = some labels)
    (recorded : x.Recorded ext s.state.db) (member : node ∈ x.nodes) :
    (x.startNode ext newlyQueued node).Holds (discipline ext (.pass x newlyQueued (node :: todo)))
      (fun result _ => x.Visit newlyQueued node result.1 result.2) (fun _ _ => True) s := by
  obtain ⟨id, known, described⟩ := recorded node member
  refine (Proc.holds_bind _ _ _).mpr ?_
  unfold Execution.nodeRunId
  rw [known]
  show Proc.Holds _ _ _ (assignToAgent ext id node >>= _) s
  refine (Proc.holds_bind _ _ _).mpr ((holds_assignToAgent decodes described).mono ?_ fun _ _ _ => trivial)
  intro assigned s matched
  cases assigned with
  | true =>
    have within : (do
        updateNodeStatus x.run.id id .pending .queued none none none 0
        return (x, newlyQueued ++ [(node.id, id)]) : Proc Sig AnyError (Execution × List (String × Nat))).Within Tame
          fun result => x.Visit newlyQueued node result.1 result.2 := by
      refine ((within_run ?_).bind fun _ _ => within_run (tame_quiet (quiet_event _))).bind fun _ _ => .queue id known
      rintro other change same
      cases same
      exact ⟨fun _ same => by (cases same), fun _ _ _ same => by cases same⟩
    exact holds_free within
  | false =>
    obtain ⟨target, aimed, unmatched⟩ := matched rfl
    refine (Proc.holds_bind _ _ _).mpr ((Proc.holds_bind _ _ _).mpr ((Proc.holds_bind _ _ _).mpr ?_))
    intro before moved reply after ran
    refine ⟨⟨fun _ _ same => by (cases same), fun other exitCode retryCount same => ?_⟩, ?_⟩
    · cases same
      exact ⟨x, newlyQueued, node, todo, target, rfl, known, aimed, moved.2.2 target unmatched⟩
    · cases reply with
      | error why => trivial
      | ok result =>
        have within : (insertNodeEvent x.run.id id .pending .failed (some "no matching agent available") :
            Proc Sig AnyError Unit).Within Tame fun _ => True := within_run (tame_quiet (quiet_event _))
        exact (holds_free within).mono (fun _ _ _ => .fail) fun _ _ _ => trivial

theorem holds_scheduleNode (decodes : ∀ labels, ext.decodeStrings (ext.encodeStrings labels) = some labels)
    (recorded : x.Recorded ext s.state.db) (member : node ∈ x.nodes) :
    (x.scheduleNode ext newlyQueued node).Holds (discipline ext (.pass x newlyQueued (node :: todo)))
      (fun result _ => x.Visit newlyQueued node result.1 result.2) (fun _ _ => True) s := by
  have skip : ∀ reason, (x.markNodeSkipped node reason >>= fun x => pure (x, newlyQueued)).Holds
      (discipline ext (.pass x newlyQueued (node :: todo)))
      (fun result _ => x.Visit newlyQueued node result.1 result.2) (fun _ _ => True) s := by
    intro reason
    have within : (x.markNodeSkipped node reason >>= fun x => pure (x, newlyQueued)).Within Tame
        fun result => x.Visit newlyQueued node result.1 result.2 := by
      refine (x.within_markNodeSkipped (fun op minor => tame_quiet (quiet_minor minor)) node reason
        fun id other change same => ?_).bind ?_
      · cases same
        exact ⟨fun _ same => by (cases same), fun _ _ _ same => by cases same⟩
      · rintro _ rfl
        exact .skip
    exact holds_free within
  unfold Execution.scheduleNode
  split
  · exact .keep
  · split
    · exact skip _
    · split
      · exact .keep
      · split
        · exact skip _
        · split
          · exact skip _
          · exact holds_startNode decodes recorded member

end

def assertion (ext : External) (point : Point) (s : Sight) : Prop :=
  Slot.scheduler.hosts point = true ∧ point.Recorded ext s.state.db

theorem recorded_rely {next : Point} (before after : Sight) (moved : rely before after)
    (holds : assertion ext next before) : assertion ext next after := ⟨holds.1, holds.2.keeps moved.1⟩

theorem holds_failed {runId : Nat} (reason : String) :
    (failRunBeforeStart runId reason).Holds (discipline ext point) (fun _ => assertion ext .schedulerTick)
      (fun _ => assertion ext .schedulerTick) s := by
  have within : (failRunBeforeStart runId reason).Within Tame fun _ => True :=
    (within_run (tame_quiet (quiet_updateJob _ _))).bind fun _ _ => within_run (tame_quiet (quiet_event _))
  have stays : ∀ before after : Sight, rely before after → True → True := fun _ _ _ holds => holds
  exact (within.holds (D := discipline ext point) stays (fun _ before _ _ tame _ _ =>
    ⟨promise_tame tame before, trivial⟩) trivial).mono (fun _ _ _ => ⟨rfl, trivial⟩) fun _ _ _ => ⟨rfl, trivial⟩

theorem holds_plain (hosted : Slot.scheduler.hosts point = true) (recorded : point.Recorded ext s.state.db)
    (unprepared : ∀ queued, point ≠ .executeRun queued) (unvisited : ∀ x newlyQueued todo, point ≠ .pass x newlyQueued todo) :
    (block ext settings point).Holds (discipline ext point) (assertion ext) (fun why _ => why.elim) s := by
  have within := (scheduler_within ext settings hosted).mono (fun op may => (?_ : Tame op)) fun _ follows => follows
  · refine (holds_tame within (fun s => point.Recorded ext s.state.db)
      (fun _ _ moved recorded => recorded.keeps moved.1) recorded).mono ?_ fun why => why.elim
    rintro next s ⟨follows, recorded⟩
    exact ⟨follows.1, recorded.follows (follows.2 rfl) unprepared⟩
  · rintro id change rfl
    have updates := Point.makes_updates may
    cases updates <;> first | exact absurd rfl (unvisited _ _ _) | cases hosted

theorem holds_block (decodes : ∀ labels, ext.decodeStrings (ext.encodeStrings labels) = some labels)
    (point : Point) (s : Sight) (holds : assertion ext point s) :
    (block ext settings point).Holds (discipline ext point) (assertion ext) (fun why _ => why.elim) s := by
  obtain ⟨hosted, recorded⟩ := holds
  cases point with
  | executeRun queued =>
    refine holds_recover (fun _ => True) (fun s reason _ => holds_failed reason) ((Proc.holds_bind _ _ _).mpr ?_)
    have inserts : ∀ node, Tame (.write (.insertNode (newNodeRun ext queued.id node))) :=
      fun node => tame_quiet fun _ _ same => by cases same
    have known : ∀ _ : ResolvedJobDefinition, (discipline ext (.executeRun queued)).Kept Unloading fun _ => True :=
      fun _ => .const True
    have shown : ∀ _ _ : String, (discipline ext (.executeRun queued)).Kept Unloading fun _ => True :=
      fun _ _ => .const True
    refine (Sees.holds_prepareRun (sees _) (fun op minor => tame_quiet (quiet_minor minor))
      (fun _ => tame_quiet (quiet_read rfl)) known
      (fun before _ _ _ => promise_tame (tame_quiet (quiet_minor rfl)) before)
      (fun _ op before _ _ tame _ _ _ => promise_tame tame before) (tame_quiet (quiet_updateJob _ _)) shown (fun _ _ _ _ _ _ _ _ _ => trivial) (fun _ _ _ _ => trivial)
      fun _ _ _ before _ _ _ _ node _ _ _ _ => promise_tame (inserts node) before).mono ?_ fun _ _ _ => trivial
    rintro x s ⟨definition, -, prepared⟩
    exact ⟨rfl, prepared.recorded⟩
  | pass x newlyQueued todo =>
    obtain ⟨rows, listed⟩ := recorded
    cases todo with
    | nil =>
      unfold block
      dsimp only
      split
      · exact ⟨rfl, rows⟩
      · exact ⟨rfl, rows⟩
    | cons node todo =>
      have member : node ∈ x.nodes := listed node List.mem_cons_self
      have rest : (Point.pass x newlyQueued (node :: todo)).Recorded ext s.state.db := ⟨rows, listed⟩
      refine holds_recover (fun _ => True) (fun s reason _ => holds_failed reason) ((Proc.holds_bind _ _ _).mpr ?_)
      have kept : (discipline ext (.pass x newlyQueued (node :: todo))).Kept (fun _ => True)
          fun s => (Point.pass x newlyQueued (node :: todo)).Recorded ext s.state.db :=
        (sees _).kept (fun db => (Point.pass x newlyQueued (node :: todo)).Recorded ext db)
          fun _ _ kept recorded => recorded.keeps kept
      refine ((holds_scheduleNode decodes rows member).frame kept rest).mono ?_ fun _ _ _ => trivial
      rintro ⟨x', newlyQueued'⟩ s ⟨visits, recorded⟩
      exact ⟨rfl, recorded.follows (.visit _ _ _ _ _ _ visits) fun _ same => by cases same⟩
  | _ => exact holds_plain hosted recorded (fun _ same => by cases same) fun _ _ _ same => by cases same

end

/-! ## Runs -/

variable (ext settings admits start) in
def glance (history : List Label) (c : Config) : Sight where
  state := c.state
  known := Known ext settings admits start history
  unmatched target := Unmatched ext settings admits start target history c

theorem glance_rely (admitted : admits c label) (moved : step ext settings c label = some after)
    (here : label ≠ .resume .scheduler) (up : ∀ hostname, label ≠ .boot hostname) :
    rely (glance ext settings admits start history c) (glance ext settings admits start (label :: history) after) :=
  ⟨step_keeps moved, fun _ _ _ known => known.later label, fun _ unmatched => unmatched.keep admitted moved here up⟩

def watch : Watch ext settings start admits .scheduler Sight where
  view := glance ext settings admits start
  discipline := discipline ext
  assertion := assertion ext

section
variable (idle : ∀ slot, start.threads slot = enter ext settings .idle)
  (noAgents : ∀ agentId, start.state.db.agents.find agentId = none)
  (localLabels : ext.encodeStrings ["local"] = "[\"local\"]")
  (decodes : ∀ labels, ext.decodeStrings (ext.encodeStrings labels) = some labels)
include idle noAgents localLabels decodes

theorem watch_valid : (watch : Watch ext settings start admits .scheduler Sight).Valid where
  refl := fun _ s => ⟨.refl _, fun _ _ _ known => known, fun _ unmatched => unmatched⟩
  blocks := fun point s holds => holds_block decodes point s holds
  runs := by
    intro history c choice after op rest reply run admitted moved next ran
    refine ⟨⟨choice, ran⟩, glance_rely admitted moved (by simp) (by simp),
      path_listed idle localLabels noAgents run, ?_⟩
    rintro target rfl unfit
    exact .read run admitted moved (pending_eq_some.mpr ⟨rest, next⟩) unfit
  resumes := fun _ _ _ _ _ _ moved _ holds => ⟨holds.1, holds.2.keeps (step_keeps moved)⟩
  suffers := by
    intro history c label after run admitted moved notExec entry other holds
    have order : ∀ point, (discipline ext point).Preorder := fun point =>
      ⟨fun _ => ⟨.refl _, fun _ _ _ known => known, fun _ unmatched => unmatched⟩, fun _ _ _ first second =>
        ⟨first.1.trans second.1, fun _ _ _ known => second.2.1 _ _ _ (first.2.1 _ _ _ known),
          fun _ unmatched => second.2.2 _ (first.2.2 _ unmatched)⟩⟩
    refine Thread.Holds.rely (order _) (fun _ _ _ moved holds => recorded_rely _ _ moved holds) holds
      (glance_rely admitted moved other ?_)
    rintro hostname rfl
    exact entry _ (.boot hostname _)
  enters := by
    intro history c label after point _ _ _ entry
    cases entry
    exact ⟨rfl, trivial⟩
  idle := ⟨rfl, trivial⟩

theorem promised (run : (system ext settings).Path admits start history c) {choice : Choice} {op : Op}
    (admitted : admits c (.exec .scheduler choice)) (moved : step ext settings c (.exec .scheduler choice) = some after)
    (next : c.pending .scheduler = some op) :
    Promise ext (c.threads .scheduler).point op (glance ext settings admits start history c) := by
  have valid : (watch : Watch ext settings start admits .scheduler Sight).Valid :=
    watch_valid idle noAgents localLabels decodes
  obtain ⟨op', rest, reply, code, next', ran, -⟩ := step_exec moved
  cases next.symm.trans next'
  exact valid.guaranteed (valid.sound (idle .scheduler) run) run admitted moved code ran

theorem path_suits (noRows : ∀ id, start.state.db.nodeRuns.find id = none)
    (run : (system ext settings).Path admits start history c) {id : Nat} {row : NodeRun} {agentId : String}
    (found : c.state.db.nodeRuns.find id = some row) (agent : row.assignedAgentId = some agentId) :
    ∃ target : Option NodeTarget, row.targetJson = target.map ext.encodeTarget ∧
      Suits (glance ext settings admits start history c) agentId target := by
  induction run generalizing id row agentId with
  | nil =>
    rw [noRows] at found
    cases found
  | @cons history before after label run admitted moved ih =>
    have carried : ∀ target, Suits (glance ext settings admits start history before) agentId target →
        Suits (glance ext settings admits start (label :: history) after) agentId target := by
      intro target suits
      cases target with
      | none => exact suits
      | some target =>
        obtain ⟨name, labels, known, accepts⟩ := suits
        exact ⟨name, labels, known.later label, accepts⟩
    cases old : before.state.db.nodeRuns.find id with
    | none =>
      obtain ⟨slot, choice, new, rfl, -, -, rfl⟩ := nodeStep_new moved old found
      cases agent
    | some row' =>
      obtain ⟨row'', found', changed⟩ := nodeStep moved old
      cases found.symm.trans found'
      cases changed with
      | same =>
        obtain ⟨target, recorded, suits⟩ := ih old agent
        exact ⟨target, recorded, carried target suits⟩
      | update slot choice change executed next =>
        -- only the scheduler assigns, and what it has seen of the agent stays true
        rw [change.apply_targetJson]
        cases assigns : change.assigns with
        | false =>
          rw [NodeChange.apply_agent assigns] at agent
          obtain ⟨target, recorded, suits⟩ := ih old agent
          exact ⟨target, recorded, carried target suits⟩
        | true =>
          cases change with
          | assign other =>
            obtain ⟨rfl, -⟩ := Assignment.assigned_fresh idle run admitted moved executed next
            subst executed
            cases show some other = some agentId from agent
            obtain ⟨row'', target, found'', recorded, suits⟩ :=
              (promised idle noAgents localLabels decodes run admitted moved next).assigns id _ rfl
            cases old.symm.trans found''
            exact ⟨target, recorded, carried target suits⟩
          | _ => cases assigns

end

end Matching

/-- Targets are respected when labels are decoded as they were encoded, and no
generated id names two agents. -/
theorem target_rules {ext : External} (settings : Settings) (files : String → Option String) (clock : Nat)
    (decodes : ∀ labels, ext.decodeStrings (ext.encodeStrings labels) = some labels)
    (localLabels : ext.encodeStrings ["local"] = "[\"local\"]")
    (injective : Function.Injective ext.encodeTarget) :
    TargetRules ext settings everything (Config.initial ext settings files clock) where
  recorded := by
    intro history c x run ended node member
    have idle := Config.initial_idle ext settings files clock
    have valid : (Matching.watch : Watch ext settings (Config.initial ext settings files clock) everything .scheduler
        Matching.Sight).Valid := Matching.watch_valid idle (fun _ => rfl) localLabels decodes
    obtain ⟨-, rows⟩ := (valid.sound (idle .scheduler) run).at_point (ended_eq_some.mp ended)
    obtain ⟨id, known, described⟩ := (show x.Recorded ext c.state.db from rows) node member
    obtain ⟨row, found, target⟩ := described.target
    exact ⟨id, row, known, found, target⟩
  target := by
    intro history c id row run found assigned
    obtain ⟨agentId, agent⟩ := Option.isSome_iff_exists.mp assigned
    obtain ⟨target, recorded, -⟩ := Matching.path_suits (Config.initial_idle ext settings files clock)
      (fun _ => rfl) localLabels decodes (fun _ => rfl) run found agent
    exact ⟨target, recorded⟩
  fits := by
    intro history c id row agentId agent target run unique found assigned present recorded
    have idle := Config.initial_idle ext settings files clock
    obtain ⟨target', recorded', suits⟩ :=
      Matching.path_suits idle (fun _ => rfl) localLabels decodes (fun _ => rfl) run found assigned
    have same : target' = target := Option.map_injective injective (recorded'.symm.trans recorded)
    subst same
    cases target' with
    | none => exact suits
    | some target =>
      obtain ⟨name, labels, known, accepts⟩ := suits
      obtain ⟨labels', json, known'⟩ := Matching.path_listed idle localLabels (fun _ => rfl) run agentId agent present
      obtain ⟨rfl, rfl⟩ := Matching.known_unique unique known known'
      exact ⟨labels, json, accepts⟩
  fixed := by
    intro c c' id row run rest found queued
    obtain ⟨history, path⟩ := run.path
    have idle := Config.initial_idle ext settings files clock
    have assigned := Assignment.path_queued idle (fun _ => rfl) path found queued
    obtain ⟨row', found', agent⟩ := Assignment.reaches_assigned idle path rest assigned
    obtain ⟨row'', found'', agent'⟩ := assigned
    cases found.symm.trans found''
    exact ⟨row', found', agent.trans agent'.symm⟩
  polled := by
    intro history before label after n id run admitted moved hands
    obtain ⟨headers, agentId, ⟨m, same, presents⟩, assigned⟩ :=
      Assignment.hands_belongs (Config.initial_idle ext settings files clock) run admitted moved hands
    cases same
    exact ⟨headers, agentId, presents, assigned⟩
  picked := fun history before label after id run admitted moved hands =>
    Assignment.hands_belongs (Config.initial_idle ext settings files clock) run admitted moved hands
  unmatched := fun history before choice after id exitCode retryCount run admitted moved next =>
    (Matching.promised (Config.initial_idle ext settings files clock) (fun _ => rfl) localLabels decodes run admitted
      moved next).fails id exitCode retryCount rfl

theorem target_rules_remote :
    TargetRules Sample.json Sample.settings everything (Config.initial Sample.json Sample.settings Sample.files 1000000) ∧
      ∃ c row, (system Sample.json Sample.settings).Reaches everything
          (Config.initial Sample.json Sample.settings Sample.files 1000000) c ∧
        c.state.db.nodeRuns.find 1 = some row ∧ row.status = .queued ∧
        row.assignedAgentId = some Sample.agentId ∧
        row.targetJson = some (Sample.json.encodeTarget ⟨none, ["test"]⟩) := by
  refine ⟨target_rules Sample.settings Sample.files 1000000 Sample.json_strings (by decide +kernel) Sample.json_target, ?_⟩
  have passed : (((system Sample.json Sample.settings).follow (fun _ _ => true)
      (Config.initial Sample.json Sample.settings Sample.files 1000000) Sample.remoteQueued).any fun c =>
        (c.state.db.nodeRuns.find 1).any fun row => row.status = .queued ∧
          row.assignedAgentId = some Sample.agentId ∧
          row.targetJson = some (Sample.json.encodeTarget ⟨none, ["test"]⟩)) = true := by decide +kernel
  obtain ⟨c, followed, passed⟩ := (Option.any_eq_true _ _).mp passed
  obtain ⟨row, found, passed⟩ := (Option.any_eq_true _ _).mp passed
  exact ⟨c, row, (system Sample.json Sample.settings).follow_reaches (fun _ _ _ => trivial) followed, found,
    of_decide_eq_true passed⟩

end PostJen.Server
