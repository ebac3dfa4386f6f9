import PostJen.Server.Rules
import PostJen.Server.Sample

/-! Whom a bearer token authenticates.

Every row of `agents` was inserted with the hash of a token that was returned
for it, except for the row of the local agent: its hash is that of a text which
everybody knows.
-/

set_option autoImplicit false

open PostJen.Foundations PostJen.Core

namespace PostJen.Server

/-- A call of `register_agent` returns the agent and its token. -/
def Issues (agentId token : String) (before : Config) (label : Label) (after : Config) : Prop :=
  ∃ n choice new, label = .exec (.request n) choice ∧
    before.pending (.request n) = some (.write (.agents (.register new))) ∧ new.agentId = agentId ∧
    (after.threads (.request n)).code = .done (.responded (.ok ⟨201, .agent agentId token⟩))

section
variable (ext : External) (settings : Settings) (admits : Config → Label → Prop) (start : Config)

/-- The token was returned for the agent, which has not been deleted since. -/
inductive Issued (agentId token : String) : List Label → Config → Prop where
  | issue {history : List Label} {before after : Config} {label : Label}
      (run : (system ext settings).Path admits start history before) (admitted : admits before label)
      (moved : step ext settings before label = some after) (issues : Issues agentId token before label after) :
      Issued agentId token (label :: history) after
  | keep {history : List Label} {before after : Config} {label : Label}
      (issued : Issued agentId token history before) (admitted : admits before label)
      (moved : step ext settings before label = some after)
      (present : (after.state.db.agents.find agentId).isSome = true) :
      Issued agentId token (label :: history) after

/-- SHA-256 does not map the token to the hash of another text that the server
has stored. -/
def NoCollision (history : List Label) (token : String) : Prop :=
  ∀ text, (text = localAgentId ∨ ∃ agentId,
      (system ext settings).Happened admits start (Issues agentId text) history) →
    ext.sha256Hex text = ext.sha256Hex token → text = token

def Entitled (history : List Label) (c : Config) (token agentId : String) : Prop :=
  Issued ext settings admits start agentId token history c ∧
    ∃ agent, c.state.db.agents.find agentId = some agent ∧ agent.status = .online

def OnlyIssued : Prop :=
  ∀ history c headers token agentId s, (system ext settings).Path admits start history c →
    bearer headers = some token → NoCollision ext settings admits start history token →
    (authenticateAgent ext headers).Returns (fun op : Op => op.exec ext) c.state agentId s →
    Entitled ext settings admits start history c token agentId

end

namespace Tokens

variable {ext : External} {settings : Settings} {admits : Config → Label → Prop} {start c after : Config}
  {label : Label} {history : List Label} {agentId token : String}

/-! ## The code of `register_agent` -/

def Drawn : (op : Op) → op.Reply → Prop
  | .random count, reply => ∃ bytes : List (Fin 256), bytes.length = count ∧ reply = hexEncode bytes
  | _, _ => True

def registration (agentId token : String) : Except SqlError Nat → Except ApiError Response
  | .ok _ => .ok ⟨201, .agent agentId token⟩
  | .error why => .error (FromSql.fromSql why)

def Issuing (ext : External) : (op : Op) → (op.Reply → Proc Sig Empty Point) → Prop
  | .write (.agents (.register new)), rest => ∃ bytes : List (Fin 256), bytes.length = 32 ∧
      new.tokenHash = ext.sha256Hex (hexEncode bytes) ∧
      ∀ reply, rest reply = .done (.responded (registration new.agentId (hexEncode bytes) reply))
  | _, _ => True

theorem issuing_of_ne {op : Op} (other : ∀ new, op ≠ .write (.agents (.register new)))
    (rest : op.Reply → Proc Sig Empty Point) : Issuing ext op rest := by
  unfold Issuing
  split
  · exact absurd rfl (other _)
  · trivial

theorem drawn_run {op : Op} {choice : Choice} {s s' : State} {reply : op.Reply}
    (ran : op.run ext choice s = some (reply, s')) : Drawn op reply := by
  cases op with
  | random count =>
    cases choice with
    | bytes values =>
      simp only [Op.run] at ran
      split at ran
      · rename_i length
        cases ran
        exact ⟨values, length, rfl⟩
      · cases ran
    | _ => cases ran
  | _ => trivial

section
-- Reducing a comparison with the trimmed name would unfold the encoding of strings.
attribute [local irreducible] trim

theorem registerAgent_each (name hostname : String) (labels : Option (List String)) :
    (block ext settings (.received (.registerAgent name hostname labels))).Each Drawn (Issuing ext) := by
  show (respond (registerAgent ext name hostname labels)).Each Drawn (Issuing ext)
  unfold registerAgent
  dsimp only
  split
  · trivial
  · refine ⟨trivial, fun id _ => ⟨trivial, fun token drawn => ⟨?_, fun reply _ => ?_⟩⟩⟩
    · obtain ⟨bytes, length, rfl⟩ := drawn
      refine ⟨bytes, length, rfl, fun reply => ?_⟩
      cases reply <;> rfl
    · cases reply <;> trivial

theorem block_each {slot : Slot} {point : Point} (hosted : slot.hosts point = true) :
    (block ext settings point).Each Drawn (Issuing ext) := by
  by_cases registers : ∃ name hostname labels, point = .received (.registerAgent name hostname labels)
  · obtain ⟨name, hostname, labels, rfl⟩ := registers
    exact registerAgent_each name hostname labels
  · refine (block_within ext settings hosted).each fun op rest may => issuing_of_ne ?_ rest
    rintro new rfl
    cases point with
    | received request =>
      cases request with
      | registerAgent name hostname labels => exact registers ⟨name, hostname, labels, rfl⟩
      | _ => cases may
    | _ => cases may

end

theorem enter_each {slot : Slot} {point : Point} (hosted : slot.hosts point = true) :
    (enter ext settings point).code.Each Drawn (Issuing ext) := block_each hosted

def Ready (ext : External) (c : Config) : Prop :=
  ∀ slot, (c.threads slot).code.Each Drawn (Issuing ext)

theorem ready_put {state : State} (ready : Ready ext c) {slot : Slot} {thread : Thread Sig Point}
    (here : thread.code.Each Drawn (Issuing ext)) : Ready ext (Config.put ⟨state, c.threads⟩ slot thread) := by
  intro other
  by_cases same : other = slot
  · subst same
    rw [Config.put_self]
    exact here
  · rw [Config.put_ne _ _ same]
    exact ready other

theorem ready_step (placed : c.Placed) (ready : Ready ext c) (moved : Moved ext settings c label after) :
    Ready ext after := by
  cases moved with
  | @exec slot choice op rest reply state next ran =>
    have here := ready slot
    rw [next] at here
    exact ready_put ready (here.2 reply (drawn_run ran))
  | @resume slot point ended => exact ready_put ready (enter_each (placed.follows ended).1)
  | @spawn n task picked free =>
    have tick : Slot.localWorker.hosts .workerTick = true := rfl
    have working : (Slot.localTask n).hosts (.localTask task) = true := rfl
    exact ready_put (ready_put ready (enter_each tick)) (enter_each working)
  | @receive n request free =>
    have hosted : (Slot.request n).hosts (.received request) = true := rfl
    exact ready_put ready (enter_each hosted)
  | drop n => exact ready_put ready (enter_each (Slot.request n).hosts_idle)
  | clock now => exact ready
  | edit path contents => exact ready
  | boot registered =>
    intro slot
    have home : slot.hosts slot.home = true := by cases slot <;> rfl
    exact enter_each home

theorem reached_ready (idle : ∀ slot, start.threads slot = enter ext settings .idle)
    (reached : (system ext settings).Reaches admits start c) : Ready ext c := by
  have first : start.Placed ∧ Ready ext start := by
    refine ⟨fun slot => by rw [idle]; exact enter_placed slot.hosts_idle, fun slot => ?_⟩
    rw [idle]
    exact enter_each slot.hosts_idle
  refine (reached.invariant (fun c => c.Placed ∧ Ready ext c) first ?_).2
  rintro before label after ⟨placed, ready⟩ _ moved
  exact ⟨placed_step placed (step_moved moved), ready_step placed ready (step_moved moved)⟩

/-! ## The rows of `agents` -/

variable (ext settings admits start) in
/-- Every row is the local agent's own or was inserted with an issued token. -/
def Accounted (history : List Label) (c : Config) : Prop :=
  ∀ agentId agent, c.state.db.agents.find agentId = some agent →
    (agentId = localAgentId ∧ agent.tokenHash = ext.sha256Hex localAgentId) ∨
      ∃ bytes : List (Fin 256), bytes.length = 32 ∧ agent.tokenHash = ext.sha256Hex (hexEncode bytes) ∧
        Issued ext settings admits start agentId (hexEncode bytes) history c

theorem registers {slot : Slot} {new : NewAgent} (placed : c.Placed)
    (next : c.pending slot = some (.write (.agents (.register new)))) : ∃ n, slot = .request n := by
  have hosted := (placed slot).1
  have may := placed.pending next
  generalize (c.threads slot).point = point at hosted may
  cases point with
  | received request =>
    cases slot with
    | request n => exact ⟨n, rfl⟩
    | _ => cases hosted
  | _ => cases may

theorem not_registersLocal {slot : Slot} {hostname hash : String} (placed : c.Placed) :
    c.pending slot ≠ some (.write (.agents (.registerLocal hostname hash))) := by
  intro next
  have may := placed.pending next
  generalize (c.threads slot).point = point at may
  cases point with
  | received request => cases request <;> cases may
  | _ => cases may

theorem issues (placed : c.Placed) (ready : Ready ext c) {slot : Slot} {choice : Choice} {new : NewAgent}
    (next : c.pending slot = some (.write (.agents (.register new))))
    (moved : step ext settings c (.exec slot choice) = some after)
    (inserted : after.state.db.agents.find new.agentId ≠ c.state.db.agents.find new.agentId) :
    ∃ bytes : List (Fin 256), bytes.length = 32 ∧ new.tokenHash = ext.sha256Hex (hexEncode bytes) ∧
      Issues new.agentId (hexEncode bytes) c (.exec slot choice) after := by
  obtain ⟨n, rfl⟩ := registers placed next
  obtain ⟨op, rest, reply, code, next', ran, threads⟩ := step_exec moved
  cases next.symm.trans next'
  have here := ready (.request n)
  rw [code] at here
  obtain ⟨bytes, length, hash, answers⟩ := here.1
  refine ⟨bytes, length, hash, n, choice, new, rfl, next, rfl, ?_⟩
  rcases exec_write ⟨choice, ran⟩ with ⟨-, same⟩ | ⟨result, db, -, rfl, -⟩
  · exact absurd (by rw [same]) inserted
  · rw [threads, Config.put_self]
    exact answers (.ok result)

theorem issues_bytes (ready : Ready ext c) (moved : step ext settings c label = some after)
    (issues : Issues agentId token c label after) :
    ∃ bytes : List (Fin 256), bytes.length = 32 ∧ token = hexEncode bytes := by
  obtain ⟨n, choice, new, rfl, next, -, responded⟩ := issues
  obtain ⟨op, rest, reply, code, next', ran, threads⟩ := step_exec moved
  cases next.symm.trans next'
  have here := ready (.request n)
  rw [code] at here
  obtain ⟨bytes, length, -, answers⟩ := here.1
  rw [threads, Config.put_self, answers reply] at responded
  refine ⟨bytes, length, ?_⟩
  cases reply with
  | ok result =>
    cases responded
    rfl
  | error why => cases responded

theorem carried (accounted : Accounted ext settings admits start history c)
    (admitted : admits c label) (moved : step ext settings c label = some after) {old agent : Agent}
    (found : c.state.db.agents.find agentId = some old)
    (later : after.state.db.agents.find agentId = some agent) (same : old.tokenHash = agent.tokenHash) :
    (agentId = localAgentId ∧ agent.tokenHash = ext.sha256Hex localAgentId) ∨
      ∃ bytes : List (Fin 256), bytes.length = 32 ∧ agent.tokenHash = ext.sha256Hex (hexEncode bytes) ∧
        Issued ext settings admits start agentId (hexEncode bytes) (label :: history) after := by
  rw [← same]
  rcases accounted agentId old found with isLocal | ⟨bytes, length, hash, issued⟩
  · exact .inl isLocal
  · exact .inr ⟨bytes, length, hash, .keep issued admitted moved (by rw [later]; rfl)⟩

theorem accounted_step (run : (system ext settings).Path admits start history c) (placed : c.Placed)
    (ready : Ready ext c) (accounted : Accounted ext settings admits start history c)
    (admitted : admits c label) (moved : step ext settings c label = some after) :
    Accounted ext settings admits start (label :: history) after := by
  intro agentId agent found
  by_cases same : after.state.db.agents.find agentId = c.state.db.agents.find agentId
  · exact carried accounted admitted moved (same.symm.trans found) found rfl
  rcases step_agents moved with same' | ⟨slot, choice, change, affected, rfl, next, applied⟩ |
    ⟨hostname, affected, rfl, applied⟩
  · exact absurd (by rw [same']) same
  · rcases apply_agents applied found with ⟨old, here, kept⟩ | ⟨hostname, hash, rfl, -⟩ | ⟨new, rfl, rfl, -, rfl⟩
    · exact carried accounted admitted moved here found kept.token
    · exact absurd next (not_registersLocal placed)
    · obtain ⟨bytes, length, hash, now⟩ := issues placed ready next moved same
      exact .inr ⟨bytes, length, hash, .issue run admitted moved now⟩
  · rcases apply_agents applied found with ⟨old, here, kept⟩ | ⟨_, _, same, isLocal, -, rfl⟩ | ⟨_, impossible, -⟩
    · exact carried accounted admitted moved here found kept.token
    · exact .inl ⟨isLocal, (AgentWrite.registerLocal.inj same).2.symm⟩
    · cases impossible

theorem path_accounted (idle : ∀ slot, start.threads slot = enter ext settings .idle)
    (empty : start.state.db.agents = .empty) (run : (system ext settings).Path admits start history c) :
    Accounted ext settings admits start history c := by
  induction run with
  | nil =>
    intro agentId agent found
    rw [empty] at found
    cases found
  | cons run admitted moved ih =>
    exact accounted_step run (reached_placed idle run.reaches) (reached_ready idle run.reaches) ih admitted moved

theorem issued_happened (issued : Issued ext settings admits start agentId token history c) :
    (system ext settings).Happened admits start (Issues agentId token) history := by
  induction issued with
  | issue run admitted moved issues => exact run.happens admitted moved issues
  | keep _ _ _ _ ih => exact ih.later _

theorem authenticated {headers : Headers} {s s' : State} (named : bearer headers = some token)
    (returned : (authenticateAgent ext headers).Returns (fun op : Op => op.exec ext) s agentId s') :
    ∃ agent, s.db.agents.find agentId = some agent ∧ agent.tokenHash = ext.sha256Hex token ∧
      agent.status = .online := by
  unfold authenticateAgent at returned
  rw [named] at returned
  obtain ⟨reply, middle, ran, ended⟩ := returned
  obtain ⟨-, ⟨why, rfl⟩ | ⟨row, member, rfl⟩⟩ := exec_select ran
  · exact ended.elim
  · cases row with
    | none => exact ended.elim
    | some found =>
      obtain ⟨rfl, -⟩ := ended
      obtain ⟨⟨id, agent⟩, inside, rfl⟩ := List.mem_map.mp (mem_anyOne member)
      obtain ⟨inside, kept⟩ := List.mem_filter.mp inside
      simp only [Bool.and_eq_true, decide_eq_true_eq] at kept
      exact ⟨agent, Table.find_eq_some.mpr inside, kept⟩

theorem issued_ne_local (idle : ∀ slot, start.threads slot = enter ext settings .idle)
    (issued : Issued ext settings admits start agentId token history c) : token ≠ localAgentId := by
  rintro same
  obtain ⟨bytes, length, rfl⟩ : ∃ bytes : List (Fin 256), bytes.length = 32 ∧ token = hexEncode bytes := by
    induction issued with
    | issue run _ moved issues => exact issues_bytes (reached_ready idle run.reaches) moved issues
    | keep _ _ _ _ ih => exact ih
  have lengths := hexEncode_length bytes
  rw [same, length] at lengths
  exact absurd lengths (by decide)

end Tokens

/-- A token that authenticates was issued to the agent, unless it is the text
that the local agent is inserted with. -/
theorem only_issued {ext : External} {settings : Settings} {files : String → Option String} {clock : Nat}
    {history : List Label} {c : Config} {headers : Headers} {token agentId : String} {s : State}
    (run : (system ext settings).Path everything (Config.initial ext settings files clock) history c)
    (named : bearer headers = some token)
    (free : NoCollision ext settings everything (Config.initial ext settings files clock) history token)
    (returned : (authenticateAgent ext headers).Returns (fun op : Op => op.exec ext) c.state agentId s) :
    Entitled ext settings everything (Config.initial ext settings files clock) history c token agentId ↔
      token ≠ localAgentId := by
  have idle := Config.initial_idle ext settings files clock
  obtain ⟨agent, found, hash, online⟩ := Tokens.authenticated named returned
  constructor
  · exact fun entitled => Tokens.issued_ne_local idle entitled.1
  · intro other
    rcases Tokens.path_accounted idle rfl run agentId agent found with ⟨-, known⟩ |
      ⟨bytes, length, known, issued⟩
    · exact absurd (free _ (.inl rfl) (known.symm.trans hash)).symm other
    · have same := free _ (.inr ⟨agentId, Tokens.issued_happened issued⟩) (known.symm.trans hash)
      rw [same] at issued
      exact ⟨issued, agent, found, online⟩

theorem authenticates {ext : External} {headers : Headers} {token agentId : String} {s : State}
    (named : bearer headers = some token)
    (first : ((Select.agentByToken (ext.sha256Hex token)).answers s.db).head? = some (some agentId)) :
    (authenticateAgent ext headers).Returns (fun op : Op => op.exec ext) s agentId s := by
  unfold authenticateAgent
  rw [named]
  refine ⟨.ok (some agentId), s, ⟨.answer 0, ?_⟩, rfl, rfl⟩
  simp only [Op.run]
  cases answers : (Select.agentByToken (ext.sha256Hex token)).answers s.db with
  | nil =>
    rw [answers] at first
    cases first
  | cons row rest =>
    rw [answers] at first
    cases first
    rfl

theorem Sample.sha256Hex_inj (text known : String) (listed : known = localAgentId ∨ known = Sample.token)
    (same : Sample.sha256Hex text = Sample.sha256Hex known) : text = known := by
  have digest : Sample.sha256Hex known ≠ Sample.sha256Hex Sample.forkYaml ∧
      Sample.sha256Hex known ≠ Sample.sha256Hex Sample.remoteYaml ∧
      (Sample.sha256Hex known = Sample.sha256Hex localAgentId → known = localAgentId) ∧
      (Sample.sha256Hex known = Sample.sha256Hex Sample.token → known = Sample.token) ∧
      (Sample.sha256Hex known).toList.head? ≠ some 's' := by
    rcases listed with rfl | rfl <;> decide +kernel
  obtain ⟨notFork, notRemote, isLocal, isToken, head⟩ := digest
  by_cases fork : text = Sample.forkYaml
  · exact absurd (fork ▸ same.symm) notFork
  by_cases remote : text = Sample.remoteYaml
  · exact absurd (remote ▸ same.symm) notRemote
  by_cases itself : text = localAgentId
  · rw [itself, isLocal (itself ▸ same.symm)]
  by_cases random : text = Sample.token
  · rw [random, isToken (random ▸ same.symm)]
  · rw [← same, Sample.sha256Hex, if_neg fork, if_neg remote, if_neg itself, if_neg random,
      String.toList_append] at head
    exact absurd rfl head

theorem Sample.noCollision {history : List Label} {known : String}
    (listed : known = localAgentId ∨ known = Sample.token) :
    NoCollision Sample.ext Sample.settings everything Sample.initial history known := by
  intro text _ same
  simp only [Sample.ext] at same
  exact Sample.sha256Hex_inj text known listed same

theorem only_issued_registered :
    ∃ history c, (system Sample.ext Sample.settings).Path everything Sample.initial history c ∧
      (Entitled Sample.ext Sample.settings everything Sample.initial history c Sample.token Sample.agentId ↔
        Sample.token ≠ localAgentId) := by
  have passed : (Sample.run (fun _ _ => true) (.boot "localhost" :: Sample.registered 0)).any (fun c =>
      ((Select.agentByToken (Sample.ext.sha256Hex Sample.token)).answers c.state.db).head? =
        some (some Sample.agentId)) = true := by decide +kernel
  obtain ⟨history, c, run, first⟩ := Sample.arrives_freely passed
  have named : bearer Sample.headers = some Sample.token := by decide +kernel
  exact ⟨history, c, run, only_issued run named (Sample.noCollision (.inr rfl))
    (authenticates named (by simpa using first))⟩

/-- Anybody can send the text that the local agent is inserted with. -/
theorem only_issued_local_agent : ¬OnlyIssued Sample.ext Sample.settings everything Sample.initial := by
  intro claim
  have passed : (Sample.run (fun _ _ => true) [.boot "localhost"]).any (fun c =>
      ((Select.agentByToken (Sample.ext.sha256Hex localAgentId)).answers c.state.db).head? =
        some (some localAgentId)) = true := by decide +kernel
  obtain ⟨history, c, run, first⟩ := Sample.arrives_freely passed
  have named : bearer ⟨some "Bearer local"⟩ = some localAgentId := by decide +kernel
  have entitled := claim history c ⟨some "Bearer local"⟩ localAgentId localAgentId c.state run named
    (Sample.noCollision (.inl rfl)) (authenticates named (by simpa using first))
  have idle := Config.initial_idle Sample.ext Sample.settings Sample.files 1000000
  exact Tokens.issued_ne_local idle entitled.1 rfl

end PostJen.Server
