import PostJen.Foundations.Protocol
import PostJen.Server.Agent
import PostJen.Server.Steps

/-! The server and its agents as one system.

Every agent process runs `poll_loop`. A request reaches a free slot of the
server or is lost, and its response reaches the agent or is lost; the agent
that loses either sees an error and goes on. A process that was stopped takes
no more steps.
-/

set_option autoImplicit false

open PostJen.Foundations PostJen.Core

namespace PostJen.Server

deriving instance DecidableEq for StartRunRequest, WebhookPayload, Request

/-- The requests of `poll_loop`, which only agents send. -/
def Request.worker : Request → Bool
  | .pollTask _ | .reportResult _ _ | .reportLogs _ _ | .uploadArtifact _ _ => true
  | _ => false

/-- How far the request of an agent has come. -/
inductive Contact where
  | ready
  | sent (n : Nat)
  | broken
  deriving DecidableEq

structure Client where
  token : String
  code : Proc AgentSig Empty Unit
  contact : Contact
  /-- What the client has done in this turn of its loop. -/
  seen : List AgentSig.Event

structure Network where
  server : Config
  clients : Nat → Option Client

inductive NetLabel where
  | server (label : Label)
  | launch (i : Nat) (token : String)
  | turn (i : Nat)
  | send (i n : Nat) (request : Request)
  | answer (i n : Nat)
  | fail (i : Nat) (why : String)
  | child (i : Nat) (result : ChildResult)
  | size (i : Nat) (bytes : Option Nat)
  | contents (i : Nat) (reply : Except String String)

def NetLabel.label : NetLabel → Option Label
  | .server label => some label
  | .send _ n request => some (.receive n request)
  | .answer _ n => some (.drop n)
  | _ => none

def Label.alone : Label → Bool
  | .receive _ request => !request.worker
  | _ => true

namespace Client

/-- The connection of a client breaks when the server drops its request or stops. -/
def after (client : Client) : Label → Client
  | .drop n => if client.contact = .sent n then { client with contact := .broken } else client
  | .boot _ => match client.contact with
      | .sent _ => { client with contact := .broken }
      | _ => client
  | _ => client

def observe (client : Client) (op : AgentOp) (rest : op.Reply → Proc AgentSig Empty Unit) (reply : op.Reply) : Client where
  token := client.token
  code := rest reply
  contact := .ready
  seen := client.seen ++ [⟨op, reply⟩]

@[simp] theorem after_code (client : Client) (label : Label) : (client.after label).code = client.code := by
  unfold after
  split
  · split <;> rfl
  · split <;> rfl
  · rfl

@[simp] theorem after_token (client : Client) (label : Label) : (client.after label).token = client.token := by
  unfold after
  split
  · split <;> rfl
  · split <;> rfl
  · rfl

@[simp] theorem after_seen (client : Client) (label : Label) : (client.after label).seen = client.seen := by
  unfold after
  split
  · split <;> rfl
  · split <;> rfl
  · rfl

end Client

section
variable (ext : External) (settings : Settings) (complaint : String → String)

/-- A client at the start of a turn of its loop. -/
def Client.begin (token : String) : Client := ⟨token, AgentWorker.pollOnce ext complaint token, .ready, []⟩

namespace Network

def put (net : Network) (i : Nat) (client : Client) : Network :=
  { net with clients := Function.update net.clients i (some client) }

@[simp] theorem put_self (net : Network) (i : Nat) (client : Client) : (net.put i client).clients i = some client :=
  Function.update_self _ _ _

theorem put_ne (net : Network) {i j : Nat} (client : Client) (ne : j ≠ i) :
    (net.put i client).clients j = net.clients j := Function.update_of_ne ne _ _

def step (net : Network) : NetLabel → Option Network
  | .server label =>
      if label.alone then (Server.step ext settings net.server label).map fun server =>
        ⟨server, fun i => (net.clients i).map fun client => client.after label⟩
      else none
  | .launch i token =>
      match net.clients i with
      | none => some (net.put i (.begin ext complaint token))
      | some _ => none
  | .turn i => (net.clients i).bind fun client =>
      match client.code with
      | .done _ => some (net.put i (.begin ext complaint client.token))
      | _ => none
  | .send i n request => (net.clients i).bind fun client =>
      match client.code, client.contact with
      | .call (.request wanted) _, .ready =>
          if wanted = request then (Server.step ext settings net.server (.receive n request)).map fun server =>
            put ⟨server, net.clients⟩ i { client with contact := .sent n }
          else none
      | _, _ => none
  | .answer i n => (net.clients i).bind fun client =>
      match client.code, (net.server.threads (.request n)).code with
      | .call (.request request) rest, .done (.responded response) =>
          if client.contact = .sent n then (Server.step ext settings net.server (.drop n)).map fun server =>
            put ⟨server, net.clients⟩ i (client.observe (.request request) rest (.ok response))
          else none
      | _, _ => none
  | .fail i why => (net.clients i).bind fun client =>
      match client.code with
      | .call (.request request) rest => some (net.put i (client.observe (.request request) rest (.error why)))
      | _ => none
  | .child i result => (net.clients i).bind fun client =>
      match client.code with
      | .call (.process node) rest => some (net.put i (client.observe (.process node) rest result))
      | _ => none
  | .size i bytes => (net.clients i).bind fun client =>
      match client.code with
      | .call (.metadata path) rest => some (net.put i (client.observe (.metadata path) rest bytes))
      | _ => none
  | .contents i reply => (net.clients i).bind fun client =>
      match client.code with
      | .call (.readFile path) rest => some (net.put i (client.observe (.readFile path) rest reply))
      | _ => none

end Network

def network : Machine Network NetLabel := ⟨Network.step ext settings complaint⟩

def unrestricted (_ : Network) (_ : NetLabel) : Prop := True

def Network.initial (files : String → Option String) (clock : Nat) : Network :=
  ⟨Config.initial ext settings files clock, fun _ => none⟩

end

def served (history : List NetLabel) : List Label := history.filterMap NetLabel.label

/-! ## The steps -/

variable {ext : External} {settings : Settings} {complaint : String → String} {net after : Network} {label : NetLabel}

/-- A client's own step, by what it sees. -/
inductive Seen (net : Network) (client : Client) : NetLabel → (op : AgentOp) → op.Reply → Prop where
  | answer {i n : Nat} {request : Request} {response : Except ApiError Response} (sent : client.contact = .sent n)
      (ended : (net.server.threads (.request n)).code = .done (.responded response)) :
      Seen net client (.answer i n) (.request request) (.ok response)
  | fail {i : Nat} {request : Request} {why : String} : Seen net client (.fail i why) (.request request) (.error why)
  | child {i : Nat} {node : ResolvedNodeDefinition} {result : ChildResult} :
      Seen net client (.child i result) (.process node) result
  | size {i : Nat} {path : String} {bytes : Option Nat} : Seen net client (.size i bytes) (.metadata path) bytes
  | contents {i : Nat} {path : String} {reply : Except String String} :
      Seen net client (.contents i reply) (.readFile path) reply

def NetLabel.actor : NetLabel → Option Nat
  | .server _ => none
  | .launch i _ | .turn i | .send i _ _ | .answer i _ | .fail i _ | .child i _ | .size i _ | .contents i _ => some i

inductive Network.Stepped (ext : External) (settings : Settings) (complaint : String → String) (net : Network) :
    NetLabel → Network → Prop where
  | server {move : Label} {server : Config} (alone : move.alone = true)
      (stepped : Server.step ext settings net.server move = some server) :
      Stepped ext settings complaint net (.server move) ⟨server, fun i => (net.clients i).map fun client => client.after move⟩
  | launch {i : Nat} {token : String} (free : net.clients i = none) :
      Stepped ext settings complaint net (.launch i token) (net.put i (.begin ext complaint token))
  | turn {i : Nat} {client : Client} (found : net.clients i = some client) (ended : client.code = .done ()) :
      Stepped ext settings complaint net (.turn i) (net.put i (.begin ext complaint client.token))
  | send {i n : Nat} {client : Client} {request : Request} {rest : AgentOp.Reply (.request request) → Proc AgentSig Empty Unit}
      {server : Config} (found : net.clients i = some client) (asks : client.code = .call (.request request) rest)
      (ready : client.contact = .ready) (stepped : Server.step ext settings net.server (.receive n request) = some server) :
      Stepped ext settings complaint net (.send i n request)
        (Network.put ⟨server, net.clients⟩ i { client with contact := .sent n })
  | answer {i n : Nat} {client : Client} {request : Request}
      {rest : AgentOp.Reply (.request request) → Proc AgentSig Empty Unit} {response : Except ApiError Response}
      {server : Config} (found : net.clients i = some client) (asks : client.code = .call (.request request) rest)
      (sent : client.contact = .sent n) (ended : (net.server.threads (.request n)).code = .done (.responded response))
      (stepped : Server.step ext settings net.server (.drop n) = some server) :
      Stepped ext settings complaint net (.answer i n)
        (Network.put ⟨server, net.clients⟩ i (client.observe (.request request) rest (.ok response)))
  | own {label : NetLabel} {i : Nat} {client : Client} {op : AgentOp} {rest : op.Reply → Proc AgentSig Empty Unit}
      {reply : op.Reply} (acts : label.actor = some i) (quiet : label.label = none) (found : net.clients i = some client)
      (next : client.code = .call op rest) (seen : Seen net client label op reply) :
      Stepped ext settings complaint net label (net.put i (client.observe op rest reply))

theorem network_stepped (moved : net.step ext settings complaint label = some after) :
    net.Stepped ext settings complaint label after := by
  -- the guards of each step are what its case says
  cases label with
  | server move =>
    simp only [Network.step] at moved
    split at moved
    · rename_i alone
      obtain ⟨server, stepped, rfl⟩ := Option.map_eq_some_iff.mp moved
      exact .server alone stepped
    · cases moved
  | launch i token =>
    simp only [Network.step] at moved
    split at moved
    · rename_i free
      cases moved
      exact .launch free
    · cases moved
  | turn i =>
    obtain ⟨client, found, moved⟩ := Option.bind_eq_some_iff.mp moved
    split at moved
    · rename_i ended
      cases moved
      exact .turn found ended
    · cases moved
  | send i n request =>
    obtain ⟨client, found, moved⟩ := Option.bind_eq_some_iff.mp moved
    split at moved
    · rename_i wanted rest asks ready
      split at moved
      · rename_i same
        subst same
        obtain ⟨server, stepped, rfl⟩ := Option.map_eq_some_iff.mp moved
        exact .send found asks ready stepped
      · cases moved
    · cases moved
  | answer i n =>
    obtain ⟨client, found, moved⟩ := Option.bind_eq_some_iff.mp moved
    split at moved
    · rename_i request rest response asks ended
      split at moved
      · rename_i sent
        obtain ⟨server, stepped, rfl⟩ := Option.map_eq_some_iff.mp moved
        exact .answer found asks sent ended stepped
      · cases moved
    · cases moved
  | fail i why =>
    obtain ⟨client, found, moved⟩ := Option.bind_eq_some_iff.mp moved
    split at moved
    · rename_i rest asks
      cases moved
      exact .own rfl rfl found asks .fail
    · cases moved
  | child i result =>
    obtain ⟨client, found, moved⟩ := Option.bind_eq_some_iff.mp moved
    split at moved
    · rename_i rest asks
      cases moved
      exact .own rfl rfl found asks .child
    · cases moved
  | size i bytes =>
    obtain ⟨client, found, moved⟩ := Option.bind_eq_some_iff.mp moved
    split at moved
    · rename_i rest asks
      cases moved
      exact .own rfl rfl found asks .size
    · cases moved
  | contents i reply =>
    obtain ⟨client, found, moved⟩ := Option.bind_eq_some_iff.mp moved
    split at moved
    · rename_i rest asks
      cases moved
      exact .own rfl rfl found asks .contents
    · cases moved

/-- What happens to one client in a step of the network. -/
inductive ClientStep (ext : External) (complaint : String → String) (net : Network) (label : NetLabel) (i : Nat) :
    Option Client → Prop where
  | same (client : Option Client) (found : net.clients i = client)
      (other : ∀ n request, label ≠ .send i n request) : ClientStep ext complaint net label i client
  | server {client : Client} (found : net.clients i = some client) (move : Label) (moved : label = .server move) :
      ClientStep ext complaint net label i (some (client.after move))
  | begin (token : String) : ClientStep ext complaint net label i (some (.begin ext complaint token))
  | send {client : Client} (found : net.clients i = some client) (n : Nat) (request : Request)
      (rest : AgentOp.Reply (.request request) → Proc AgentSig Empty Unit)
      (asks : client.code = .call (.request request) rest) (ready : client.contact = .ready)
      (moved : label = .send i n request) :
      ClientStep ext complaint net label i (some { client with contact := .sent n })
  | observe {client : Client} (found : net.clients i = some client) (op : AgentOp)
      (rest : op.Reply → Proc AgentSig Empty Unit) (reply : op.Reply) (next : client.code = .call op rest)
      (seen : Seen net client label op reply) :
      ClientStep ext complaint net label i (some (client.observe op rest reply))

private theorem put_step {i : Nat} {client : Client} {server : Config}
    (acts : ClientStep ext complaint net label i (some client)) (other : ∀ j, j ≠ i → ∀ n request, label ≠ .send j n request)
    (j : Nat) : ClientStep ext complaint net label j ((Network.put ⟨server, net.clients⟩ i client).clients j) := by
  by_cases same : j = i
  · subst same
    rw [Network.put_self]
    exact acts
  · rw [Network.put_ne _ _ same]
    exact .same _ rfl (other j same)

theorem step_send {i n : Nat} {request : Request} (moved : net.step ext settings complaint (.send i n request) = some after) :
    ∃ client rest server, net.clients i = some client ∧ client.code = .call (.request request) rest ∧
      client.contact = .ready ∧ Server.step ext settings net.server (.receive n request) = some server ∧
      after = Network.put ⟨server, net.clients⟩ i { client with contact := .sent n } := by
  cases network_stepped moved with
  | send found asks ready stepped => exact ⟨_, _, _, found, asks, ready, stepped, rfl⟩
  | own _ quiet => cases quiet

structure Network.Moved (ext : External) (settings : Settings) (complaint : String → String) (net : Network)
    (label : NetLabel) (after : Network) : Prop where
  server : (∃ move, label.label = some move ∧ Server.step ext settings net.server move = some after.server) ∨
    label.label = none ∧ after.server = net.server
  alone : ∀ move, label = .server move → move.alone = true
  clients : ∀ i, ClientStep ext complaint net label i (after.clients i)

theorem network_moved (moved : net.step ext settings complaint label = some after) :
    net.Moved ext settings complaint label after := by
  cases network_stepped moved with
  | @server move server alone stepped =>
    refine ⟨.inl ⟨move, rfl, stepped⟩, by rintro _ ⟨⟩; exact alone, fun i => ?_⟩
    show ClientStep ext complaint net (.server move) i ((net.clients i).map fun client => client.after move)
    cases found : net.clients i with
    | none => exact .same none found fun _ _ => by simp
    | some client => exact .server found move rfl
  | launch => exact ⟨.inr ⟨rfl, rfl⟩, by rintro _ ⟨⟩, put_step (.begin _) fun _ _ _ _ => by simp⟩
  | turn => exact ⟨.inr ⟨rfl, rfl⟩, by rintro _ ⟨⟩, put_step (.begin _) fun _ _ _ _ => by simp⟩
  | @send i n client request rest server found asks ready stepped =>
    exact ⟨.inl ⟨_, rfl, stepped⟩, by rintro _ ⟨⟩, put_step (.send found n request rest asks ready rfl)
      fun j other _ _ => by simp [other.symm]⟩
  | @answer i n client request rest response server found asks sent ended stepped =>
    exact ⟨.inl ⟨_, rfl, stepped⟩, by rintro _ ⟨⟩, put_step (.observe found _ rest _ asks (.answer sent ended))
      fun _ _ _ _ => by simp⟩
  | @own label i client op rest reply acts quiet found next seen =>
    refine ⟨.inr ⟨quiet, rfl⟩, ?_, put_step (.observe found op rest reply next seen) ?_⟩
    · rintro move rfl
      cases quiet
    · rintro j - n request rfl
      cases quiet

theorem step_absent (moved : net.step ext settings complaint label = some after) {i : Nat} (other : label.actor ≠ some i)
    (absent : net.clients i = none) : after.clients i = none := by
  have differs : ∀ j, label.actor = some j → i ≠ j := by
    rintro j acts rfl
    exact other acts
  cases network_stepped moved with
  | @server move server alone stepped =>
    show (net.clients i).map (fun client => client.after move) = none
    rw [absent, Option.map_none]
  | launch | turn | send | answer => exact (Network.put_ne _ _ (differs _ rfl)).trans absent
  | own acts => exact (Network.put_ne _ _ (differs _ acts)).trans absent

theorem receives_worker (moved : net.Moved ext settings complaint label after) {n : Nat} {request : Request}
    (worker : request.worker = true) (receives : label.label = some (.receive n request)) :
    ∃ i, label = .send i n request := by
  cases label with
  | server move =>
    cases receives
    have alone := moved.alone _ rfl
    rw [Label.alone, worker] at alone
    cases alone
  | send i n' request' =>
    cases receives
    exact ⟨i, rfl⟩
  | _ => cases receives

/-- What the server does in a run of the network is a run of the server. -/
theorem network_admitted {start : Network} {admits : Network → NetLabel → Prop} {allowed : Config → Label → Prop}
    {history : List NetLabel} (allows : ∀ net label move, admits net label → label.label = some move → allowed net.server move)
    (run : (network ext settings complaint).Path admits start history net) :
    (system ext settings).Path allowed start.server (served history) net.server := by
  induction run with
  | nil => exact .nil
  | @cons history before after label run admitted moved ih =>
    rcases (network_moved moved).server with ⟨move, isMove, stepped⟩ | ⟨quiet, same⟩
    · rw [served, List.filterMap_cons_some isMove]
      exact ih.cons (allows before label move admitted isMove) stepped
    · rw [served, List.filterMap_cons_none quiet, same]
      exact ih

theorem network_served {start : Network} {admits : Network → NetLabel → Prop} {history : List NetLabel}
    (run : (network ext settings complaint).Path admits start history net) :
    (system ext settings).Path everything start.server (served history) net.server :=
  network_admitted (fun _ _ _ _ _ => trivial) run

/-! ## Requests -/

theorem respond_ends (body : Proc Sig ApiError Answer) :
    (respond body).Within (fun _ => True) fun next => ∀ request, next ≠ .received request := by
  refine (Proc.within_true body).attempt.bind fun outcome _ => ?_
  cases outcome with
  | error why => rintro request ⟨⟩
  | ok answer => cases answer <;> rintro request ⟨⟩

theorem never_received {start c : Config} {admits : Config → Label → Prop}
    (idle : ∀ slot, start.threads slot = enter ext settings .idle) (run : (system ext settings).Reaches admits start c)
    {n : Nat} {request : Request} : (c.threads (.request n)).code ≠ .done (.received request) := by
  intro ended
  have hosted := (reached_placed idle run (.request n)).1
  have within : (block ext settings (c.threads (.request n)).point).Within (fun _ => True)
      fun next => ∀ request, next ≠ .received request := by
    generalize (c.threads (.request n)).point = point at hosted
    cases point with
    | idle => rintro request ⟨⟩
    | responded response => rintro request ⟨⟩
    | received request => exact respond_ends _
    | picked task outputs => exact respond_ends _
    | _ => cases hosted
  have confined := reached_confined idle run (.request n) within
  rw [ended] at confined
  exact confined request rfl

end PostJen.Server
