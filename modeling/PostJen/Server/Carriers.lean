import PostJen.Server.Exchange

/-! What can still report on a row that runs for an agent.

The process that has its task, the response that brings it the task, or the
report that it has sent. A step hands the row from one of them to the next
unless it loses it.
-/

set_option autoImplicit false

open PostJen.Foundations PostJen.Core

namespace PostJen.Server

inductive Carrier where
  | process (i : Nat)
  | answer (n : Nat)
  | report (n : Nat)

/-- The process still comes to a report on the row, or to another one if the report in flight fails. -/
inductive Client.Owes (server : Config) (id : Nat) (client : Client) : Prop where
  | works (ready : client.contact = .ready) (reports : Reports id client.code)
  | asks {op : AgentOp} {rest : op.Reply → Proc AgentSig Empty Unit} (next : client.code = .call op rest)
      (reports : ∀ reply, Reports id (rest reply))
  | broken {request : Request} {rest : AgentOp.Reply (.request request) → Proc AgentSig Empty Unit}
      (broken : client.contact = .broken) (next : client.code = .call (.request request) rest)
      (fails : ∀ why, Reports id (rest (.error why)))
  | repeats {n : Nat} {request : Request} {rest : AgentOp.Reply (.request request) → Proc AgentSig Empty Unit}
      (sent : client.contact = .sent n) (next : client.code = .call (.request request) rest)
      (fails : ∀ why, Reports id (rest (.error why))) (refused : ∀ why, Reports id (rest (.ok (.error why))))
      (writes : Writes id (server.threads (.request n)).code)

section
variable (ext : External) (settings : Settings)

def Config.Handing (c : Config) (n id : Nat) : Prop :=
  (∃ point, (c.threads (.request n)).code = .done point ∧ point.carries = some id) ∨
    ∃ task outputs, c.threads (.request n) = enter ext settings (.picked task outputs) ∧ task.nodeRunId = id

/-- The slot has a report by the agent on its row, which comes to its UPDATE unless something goes wrong. -/
structure Config.Landing (c : Config) (n id : Nat) (agentId hash : String) : Prop where
  called : ∃ headers payload token, (c.threads (.request n)).point = .received (.reportResult headers payload) ∧
    payload.nodeRunId = id ∧ bearer headers = some token ∧ ext.sha256Hex token = hash
  lands : (c.threads (.request n)).code.Holds (Reporting.landing ext id agentId hash) (fun _ _ => False)
    (fun why _ => why.elim) c.state

def Network.Carries (net : Network) (id : Nat) (agentId hash : String) : Carrier → Prop
  | .process i => ∃ client, net.clients i = some client ∧ ext.sha256Hex client.token = hash ∧ client.Owes net.server id
  | .answer n => net.server.Handing ext settings n id ∧
      ∃ i client, net.clients i = some client ∧ client.contact = .sent n ∧ ext.sha256Hex client.token = hash
  | .report n => net.server.Landing ext n id agentId hash

end

/-- The slot's request comes to nothing. -/
inductive Loss (n : Nat) : Label → Prop where
  | drop : Loss n (.drop n)
  | boot (hostname : String) : Loss n (.boot hostname)
  | fail (text : String) : Loss n (.exec (.request n) (.fail text))

inductive Network.Loses (net : Network) (id : Nat) (agentId hash : String) : NetLabel → Carrier → Prop where
  /-- The process does not repeat a report that it could not send. -/
  | unsent {i : Nat} {why : String} {client : Client} {headers : Headers} {payload : ReportResultRequest}
      {rest : AgentOp.Reply (.request (.reportResult headers payload)) → Proc AgentSig Empty Unit}
      (found : net.clients i = some client) (ready : client.contact = .ready)
      (next : client.code = .call (.request (.reportResult headers payload)) rest) (reports : payload.nodeRunId = id)
      (last : ¬Reports id (rest (.error why))) : Loses net id agentId hash (.fail i why) (.process i)
  | answer {n : Nat} {move : Label} (loss : Loss n move) : Loses net id agentId hash (.server move) (.answer n)
  | undelivered {i n : Nat} {why : String} {client : Client} (found : net.clients i = some client)
      (sent : client.contact = .sent n) : Loses net id agentId hash (.fail i why) (.answer n)
  | report {n : Nat} {move : Label} (loss : Loss n move) : Loses net id agentId hash (.server move) (.report n)
  /-- The server takes the token for that of another agent. -/
  | mistaken {n index : Nat} {other : String} (next : net.server.pending (.request n) = some (.select (.agentByToken hash)))
      (found : ((Select.agentByToken hash).answers net.server.state.db)[index]? = some (some other))
      (differs : other ≠ agentId) : Loses net id agentId hash (.server (.exec (.request n) (.answer index))) (.report n)

namespace Carrying

variable {ext : External} {settings : Settings} {complaint : String → String} {c c' : Config} {move : Label} {n id : Nat}

/-! ## A report that ends the row -/

theorem not_finishes (placed : c.Placed) {slot : Slot} {choice : Choice} {op : Op} {rest : op.Reply → Proc Sig Empty Point}
    {reply : op.Reply} (next : (c.threads slot).code = .call op rest)
    (ran : op.run ext choice c.state = some (reply, c'.state)) {agentId : String} (runs : c'.state.db.RunsFor id agentId) :
    ¬op.finishes id reply := by
  intro finishes
  cases op with
  | write write =>
    cases write with
    | updateNode other change =>
      cases change with
      | finish status exitCode reason =>
        rcases exec_updateNode ⟨choice, ran⟩ with ⟨⟨why, rfl⟩, -⟩ | ⟨rfl, updated⟩
        · exact finishes
        · cases show other = id from finishes
          obtain ⟨node, found, running, -⟩ := runs
          rw [updated, Serial.find_updateAt_self] at found
          obtain ⟨old, -, rfl⟩ := Option.map_eq_some_iff.mp found
          have updates := placed.updates (pending_eq_some.mpr ⟨rest, next⟩)
          clear next
          generalize (c.threads slot).point = point at updates
          cases updates with
          | finish task status exitCode reason reported =>
            cases show status = .running from running
            cases reported
          | report headers payload status exitCode reason reported =>
            cases show status = .running from running
            cases reported
      | _ => exact finishes
    | _ => exact finishes
  | _ => exact finishes

theorem writes_busy (writes : Writes id (c.threads (.request n)).code) :
    (c.threads (.request n)).code ≠ .done .idle := by
  intro idle
  rw [idle] at writes
  obtain ⟨_, ⟨⟩⟩ := writes

theorem writes_step (placed : c.Placed) (moved : step ext settings c move = some c')
    (kept : move ≠ .drop n) (up : ∀ hostname, move ≠ .boot hostname) {agentId : String}
    (runs : c'.state.db.RunsFor id agentId) (writes : Writes id (c.threads (.request n)).code) :
    Writes id (c'.threads (.request n)).code := by
  have stepped := Exchange.busy_step moved (writes_busy writes) kept up
  generalize c'.threads (.request n) = thread at stepped ⊢
  cases stepped with
  | same => exact writes
  | exec next ran =>
    rw [next] at writes
    exact (writes _).resolve_left (not_finishes placed next ran runs)
  | resume ended =>
    rw [ended] at writes
    obtain ⟨why, rfl⟩ := writes
    exact ⟨why, rfl⟩

/-! ## The process -/

theorem after_contact (client : Client) (move : Label) :
    (client.after move).contact = client.contact ∨ (client.after move).contact = .broken := by
  unfold Client.after
  split
  · split
    · exact .inr rfl
    · exact .inl rfl
  · split
    · exact .inr rfl
    · exact .inl rfl
  · exact .inl rfl

theorem owes_server {client : Client} (placed : c.Placed) (moved : step ext settings c move = some c')
    (kept : ∀ n, client.contact = .sent n → move ≠ .drop n) (up : ∀ hostname, move ≠ .boot hostname) {agentId : String}
    (runs : c'.state.db.RunsFor id agentId) (owes : client.Owes c id) : client.Owes c' id := by
  cases owes with
  | works ready reports => exact .works ready reports
  | asks next reports => exact .asks next reports
  | broken broken next fails => exact .broken broken next fails
  | repeats sent next fails refused writes =>
    exact .repeats sent next fails refused (writes_step placed moved (kept _ sent) up runs writes)

theorem owes_after {client : Client} (placed : c.Placed) (moved : step ext settings c move = some c') {agentId : String}
    (runs : c'.state.db.RunsFor id agentId) (owes : client.Owes c id) : (client.after move).Owes c' id := by
  have code := client.after_code move
  cases owes with
  | works ready reports => exact .works (Client.after_ready ready) (code ▸ reports)
  | asks next reports => exact .asks (code.trans next) reports
  | broken broken next fails =>
    have still : (client.after move).contact = .broken :=
      (after_contact client move).elim (fun same => same.trans broken) fun broken => broken
    exact .broken still (code.trans next) fails
  | repeats sent next fails refused writes =>
    rcases after_contact client move with same | broken
    · obtain ⟨-, kept, up⟩ := Client.after_sent.mp (same.trans sent)
      exact .repeats (same.trans sent) (code.trans next) fails refused (writes_step placed moved kept up runs writes)
    · exact .broken broken (code.trans next) fails

variable {net after : Network} {label : NetLabel} {hash agentId : String} {i : Nat} {client : Client}

theorem owes_observe {op : AgentOp} {rest : op.Reply → Proc AgentSig Empty Unit} {reply : op.Reply}
    (found : net.clients i = some client) (next : client.code = .call op rest) (acts : label.actor = some i)
    (seen : Seen net client label op reply) (kept : ¬net.Loses id agentId hash label (.process i))
    (owes : client.Owes net.server id) : (client.observe op rest reply).Owes c' id := by
  refine .works rfl ?_
  show Reports id (rest reply)
  cases owes with
  | works ready reports =>
    rw [next] at reports
    rcases reports reply with hits | reports
    · cases seen with
      | answer sent => cases ready.symm.trans sent
      | @fail j request why =>
        cases acts
        cases request with
        | reportResult headers payload =>
          by_contra last
          exact kept (.unsent found ready next hits last)
        | _ => exact hits.elim
      | _ => exact hits.elim
    · exact reports
  | asks next' reports =>
    cases next.symm.trans next'
    exact reports reply
  | broken broken next' fails =>
    cases seen with
    | answer sent => cases broken.symm.trans sent
    | fail =>
      cases next.symm.trans next'
      exact fails _
    | _ => cases next.symm.trans next'
  | repeats sent next' fails refused writes =>
    cases seen with
    | answer sent' ended =>
      cases next.symm.trans next'
      cases sent.symm.trans sent'
      rw [ended] at writes
      obtain ⟨why, ⟨⟩⟩ := writes
      exact refused why
    | fail =>
      cases next.symm.trans next'
      exact fails _
    | _ => cases next.symm.trans next'

/-- A process that owes a report still owes it after a step, or has sent it. -/
theorem process_step (placed : net.server.Placed) (exchanging : net.Exchanging)
    (stepped : net.Stepped ext settings complaint label after) (runs : after.server.state.db.RunsFor id agentId)
    (found : net.clients i = some client) (kept : ¬net.Loses id agentId hash label (.process i))
    (owes : client.Owes net.server id) :
    (∃ later, after.clients i = some later ∧ later.token = client.token ∧ later.Owes after.server id) ∨
      ∃ n headers payload rest, label = .send i n (.reportResult headers payload) ∧ payload.nodeRunId = id ∧
        client.code = .call (.request (.reportResult headers payload)) rest := by
  cases stepped with
  | @server move server alone moved =>
    refine .inl ⟨client.after move, ?_, client.after_token move, owes_after placed moved runs owes⟩
    show (net.clients i).map (fun client => client.after move) = _
    rw [found, Option.map_some]
  | @launch j token free =>
    have differs : i ≠ j := by
      rintro rfl
      cases found.symm.trans free
    exact .inl ⟨client, (Network.put_ne net _ differs).trans found, rfl, owes⟩
  | @turn j other found' ended =>
    have differs : i ≠ j := by
      rintro rfl
      cases found.symm.trans found'
      cases owes with
      | works ready reports =>
        rw [ended] at reports
        exact reports
      | asks next => cases ended.symm.trans next
      | broken broken next => cases ended.symm.trans next
      | repeats sent next => cases ended.symm.trans next
    exact .inl ⟨client, (Network.put_ne net _ differs).trans found, rfl, owes⟩
  | @send j n other request rest server found' asks ready moved =>
    by_cases same : i = j
    · subst same
      cases found.symm.trans found'
      -- the agent sends its report, or a request behind which the report still comes
      cases owes with
      | works _ reports =>
        rw [asks] at reports
        by_cases hits : ∃ headers payload, request = .reportResult headers payload ∧ payload.nodeRunId = id
        · obtain ⟨headers, payload, rfl, names⟩ := hits
          exact .inr ⟨n, headers, payload, rest, rfl, names, asks⟩
        · refine .inl ⟨_, Network.put_self _ _ _, rfl, .asks asks fun reply => (reports reply).resolve_left fun hit => hits ?_⟩
          cases request with
          | reportResult headers payload => exact ⟨headers, payload, rfl, hit⟩
          | _ => exact hit.elim
      | asks next reports => exact .inl ⟨_, Network.put_self _ _ _, rfl, .asks next reports⟩
      | broken broken => cases ready.symm.trans broken
      | repeats sent => cases ready.symm.trans sent
    · refine .inl ⟨client, (Network.put_ne _ _ same).trans found, rfl, ?_⟩
      exact owes_server placed moved (fun _ _ => by rintro ⟨⟩) (by rintro _ ⟨⟩) runs owes
  | @answer j n other request rest response server found' asks sent ended moved =>
    by_cases same : i = j
    · subst same
      cases found.symm.trans found'
      exact .inl ⟨_, Network.put_self _ _ _, rfl, owes_observe found asks rfl (.answer sent ended) kept owes⟩
    · refine .inl ⟨client, (Network.put_ne _ _ same).trans found, rfl, ?_⟩
      refine owes_server placed moved (fun m sent' => ?_) (by rintro _ ⟨⟩) runs owes
      rintro ⟨⟩
      exact same (exchanging.sole i j client other n found found' sent' sent)
  | @own label j other op rest reply acts quiet found' next seen =>
    by_cases same : i = j
    · subst same
      cases found.symm.trans found'
      exact .inl ⟨_, Network.put_self _ _ _, rfl, owes_observe found next acts seen kept owes⟩
    · exact .inl ⟨client, (Network.put_ne net _ same).trans found, rfl, owes⟩

/-! ## The response -/

theorem handing_busy (handing : c.Handing ext settings n id) : (c.threads (.request n)).code ≠ .done .idle := by
  intro idle
  rcases handing with ⟨point, ended, carries⟩ | ⟨task, outputs, picked, -⟩
  · cases ended.symm.trans idle
    cases carries
  · rw [picked] at idle
    cases idle

theorem handing_answered {task : Task} {outputs : List ResolvedNodeOutput} {choice : Choice} {op : Op}
    {rest : op.Reply → Proc Sig Empty Point} {reply : op.Reply} {s s' : State}
    (next : (enter ext settings (.picked task outputs)).code = .call op rest)
    (present : Present task.jobRunId task.nodeRunId s) (proper : ∀ text, choice ≠ .fail text)
    (ran : op.run ext choice s = some (reply, s')) :
    ∃ status, rest reply = .done (.responded (.ok ⟨status, .task task outputs⟩)) := by
  cases next
  obtain ⟨rfl, -⟩ := Parity.unfailing_write ⟨choice, proper, ran⟩ present.apply_event
  exact ⟨_, rfl⟩

theorem handing_step (placed : c.Placed) (moved : step ext settings c move = some c')
    (present : ∀ task outputs, (c.threads (.request n)).point = .picked task outputs →
      Present task.jobRunId task.nodeRunId c.state) (kept : ¬Loss n move) (handing : c.Handing ext settings n id) :
    c'.Handing ext settings n id := by
  have stepped := Exchange.busy_step moved (handing_busy handing) (fun same => kept (same ▸ .drop))
    fun hostname same => kept (same ▸ .boot hostname)
  unfold Config.Handing
  generalize c'.threads (.request n) = thread at stepped ⊢
  cases stepped with
  | same => exact handing
  | @exec choice op rest reply _ next ran =>
    rcases handing with ⟨point, ended, -⟩ | ⟨task, outputs, picked, rfl⟩
    · cases ended.symm.trans next
    · rw [picked] at next
      obtain ⟨status, answers⟩ := handing_answered next (present task outputs (by rw [picked]; rfl))
        (by rintro text rfl; exact kept (.fail text)) ran
      exact .inl ⟨_, answers, rfl⟩
  | @resume point _ ended =>
    rcases handing with ⟨point', ended', carries⟩ | ⟨task, outputs, picked, -⟩
    · cases ended.symm.trans ended'
      have hosted := (placed.follows ended).1
      cases point with
      | picked task outputs => exact .inr ⟨task, outputs, rfl, Option.some.inj carries⟩
      | responded response => exact .inl ⟨_, rfl, carries⟩
      | pickedLocal task => cases hosted
      | _ => cases carries
    · rw [picked] at ended
      cases ended

/-- A response with a task comes to the process that polled for it. -/
theorem answer_step (placed : net.server.Placed) (exchanging : net.Exchanging)
    (stepped : net.Stepped ext settings complaint label after)
    (present : ∀ task outputs, (net.server.threads (.request n)).point = .picked task outputs →
      Present task.jobRunId task.nodeRunId net.server.state) (kept : ¬net.Loses id agentId hash label (.answer n))
    (carries : net.Carries ext settings id agentId hash (.answer n)) :
    ∃ carrier, after.Carries ext settings id agentId hash carrier := by
  obtain ⟨handing, i, client, found, sent, owner⟩ := carries
  -- the response waits for its agent until that agent takes it
  cases stepped with
  | @server move server alone moved =>
    have spared : ¬Loss n move := fun loss => kept (.answer loss)
    refine ⟨.answer n, handing_step placed moved present spared handing, i, client.after move, ?_, ?_, ?_⟩
    · show (net.clients i).map (fun client => client.after move) = _
      rw [found, Option.map_some]
    · exact Client.after_sent.mpr ⟨sent, fun same => spared (same ▸ .drop), fun hostname same => spared (same ▸ .boot hostname)⟩
    · rw [client.after_token]
      exact owner
  | @launch j token free =>
    have differs : i ≠ j := by
      rintro rfl
      cases found.symm.trans free
    exact ⟨.answer n, handing, i, client, (Network.put_ne net _ differs).trans found, sent, owner⟩
  | @turn j other found' ended =>
    have differs : i ≠ j := by
      rintro rfl
      cases found.symm.trans found'
      obtain ⟨request, rest, next⟩ := exchanging.asks i client found (by rw [sent]; rintro ⟨⟩)
      cases ended.symm.trans next
    exact ⟨.answer n, handing, i, client, (Network.put_ne net _ differs).trans found, sent, owner⟩
  | @send j m other request rest server found' asks ready moved =>
    have differs : i ≠ j := by
      rintro rfl
      cases found.symm.trans found'
      cases ready.symm.trans sent
    exact ⟨.answer n, handing_step placed moved present (by rintro ⟨⟩) handing, i, client,
      (Network.put_ne _ _ differs).trans found, sent, owner⟩
  | @answer j m other request rest response server found' asks sent' ended moved =>
    by_cases same : i = j
    · -- The task arrives, and the agent goes on to work on it.
      subst same
      cases found.symm.trans found'
      cases sent.symm.trans sent'
      have polled := exchanging.served i client n request rest found sent asks
      rw [ended] at polled
      rcases handing with ⟨point, ended', carries⟩ | ⟨task, outputs, picked, -⟩
      · cases ended.symm.trans ended'
        obtain ⟨headers, rfl⟩ := polled.polled (by rw [carries]; rintro ⟨⟩)
        have sound := exchanging.sound i client found
        rw [asks] at sound
        refine ⟨.process i, _, Network.put_self _ _ _, owner, .works rfl ?_⟩
        rcases response with why | ⟨status, body⟩
        · cases carries
        · cases body with
          | task task outputs =>
            cases carries
            exact sound.1.2 status task outputs
          | _ => cases carries
      · rw [picked] at ended
        cases ended
    · refine ⟨.answer n, handing_step placed moved present ?_ handing, i, client, (Network.put_ne _ _ same).trans found,
        sent, owner⟩
      rintro ⟨⟩
      exact same (exchanging.sole i j client other n found found' sent sent')
  | @own label j other op rest reply acts quiet found' next seen =>
    by_cases same : i = j
    · subst same
      cases found.symm.trans found'
      obtain ⟨request, rest', next'⟩ := exchanging.asks i client found (by rw [sent]; rintro ⟨⟩)
      cases next.symm.trans next'
      cases seen with
      | answer => cases quiet
      | fail =>
        cases acts
        exact absurd (.undelivered found sent) kept
    · exact ⟨.answer n, handing, i, client, (Network.put_ne net _ same).trans found, sent, owner⟩

/-! ## The report -/

theorem landing_called (landing : c.Landing ext n id agentId hash) (point : Point) :
    (c.threads (.request n)).code ≠ .done point := by
  intro ended
  have lands := landing.lands
  rw [ended] at lands
  exact lands

theorem mistakes_run {op : Op} {choice : Choice} {reply : op.Reply} {s s' : State}
    (ran : op.run ext choice s = some (reply, s')) (mistakes : op.mistakes agentId hash reply) :
    ∃ index other, choice = .answer index ∧ op = .select (.agentByToken hash) ∧
      ((Select.agentByToken hash).answers s.db)[index]? = some (some other) ∧ other ≠ agentId := by
  cases op with
  | select query =>
    cases query with
    | agentByToken other =>
      rcases reply with why | found
      · exact mistakes.elim
      · cases found with
        | none => exact mistakes.elim
        | some found =>
          obtain ⟨rfl, differs⟩ := mistakes
          cases choice with
          | answer index =>
            simp only [Op.run] at ran
            split at ran
            · cases ran
            · obtain ⟨row, listed, same⟩ := Option.map_eq_some_iff.mp ran
              cases same
              exact ⟨index, found, rfl, rfl, listed, differs⟩
          | _ => cases ran
    | _ => exact mistakes.elim
  | _ => exact mistakes.elim

theorem landing_step (placed : c.Placed) (moved : step ext settings c move = some c')
    (runs : ∀ choice, move = .exec (.request n) choice → ∃ agent, c.state.db.RunsOn id agentId agent ∧ agent.tokenHash = hash)
    (later : c'.state.db.RunsFor id agentId) (kept : ¬Loss n move) (right : ∀ index other,
      move = .exec (.request n) (.answer index) → c.pending (.request n) = some (.select (.agentByToken hash)) →
      ((Select.agentByToken hash).answers c.state.db)[index]? = some (some other) → other = agentId)
    (landing : c.Landing ext n id agentId hash) : c'.Landing ext n id agentId hash := by
  have stepped := Exchange.busy_step moved (landing_called landing .idle) (fun same => kept (same ▸ .drop))
    fun hostname same => kept (same ▸ .boot hostname)
  obtain ⟨called, lands⟩ := landing
  have order : (Reporting.landing ext id agentId hash).Preorder := ⟨fun _ => trivial, fun _ _ _ _ _ => trivial⟩
  suffices both : (∃ headers payload token, (c'.threads (.request n)).point = .received (.reportResult headers payload) ∧
      payload.nodeRunId = id ∧ bearer headers = some token ∧ ext.sha256Hex token = hash) ∧
      (c'.threads (.request n)).code.Holds (Reporting.landing ext id agentId hash) (fun _ _ => False)
        (fun why _ => why.elim) c'.state from ⟨both.1, both.2⟩
  generalize c'.threads (.request n) = thread at stepped ⊢
  cases stepped with
  | same => exact ⟨called, lands.rely order (fun _ _ _ _ never => never) (fun why => why.elim) trivial⟩
  | @exec choice op rest reply _ next ran =>
    refine ⟨called, ?_⟩
    have known : ¬op.mistakes agentId hash reply := by
      intro mistakes
      obtain ⟨index, other, rfl, rfl, found, differs⟩ := mistakes_run ran mistakes
      exact differs (right index other rfl (pending_eq_some.mpr ⟨rest, next⟩) found)
    have proper : ∀ text, choice ≠ .fail text := by
      rintro text rfl
      exact kept (.fail text)
    rw [next] at lands
    exact (lands c.state trivial reply c'.state ⟨⟨choice, proper, ran⟩, runs choice rfl, known, not_finishes placed next ran later⟩).2
  | resume ended =>
    rw [ended] at lands
    exact lands.elim

theorem report_step (placed : net.server.Placed) (stepped : net.Stepped ext settings complaint label after)
    (runs : ∀ choice, label = .server (.exec (.request n) choice) →
      ∃ agent, net.server.state.db.RunsOn id agentId agent ∧ agent.tokenHash = hash)
    (later : after.server.state.db.RunsFor id agentId) (kept : ¬net.Loses id agentId hash label (.report n))
    (landing : net.server.Landing ext n id agentId hash) : after.server.Landing ext n id agentId hash := by
  cases stepped with
  | @server move server alone moved =>
    refine landing_step placed moved ?_ later (fun loss => kept (.report loss)) ?_ landing
    · rintro choice rfl
      exact runs choice rfl
    · rintro index other rfl next found
      by_contra differs
      exact kept (.mistaken next found differs)
  | @send j m other request rest server found asks ready moved =>
    exact landing_step placed moved (by rintro _ ⟨⟩) later (by rintro ⟨⟩) (by rintro _ _ ⟨⟩) landing
  | @answer j m other request rest response server found asks sent ended moved =>
    refine landing_step placed moved (by rintro _ ⟨⟩) later ?_ (by rintro _ _ ⟨⟩) landing
    rintro ⟨⟩
    exact landing_called landing _ ended
  | _ => exact landing

theorem received_landing {token : String} {payload : ReportResultRequest}
    (entered : c.threads (.request n) = enter ext settings (.received (.reportResult (bearerAuth token) payload)))
    (valid : (validStatus payload.status).isSome = true) :
    c.Landing ext n payload.nodeRunId agentId (ext.sha256Hex token) := by
  refine ⟨⟨_, payload, token, by rw [entered]; rfl, rfl, bearer_bearerAuth token, rfl⟩, ?_⟩
  rw [entered]
  exact Reporting.holds_landing c.state (bearer_bearerAuth token) valid

theorem sent_landing (exchanging : net.Exchanging) {headers : Headers} {payload : ReportResultRequest}
    {rest : AgentOp.Reply (.request (.reportResult headers payload)) → Proc AgentSig Empty Unit}
    (stepped : net.Stepped ext settings complaint (.send i n (.reportResult headers payload)) after)
    (found : net.clients i = some client) (next : client.code = .call (.request (.reportResult headers payload)) rest) :
    after.server.Landing ext n payload.nodeRunId agentId (ext.sha256Hex client.token) := by
  have sound := exchanging.sound i client found
  rw [next] at sound
  obtain ⟨rfl, valid⟩ := sound.1
  cases stepped with
  | @send _ _ other request rest' server found' asks ready moved =>
    cases step_moved moved with
    | receive free => exact received_landing (Config.put_self _ _ _) valid
  | own acts quiet => cases quiet

theorem carries_step (placed : net.server.Placed) (exchanging : net.Exchanging)
    (stepped : net.Stepped ext settings complaint label after)
    (present : ∀ n task outputs, (net.server.threads (.request n)).point = .picked task outputs →
      Present task.jobRunId task.nodeRunId net.server.state)
    {carrier : Carrier} (runs : ∀ n choice, carrier = .report n → label = .server (.exec (.request n) choice) →
      ∃ agent, net.server.state.db.RunsOn id agentId agent ∧ agent.tokenHash = hash)
    (later : after.server.state.db.RunsFor id agentId) (kept : ¬net.Loses id agentId hash label carrier)
    (carries : net.Carries ext settings id agentId hash carrier) :
    ∃ carrier, after.Carries ext settings id agentId hash carrier := by
  cases carrier with
  | process i =>
    obtain ⟨client, found, owner, owes⟩ := carries
    rcases process_step placed exchanging stepped later found kept owes with ⟨client', found', token, owes'⟩ |
      ⟨n, headers, payload, rest, rfl, rfl, next⟩
    · exact ⟨.process i, client', found', token ▸ owner, owes'⟩
    · exact ⟨.report n, owner ▸ sent_landing exchanging stepped found next⟩
  | answer n => exact answer_step placed exchanging stepped (present n) kept carries
  | report n => exact ⟨.report n, report_step placed stepped (fun choice => runs n choice rfl) later kept carries⟩

end Carrying

end PostJen.Server
