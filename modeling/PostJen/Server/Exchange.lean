import PostJen.Server.Reporting
import PostJen.Server.Taking

/-! The exchange of an agent with a slot of the server.

An agent whose contact is a slot waits there for the answer to the request at
which it is suspended. No two agents wait for one slot, and only a poll comes
back with a task.
-/

set_option autoImplicit false

open PostJen.Foundations PostJen.Core

namespace PostJen.Server

/-- What the handling of a request can come to. -/
structure Request.Comes (request : Request) (point : Point) : Prop where
  answered : (∃ response, point = .responded response) ∨ ∃ task outputs, point = .picked task outputs
  polled : point.carries ≠ none → ∃ headers, request = .pollTask headers

structure Network.Exchanging (net : Network) : Prop where
  asks : ∀ i client, net.clients i = some client → client.contact ≠ .ready →
    ∃ request rest, client.code = .call (.request request) rest
  served : ∀ i client n request rest, net.clients i = some client → client.contact = .sent n →
    client.code = .call (.request request) rest →
    (net.server.threads (.request n)).code.Within (fun _ => True) request.Comes
  sole : ∀ i j client other n, net.clients i = some client → net.clients j = some other → client.contact = .sent n →
    other.contact = .sent n → i = j
  sound : ∀ i client, net.clients i = some client →
    client.code.Each (fun _ _ => True) (Reporting.Sound client.token)

inductive BusyStep (ext : External) (settings : Settings) (c : Config) (n : Nat) :
    Label → State → Thread Sig Point → Prop where
  | same {label : Label} {state : State} (other : ∀ choice, label ≠ .exec (.request n) choice) :
      BusyStep ext settings c n label state (c.threads (.request n))
  | exec {choice : Choice} {op : Op} {rest : op.Reply → Proc Sig Empty Point} {reply : op.Reply} {state : State}
      (next : (c.threads (.request n)).code = .call op rest) (ran : op.run ext choice c.state = some (reply, state)) :
      BusyStep ext settings c n (.exec (.request n) choice) state ⟨(c.threads (.request n)).point, rest reply⟩
  | resume {point : Point} {state : State} (ended : (c.threads (.request n)).code = .done point) :
      BusyStep ext settings c n (.resume (.request n)) state (enter ext settings point)

theorem Client.after_sent {client : Client} {move : Label} {n : Nat} : (client.after move).contact = .sent n ↔
    client.contact = .sent n ∧ move ≠ .drop n ∧ ∀ hostname, move ≠ .boot hostname := by
  cases move with
  | drop m =>
    simp only [after]
    split
    · rename_i sent
      rw [sent]
      constructor
      · rintro ⟨⟩
      · rintro ⟨same, other, -⟩
        cases same
        exact absurd rfl other
    · rename_i other
      constructor
      · intro sent
        refine ⟨sent, ?_, by rintro _ ⟨⟩⟩
        rintro ⟨⟩
        exact other sent
      · exact And.left
  | boot hostname =>
    simp only [after]
    split
    · exact ⟨by rintro ⟨⟩, fun stays => absurd rfl (stays.2.2 hostname)⟩
    · rename_i other
      exact ⟨fun sent => absurd sent (other n), And.left⟩
  | _ => exact ⟨fun sent => ⟨sent, by rintro ⟨⟩, by rintro _ ⟨⟩⟩, And.left⟩

theorem Client.after_ready {client : Client} {move : Label} (ready : client.contact = .ready) :
    (client.after move).contact = .ready := by
  cases move with
  | drop n => simp only [after, ready, reduceCtorEq, if_false]
  | boot hostname => simp only [after, ready]
  | _ => exact ready

namespace Exchange

variable {ext : External} {settings : Settings} {complaint : String → String} {c c' : Config} {move : Label} {n : Nat}
  {request : Request}

/-! ## One slot -/

theorem busy_step (moved : step ext settings c move = some c') (busy : (c.threads (.request n)).code ≠ .done .idle)
    (kept : move ≠ .drop n) (up : ∀ hostname, move ≠ .boot hostname) :
    BusyStep ext settings c n move c'.state (c'.threads (.request n)) := by
  have stepped := thread_step moved (.request n)
  generalize c'.threads (.request n) = thread at stepped ⊢
  cases stepped with
  | same other => exact .same other
  | exec next ran => exact .exec next ran
  | resume ended => exact .resume ended
  | entered entry =>
    cases entry with
    | receive _ request =>
      cases step_moved moved with
      | receive free => exact absurd free busy
    | drop => exact absurd rfl kept
    | boot hostname => exact absurd rfl (up hostname)

theorem not_idle_of_comes (within : (c.threads (.request n)).code.Within (fun _ => True) request.Comes) :
    (c.threads (.request n)).code ≠ .done .idle := by
  intro idle
  rw [idle] at within
  rcases within.answered with ⟨_, ⟨⟩⟩ | ⟨_, _, ⟨⟩⟩

theorem comes_received (request : Request) :
    (block ext settings (.received request)).Within (fun _ => True) request.Comes := by
  have handles := ((within_handle ext settings request).attempt (F := Empty)).mono (fun _ _ => trivial) fun _ => id
  refine handles.bind fun outcome comes => ?_
  cases outcome with
  | error why => exact ⟨.inl ⟨_, rfl⟩, fun carries => absurd rfl carries⟩
  | ok answer =>
    have comes := comes answer rfl
    cases answer with
    | response response =>
      refine ⟨.inl ⟨_, rfl⟩, fun carries => comes.resolve_right fun plain => carries ?_⟩
      obtain ⟨status, body⟩ := response
      cases body <;> first | rfl | cases plain
    | picked task outputs => exact ⟨.inr ⟨_, _, rfl⟩, fun _ => comes.resolve_right (by rintro ⟨⟩)⟩

theorem comes_resumed {point : Point} (comes : request.Comes point) :
    (block ext settings point).Within (fun _ => True) request.Comes := by
  rcases comes.answered with ⟨response, rfl⟩ | ⟨task, outputs, rfl⟩
  · exact comes
  · have polled := comes.polled (by rintro ⟨⟩)
    refine (Proc.within_true (answerTask task outputs)).attempt.bind fun outcome _ => ?_
    cases outcome with
    | error why => exact ⟨.inl ⟨_, rfl⟩, fun _ => polled⟩
    | ok answer =>
      cases answer with
      | response response => exact ⟨.inl ⟨_, rfl⟩, fun _ => polled⟩
      | picked task outputs => exact ⟨.inr ⟨_, _, rfl⟩, fun _ => polled⟩

theorem comes_step (moved : step ext settings c move = some c') (kept : move ≠ .drop n)
    (up : ∀ hostname, move ≠ .boot hostname)
    (within : (c.threads (.request n)).code.Within (fun _ => True) request.Comes) :
    (c'.threads (.request n)).code.Within (fun _ => True) request.Comes := by
  have stepped := busy_step moved (not_idle_of_comes within) kept up
  generalize c'.threads (.request n) = thread at stepped ⊢
  cases stepped with
  | same => exact within
  | exec next =>
    rw [next] at within
    exact within.2 _
  | resume ended =>
    rw [ended] at within
    exact comes_resumed within

/-! ## The network -/

variable {net after : Network} {label : NetLabel}

theorem exchanging_put {i : Nat} {client : Client} (exchanging : net.Exchanging)
    (sound : client.code.Each (fun _ _ => True) (Reporting.Sound client.token))
    (asks : client.contact ≠ .ready → ∃ request rest, client.code = .call (.request request) rest)
    (served : ∀ n request rest, client.contact = .sent n → client.code = .call (.request request) rest →
      (c.threads (.request n)).code.Within (fun _ => True) request.Comes)
    (others : ∀ j other n request rest, j ≠ i → net.clients j = some other → other.contact = .sent n →
      other.code = .call (.request request) rest → client.contact ≠ .sent n ∧
        (c.threads (.request n)).code.Within (fun _ => True) request.Comes) :
    (Network.put ⟨c, net.clients⟩ i client).Exchanging where
  asks := by
    intro j other found waits
    by_cases same : j = i
    · subst same
      rw [Network.put_self] at found
      cases found
      exact asks waits
    · rw [Network.put_ne _ _ same] at found
      exact exchanging.asks j other found waits
  served := by
    intro j other n request rest found sent next
    by_cases same : j = i
    · subst same
      rw [Network.put_self] at found
      cases found
      exact served n request rest sent next
    · rw [Network.put_ne _ _ same] at found
      exact (others j other n request rest same found sent next).2
  sole := by
    have unequal : ∀ j other n, j ≠ i → net.clients j = some other → other.contact = .sent n → client.contact ≠ .sent n := by
      intro j other n differs found sent
      obtain ⟨request, rest, next⟩ := exchanging.asks j other found (by rw [sent]; rintro ⟨⟩)
      exact (others j other n request rest differs found sent next).1
    intro j k first second n found found' sent sent'
    by_cases same : j = i
    · subst same
      rw [Network.put_self] at found
      cases found
      by_contra differs
      rw [Network.put_ne _ _ (Ne.symm differs)] at found'
      exact unequal k second n (Ne.symm differs) found' sent' sent
    · rw [Network.put_ne _ _ same] at found
      by_cases same' : k = i
      · subst same'
        rw [Network.put_self] at found'
        cases found'
        exact absurd sent' (unequal j first n same found sent)
      · rw [Network.put_ne _ _ same'] at found'
        exact exchanging.sole j k first second n found found' sent sent'
  sound := by
    intro j other found
    by_cases same : j = i
    · subst same
      rw [Network.put_self] at found
      cases found
      exact sound
    · rw [Network.put_ne _ _ same] at found
      exact exchanging.sound j other found

theorem exchanging_ready {i : Nat} {client : Client} (exchanging : net.Exchanging) (ready : client.contact = .ready)
    (sound : client.code.Each (fun _ _ => True) (Reporting.Sound client.token))
    (others : ∀ j other n (request : Request), j ≠ i → net.clients j = some other → other.contact = .sent n →
      (net.server.threads (.request n)).code.Within (fun _ => True) request.Comes →
      (c.threads (.request n)).code.Within (fun _ => True) request.Comes) :
    (Network.put ⟨c, net.clients⟩ i client).Exchanging := by
  refine exchanging_put exchanging sound (fun waits => absurd ready waits) ?_ ?_
  · intro n request rest sent
    cases ready.symm.trans sent
  · intro j other n request rest differs found sent next
    refine ⟨?_, others j other n request differs found sent (exchanging.served j other n request rest found sent next)⟩
    rw [ready]
    rintro ⟨⟩

theorem exchanging_step (exchanging : net.Exchanging) (moved : net.step ext settings complaint label = some after) :
    after.Exchanging := by
  have stays : ∀ (i : Nat) (other : Client) (n : Nat) (request : Request), net.clients i = some other →
      other.contact = .sent n → (net.server.threads (.request n)).code.Within (fun _ => True) request.Comes →
      (net.server.threads (.request n)).code.Within (fun _ => True) request.Comes := fun _ _ _ _ _ _ => id
  -- only the agent that acts and the request that is handled change
  cases network_stepped moved with
  | @server move server alone stepped =>
    have past : ∀ i client, (net.clients i).map (fun client => client.after move) = some client →
        ∃ old, net.clients i = some old ∧ client = old.after move := by
      intro i client found
      obtain ⟨old, there, same⟩ := Option.map_eq_some_iff.mp found
      exact ⟨old, there, same.symm⟩
    refine ⟨?_, ?_, ?_, ?_⟩
    · intro i client found waits
      obtain ⟨old, there, rfl⟩ := past i client found
      rw [Client.after_code]
      exact exchanging.asks i old there fun ready => waits (Client.after_ready ready)
    · intro i client n request rest found sent next
      obtain ⟨old, there, rfl⟩ := past i client found
      rw [Client.after_code] at next
      obtain ⟨sent, kept, up⟩ := Client.after_sent.mp sent
      exact comes_step stepped kept up (exchanging.served i old n request rest there sent next)
    · intro i j client other n found found' sent sent'
      obtain ⟨old, there, rfl⟩ := past i client found
      obtain ⟨old', there', rfl⟩ := past j other found'
      exact exchanging.sole i j old old' n there there' (Client.after_sent.mp sent).1 (Client.after_sent.mp sent').1
    · intro i client found
      obtain ⟨old, there, rfl⟩ := past i client found
      rw [Client.after_code, Client.after_token]
      exact exchanging.sound i old there
  | launch free =>
    exact exchanging_ready exchanging rfl (Reporting.pollOnce_sound ext complaint _) fun j other n request _ => stays j other n request
  | turn found ended =>
    exact exchanging_ready exchanging rfl (Reporting.pollOnce_sound ext complaint _) fun j other n request _ => stays j other n request
  | @send i n client request rest server found asks ready stepped =>
    refine exchanging_put exchanging (exchanging.sound i client found) (fun _ => ⟨request, rest, asks⟩) ?_ ?_
    · rintro _ request' rest' ⟨⟩ next
      cases asks.symm.trans next
      cases step_moved stepped with
      | receive free =>
        rw [Config.put_self]
        exact comes_received request
    · intro j other m request' rest' differs found' sent next
      have within := exchanging.served j other m request' rest' found' sent next
      refine ⟨?_, comes_step stepped (by rintro ⟨⟩) (by rintro _ ⟨⟩) within⟩
      rintro ⟨⟩
      cases step_moved stepped with
      | receive free => exact not_idle_of_comes within free
  | @answer i n client request rest response server found asks sent ended stepped =>
    have sound := exchanging.sound i client found
    rw [asks] at sound
    refine exchanging_ready exchanging rfl (sound.2 _ trivial) ?_
    intro j other m request' differs found' sent' within
    refine comes_step stepped ?_ (by rintro _ ⟨⟩) within
    rintro ⟨⟩
    exact differs (exchanging.sole j i other client n found' found sent' sent)
  | @own label i client op rest reply acts quiet found next seen =>
    have sound := exchanging.sound i client found
    rw [next] at sound
    exact exchanging_ready exchanging rfl (sound.2 _ trivial) fun j other n request _ => stays j other n request

end Exchange

end PostJen.Server
