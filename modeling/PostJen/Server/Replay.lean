import PostJen.Server.Turns
import PostJen.Server.Sample

/-! The events of a run against the statuses that it went through.

A status and the event that records its change are written by two statements.
The events replay the status as long as every task finds the status that its
event will name, and records the change before anybody who has changed it later.
-/

set_option autoImplicit false

open PostJen.Foundations PostJen.Core

namespace PostJen.Server

/-- The operation changes the status, and the task owes the event from then on. -/
def Starts (subject : Subject) (slot : Slot) (t : Transition) (before : Config) (label : Label) (after : Config) : Prop :=
  ∃ choice op, label = .exec slot choice ∧ before.pending slot = some op ∧ op.updates = some subject ∧
    after.owes slot = some (subject, t)

section
variable (ext : External) (settings : Settings) (start : Config) (subject : Subject)

/-- The statuses that the subject has gone through, each with the one before. -/
inductive Changes : List Label → Config → List Transition → Prop where
  | start : Changes [] start []
  | keep {history : List Label} {before after : Config} {label : Label} {changes : List Transition}
      (earlier : Changes history before changes) (moved : step ext settings before label = some after)
      (same : after.state.db.known subject = before.state.db.known subject) :
      Changes (label :: history) after changes
  | change {history : List Label} {before after : Config} {label : Label} {changes : List Transition}
      (earlier : Changes history before changes) (moved : step ext settings before label = some after)
      (differs : after.state.db.known subject ≠ before.state.db.known subject) :
      Changes (label :: history) after
        (changes ++ [(before.state.db.known subject, after.state.db.known subject)])

/-- Both tasks owe an event of the subject, the first one for the older change. -/
inductive Ahead (first second : Slot) : List Label → Config → Prop where
  | now {history : List Label} {before after : Config} {label : Label} {t u : Transition}
      (run : (system ext settings).Path everything start history before)
      (moved : step ext settings before label = some after) (owed : before.owes first = some (subject, t))
      (starts : Starts subject second u before label after) : Ahead first second (label :: history) after
  | still {history : List Label} {before after : Config} {label : Label} {t u : Transition}
      (earlier : Ahead first second history before) (moved : step ext settings before label = some after)
      (owed : after.owes first = some (subject, t)) (owing : after.owes second = some (subject, u)) :
      Ahead first second (label :: history) after

/-- Some step of the run was not in order for the subject's events. -/
inductive Disorder : List Label → Prop where
  /-- An UPDATE does not find the status that its event names, or changes nothing. -/
  | stale {history : List Label} {before after : Config} {label : Label} {slot : Slot} {t : Transition}
      (run : (system ext settings).Path everything start history before)
      (moved : step ext settings before label = some after) (starts : Starts subject slot t before label after)
      (stale : before.state.db.status subject ≠ t.1 ∨ t.1 = t.2) : Disorder (label :: history)
  /-- An INSERT fails, or the task is stopped before it. -/
  | lost {history : List Label} {before after : Config} {label : Label} {slot : Slot} {t : Transition}
      (run : (system ext settings).Path everything start history before)
      (moved : step ext settings before label = some after) (owed : before.owes slot = some (subject, t))
      (forgets : after.owes slot = none)
      (unrecorded : after.state.db.transitions subject = before.state.db.transitions subject) :
      Disorder (label :: history)
  /-- An event is inserted before the event of an older change. -/
  | overtakes {history : List Label} {before after : Config} {first second : Slot} {choice : Choice}
      (ahead : Ahead ext settings start subject first second history before)
      (moved : step ext settings before (.exec second choice) = some after) (records : after.owes second = none) :
      Disorder (.exec second choice :: history)
  /-- A request for cancellation does not find the status that it has read, or
  another task owes an event of the run. -/
  | cancel {history : List Label} {before after : Config} {slot : Slot} {choice : Choice} {id : Nat}
      {fromStatus : JobStatus} (run : (system ext settings).Path everything start history before)
      (moved : step ext settings before (.exec slot choice) = some after) (same : subject = .job id)
      (next : before.pending slot = some (.transact (.cancelRun id fromStatus)))
      (committed : after.state.db.transitions subject ≠ before.state.db.transitions subject)
      (disturbs : before.state.db.status subject ≠ (cancels fromStatus).1 ∨ fromStatus = .cancelRequested ∨
        ∃ other t, before.owes other = some (subject, t)) : Disorder (.exec slot choice :: history)
  | later {history : List Label} {label : Label} (earlier : Disorder history) : Disorder (label :: history)

end

variable {ext : External} {settings : Settings} {start c after : Config} {subject : Subject} {label : Label}
  {history : List Label} {slot : Slot}

/-! ## One step -/

inductive Move (subject : Subject) (c : Config) (label : Label) (after : Config) : Prop where
  | rest (stays : Stays c.state.db after.state.db subject)
      (owes : ∀ slot, after.owes slot = c.owes slot ∨ after.owes slot = none)
  | turn (slot : Slot) (choice : Choice) (op : Op) (executed : label = .exec slot choice)
      (next : c.pending slot = some op)
      (turn : Turn subject op (c.owes slot) (after.owes slot) c.state.db after.state.db)
      (others : ∀ other, other ≠ slot → after.owes other = c.owes other)

theorem entry_owes {point : Point} (entry : Entry label slot point) : point.owes = none := by
  cases entry with
  | boot _ slot => cases slot <;> rfl
  | _ => rfl

theorem enter_owes {point : Point} (hosted : slot.hosts point = true) :
    owes (block ext settings point) = point.owes :=
  follows_owes (recorder_valid.blocks slot point ⟨none, point.owes⟩ hosted rfl)

theorem move (placed : c.Placed) (kept : recorder.Kept c) (moved : step ext settings c label = some after) :
    Move subject c label after := by
  have idle : (∀ slot choice, label ≠ .exec slot choice) →
      ∀ slot, after.owes slot = c.owes slot ∨ after.owes slot = none := by
    intro quiet slot
    have turn := thread_step moved slot
    unfold Config.owes
    generalize after.threads slot = thread at turn
    cases turn with
    | same _ => exact .inl rfl
    | exec _ _ => exact absurd rfl (quiet _ _)
    | resume ended =>
      refine .inl ?_
      rw [ended]
      exact enter_owes (placed.follows ended).1
    | entered entry => exact .inr ((enter_owes entry.hosted).trans (entry_owes entry))
  rcases step_db moved with ⟨same, quiet⟩ | ⟨slot, choice, op, reply, rfl, next, ran⟩ |
    ⟨hostname, affected, rfl, registered⟩
  · exact .rest (.of (by rw [same]) (by rw [same])) (idle quiet)
  · obtain ⟨op', rest, reply, code, next', ran, threads⟩ := step_exec moved
    cases next.symm.trans next'
    obtain ⟨note, here, goes⟩ := kept.at code
    obtain ⟨permitted, follows⟩ := goes reply
    refine .turn slot choice op rfl next ?_ fun other ne => ?_
    · have owed : c.owes slot = note.owed := follows_owes here
      have owing : after.owes slot = (recording.advance op reply note).owed := by
        rw [Config.owes, threads, Config.put_self]
        exact follows_owes follows
      rw [owed, owing]
      exact turn permitted ⟨choice, ran⟩
    · rw [Config.owes, Config.owes, threads, Config.put_ne _ _ ne]
  · obtain ⟨agents, same⟩ := registered_agents registered
    refine .rest (.of ?_ ?_) (idle nofun)
    · rw [same]
      exact status_same rfl rfl
    · rw [same]
      exact transitions_same rfl

/-! ## Runs in order -/

/-- The changes of a subject are recorded or owed, the oldest first. -/
structure Account (ext : External) (settings : Settings) (start : Config) (subject : Subject)
    (changes : List Transition) (owed : List (Slot × Transition)) (history : List Label) (c : Config) : Prop where
  followed : Changes ext settings start subject history c changes
  balanced : Balanced subject.origin (c.state.db.known subject) changes (c.state.db.transitions subject) owed
  owes : ∀ slot t, c.owes slot = some (subject, t) ↔ (slot, t) ∈ owed
  order : owed.Pairwise fun first second => first.1 ≠ second.1 ∧
    Ahead ext settings start subject first.1 second.1 history c
  absent : c.state.db.status subject = none → owed = []

namespace Account

variable {changes : List Transition} {owed : List (Slot × Transition)} {op : Op} {choice : Choice}

theorem ahead (account : Account ext settings start subject changes owed history c)
    (moved : step ext settings c label = some after) {left : List (Slot × Transition)} (part : left.Sublist owed)
    (still : ∀ slot t, (slot, t) ∈ left → after.owes slot = some (subject, t)) :
    left.Pairwise fun first second => first.1 ≠ second.1 ∧
      Ahead ext settings start subject first.1 second.1 (label :: history) after := by
  refine List.Pairwise.imp_of_mem ?_ (account.order.sublist part)
  rintro ⟨first, t⟩ ⟨second, u⟩ member member' ⟨ne, earlier⟩
  exact ⟨ne, .still earlier moved (still first t member) (still second u member')⟩

theorem keep (account : Account ext settings start subject changes owed history c)
    (moved : step ext settings c label = some after) (stays : Stays c.state.db after.state.db subject)
    (same : ∀ slot t, after.owes slot = some (subject, t) ↔ c.owes slot = some (subject, t)) :
    Account ext settings start subject changes owed (label :: history) after where
  followed := .keep account.followed moved stays.known
  balanced := by
    rw [stays.known, stays.events]
    exact account.balanced
  owes slot t := (same slot t).trans (account.owes slot t)
  order := account.ahead moved (.refl _) fun slot t member => (same slot t).mpr ((account.owes slot t).mpr member)
  absent none := account.absent (stays.kept none)

theorem known_of {db : Db} {value : Option String} (status : db.status subject = value) (named : value ≠ none) :
    db.known subject = value := by
  obtain ⟨text, rfl⟩ := Option.ne_none_iff_exists'.mp named
  rw [Db.known, status]
  rfl

theorem change (account : Account ext settings start subject changes owed history c)
    (run : (system ext settings).Path everything start history c) (moved : step ext settings c label = some after)
    {t : Transition} (starts : Starts subject slot t c label after) (clear : c.owes slot = none)
    (others : ∀ other, other ≠ slot → after.owes other = c.owes other) (named : t.1 ≠ none ∧ t.2 ≠ none)
    (first : c.state.db.status subject = t.1) (last : after.state.db.status subject = t.2) (differs : t.1 ≠ t.2)
    (events : after.state.db.transitions subject = c.state.db.transitions subject) :
    Account ext settings start subject (changes ++ [t]) (owed ++ [(slot, t)]) (label :: history) after := by
  have before := known_of first named.1
  have now := known_of last named.2
  have owing : after.owes slot = some (subject, t) := by
    obtain ⟨_, _, -, -, -, owing⟩ := starts
    exact owing
  -- the thread owed nothing before, so the new event is nobody's but its own
  have apart : ∀ other u, (other, u) ∈ owed → other ≠ slot := by
    rintro other u member rfl
    have owes := (account.owes other u).mpr member
    rw [clear] at owes
    cases owes
  have still : ∀ other u, (other, u) ∈ owed → after.owes other = some (subject, u) := fun other u member =>
    (others other (apart other u member)).trans ((account.owes other u).mpr member)
  refine ⟨?_, ?_, fun other u => ?_, ?_, fun none => absurd (last.symm.trans none) named.2⟩
  · have changed := account.followed.change moved (by rwa [before, now, ne_comm])
    rwa [before, now] at changed
  · rw [events, now]
    have balanced := account.balanced.change slot t.2
    rwa [before] at balanced
  · rw [List.mem_append, List.mem_singleton]
    by_cases same : other = slot
    · subst same
      rw [owing]
      constructor
      · rintro ⟨⟩
        exact .inr rfl
      · rintro (member | single)
        · exact absurd rfl (apart other u member)
        · cases single
          rfl
    · rw [others other same, account.owes]
      exact ⟨.inl, fun either => either.resolve_right fun single => same (Prod.mk.inj single).1⟩
  · refine List.pairwise_append.mpr ⟨account.ahead moved (.refl _) still, List.pairwise_singleton _ _, ?_⟩
    rintro ⟨other, u⟩ member _ single
    rw [List.mem_singleton.mp single]
    exact ⟨apart other u member, .now run moved ((account.owes other u).mpr member) starts⟩

theorem record {t : Transition} {rest : List (Slot × Transition)}
    (account : Account ext settings start subject changes ((slot, t) :: rest) history c)
    (moved : step ext settings c label = some after) (settled : after.owes slot = none)
    (others : ∀ other, other ≠ slot → after.owes other = c.owes other)
    (status : after.state.db.status subject = c.state.db.status subject)
    (events : after.state.db.transitions subject = c.state.db.transitions subject ++ [t]) :
    Account ext settings start subject changes rest (label :: history) after := by
  have known : after.state.db.known subject = c.state.db.known subject := by
    rw [Db.known, Db.known, status]
  have apart : ∀ other u, (other, u) ∈ rest → other ≠ slot := fun other u member =>
    ((List.pairwise_cons.mp account.order).1 (other, u) member).1.symm
  have still : ∀ other u, (other, u) ∈ rest → after.owes other = some (subject, u) := fun other u member =>
    (others other (apart other u member)).trans ((account.owes other u).mpr (List.mem_cons_of_mem _ member))
  refine ⟨.keep account.followed moved known, ?_, fun other u => ⟨fun owes => ?_, still other u⟩,
    account.ahead moved (List.sublist_cons_self _ _) still, fun none => ?_⟩
  · rw [known, events]
    exact account.balanced.record
  · by_cases same : other = slot
    · subst same
      rw [settled] at owes
      cases owes
    · rw [others other same] at owes
      rcases List.mem_cons.mp ((account.owes other u).mp owes) with head | member
      · exact absurd (Prod.mk.inj head).1 same
      · exact member
  · rw [status] at none
    cases account.absent none

theorem atOnce {t : Transition} (account : Account ext settings start subject changes [] history c)
    (moved : step ext settings c label = some after) (quiet : after.owes slot = none)
    (others : ∀ other, other ≠ slot → after.owes other = c.owes other)
    (first : c.state.db.known subject = t.1) (last : after.state.db.status subject = t.2) (named : t.2 ≠ none)
    (differs : t.1 ≠ t.2)
    (events : after.state.db.transitions subject = c.state.db.transitions subject ++ [t]) :
    Account ext settings start subject (changes ++ [t]) [] (label :: history) after := by
  have now := known_of last named
  refine ⟨?_, ?_, fun other u => ⟨fun owes => ?_, nofun⟩, .nil, fun _ => rfl⟩
  · have changed := account.followed.change moved (by rwa [first, now, ne_comm])
    rwa [first, now] at changed
  · rw [events, now]
    have balanced := account.balanced.atOnce t.2
    rwa [first] at balanced
  · by_cases same : other = slot
    · subst same
      rw [quiet] at owes
      cases owes
    · rw [others other same] at owes
      exact (account.owes other u).mp owes

end Account

/-- A step in order keeps the account. -/
theorem Account.step {changes : List Transition} {owed : List (Slot × Transition)}
    (account : Account ext settings start subject changes owed history c)
    (run : (system ext settings).Path everything start history c) (placed : c.Placed) (kept : recorder.Kept c)
    (moved : step ext settings c label = some after)
    (ordered : ¬Disorder ext settings start subject (label :: history)) :
    ∃ changes owed, Account ext settings start subject changes owed (label :: history) after := by
  -- whatever would spoil the account is one of the cases of `Disorder`
  cases (move placed kept moved : Move subject c label after) with
  | rest stays owes =>
    refine ⟨changes, owed, account.keep moved stays fun slot t => ?_⟩
    rcases owes slot with same | forgets
    · rw [same]
    · rw [forgets]
      refine ⟨nofun, fun owed => absurd ?_ ordered⟩
      exact .lost run moved owed forgets stays.events
  | turn slot choice op executed next turn others =>
    subst executed
    cases turn with
    | idle owedNot owingNot stays =>
      refine ⟨changes, owed, account.keep moved stays fun other t => ?_⟩
      by_cases same : other = slot
      · subst same
        exact iff_of_false (owingNot t) (owedNot t)
      · rw [others other same]
    | change t updates clear owing named effect events =>
      have starts : Starts subject slot t c (.exec slot choice) after := ⟨choice, op, rfl, next, updates, owing⟩
      have fresh : ¬(c.state.db.status subject ≠ t.1 ∨ t.1 = t.2) := fun stale =>
        ordered (.stale run moved starts stale)
      obtain ⟨finds, differs⟩ := not_or.mp fresh
      have first := not_not.mp finds
      exact ⟨_, _, account.change run moved starts clear others named first (effect first) differs events⟩
    | record t speaks owes settled status events =>
      have member := (account.owes slot t).mp owes
      cases owed with
      | nil => cases member
      | cons head rest =>
        obtain ⟨oldest, u⟩ := head
        rcases List.mem_cons.mp member with here | later
        · cases here
          exact ⟨_, _, account.record moved settled others status events⟩
        · have ahead := ((List.pairwise_cons.mp account.order).1 (slot, t) later).2
          exact absurd (.overtakes ahead moved settled) ordered
    | lose t owes forgets events => exact absurd (.lost run moved owes forgets events) ordered
    | cancel id fromStatus same executed clear quiet status events =>
      subst executed
      have committed : after.state.db.transitions subject ≠ c.state.db.transitions subject := by
        rw [events]
        exact fun same => List.cons_ne_nil _ _ (List.append_right_eq_self.mp same)
      have calm := fun disturbs => ordered (.cancel run moved same next committed disturbs)
      obtain ⟨finds, rest⟩ := not_or.mp calm
      obtain ⟨differs, nobody⟩ := not_or.mp rest
      have nothing : owed = [] := List.eq_nil_iff_forall_not_mem.mpr fun entry member =>
        nobody ⟨entry.1, entry.2, (account.owes entry.1 entry.2).mpr member⟩
      subst nothing
      refine ⟨_, _, account.atOnce (t := cancels fromStatus) moved quiet others
        (Account.known_of (not_not.mp finds) nofun) status nofun ?_ events⟩
      exact fun equal => differs (JobStatus.text_injective (Option.some.inj equal))
    | create id same clear quiet absent status events =>
      have nothing := account.absent absent
      subst nothing same
      refine ⟨_, _, account.atOnce (t := (none, some JobStatus.queued.text)) moved quiet others ?_ status nofun
        nofun events⟩
      rw [Db.known, absent]
      rfl

theorem events_ordered {files : String → Option String} {clock : Nat}
    (run : (system ext settings).Reaches everything (Config.initial ext settings files clock) c) :
    (c.state.db.runEvents.rows.map Prod.fst).Pairwise (· < ·) := by
  refine run.invariant (fun c => (c.state.db.runEvents.rows.map Prod.fst).Pairwise (· < ·)) .nil ?_
  intro before label after ordered _ moved
  have grows : after.state.db.runEvents = before.state.db.runEvents ∨
      ∃ row, after.state.db.runEvents = before.state.db.runEvents.insert row := by
    rcases step_db moved with ⟨same, -⟩ | ⟨slot, choice, op, reply, rfl, next, ran⟩ |
      ⟨hostname, affected, rfl, registered⟩
    · exact .inl (by rw [same])
    · exact exec_events_grow ran
    · obtain ⟨agents, same⟩ := registered_agents registered
      exact .inl (by rw [same])
  rcases grows with same | ⟨row, inserted⟩
  · rwa [same]
  · have rows : after.state.db.runEvents.rows.map Prod.fst =
        before.state.db.runEvents.rows.map Prod.fst ++ [before.state.db.runEvents.next] := by
      rw [inserted]
      exact List.map_append
    rw [rows]
    refine List.pairwise_append.mpr ⟨ordered, List.pairwise_singleton _ _, fun key member next single => ?_⟩
    obtain ⟨entry, inside, rfl⟩ := List.mem_map.mp member
    rw [List.mem_singleton.mp single]
    exact before.state.db.runEvents.bounded entry inside

/-- The events of a job run or a node run are exactly the changes of its status,
in order, and lead to the status it has. -/
structure Replays (ext : External) (settings : Settings) (start : Config) (subject : Subject) (history : List Label)
    (c : Config) : Prop where
  inOrder : (c.state.db.runEvents.rows.map Prod.fst).Pairwise (· < ·)
  happened : Changes ext settings start subject history c (c.state.db.transitions subject)
  chain : Chain subject.origin (c.state.db.transitions subject) (c.state.db.known subject)

theorem events_replay {files : String → Option String} {clock : Nat}
    (run : (system ext settings).Path everything (Config.initial ext settings files clock) history c)
    (ordered : ¬Disorder ext settings (Config.initial ext settings files clock) subject history)
    (settled : ∀ slot t, c.owes slot ≠ some (subject, t)) :
    Replays ext settings (Config.initial ext settings files clock) subject history c := by
  obtain ⟨changes, owed, account⟩ : ∃ changes owed,
      Account ext settings (Config.initial ext settings files clock) subject changes owed history c := by
    clear settled
    induction run with
    | nil =>
      refine ⟨[], [], .start, ⟨rfl, by cases subject <;> rfl⟩, fun slot t => ⟨nofun, nofun⟩, .nil, fun _ => rfl⟩
    | cons run _ moved ih =>
      obtain ⟨changes, owed, account⟩ := ih fun earlier => ordered earlier.later
      have idle := Config.initial_idle ext settings files clock
      exact account.step run (reached_placed idle run.reaches) (recorder_valid.sound idle run.reaches) moved ordered
  have nothing : owed = [] := List.eq_nil_iff_forall_not_mem.mpr fun entry member =>
    settled entry.1 entry.2 ((account.owes entry.1 entry.2).mpr member)
  subst nothing
  obtain ⟨same, chain⟩ := account.balanced.settled
  exact ⟨events_ordered run.reaches, same ▸ account.followed, chain⟩

theorem boot_settled {hostname : String} (moved : step ext settings c (.boot hostname) = some after) (slot : Slot)
    (t : Transition) : after.owes slot ≠ some (subject, t) := by
  cases step_moved moved with
  | boot registered =>
    have entry : Entry (.boot hostname) slot slot.home := .boot hostname slot
    have nothing : owes (block ext settings slot.home) = none := (enter_owes entry.hosted).trans (entry_owes entry)
    rw [Config.owes]
    show owes (block ext settings slot.home) ≠ _
    rw [nothing]
    nofun

/-! ## Tasks that take turns -/

def Op.current (db : Db) : Op → Bool
  | .transact (.cancelRun id fromStatus) =>
      db.status (.job id) = (cancels fromStatus).1 && fromStatus ≠ JobStatus.cancelRequested
  | _ => true

/-- Either nobody owes an event and the step finds the status that its event
will name, or the one task that owes an event goes on or inserts it. -/
def inTurn (c : Config) (owner : Option Slot) (label : Label) (after : Config) : Bool :=
  match label, owner with
  | .exec slot _, none => (c.pending slot).all (Op.current c.state.db) &&
      (after.owes slot).all fun entry => c.state.db.status entry.1 = entry.2.1 && entry.2.1 ≠ entry.2.2
  | .exec slot _, some owing => owing = slot && (c.pending slot).all (·.updates.isNone) &&
      ((after.owes slot).isSome || (c.owes slot).all fun entry =>
        after.state.db.transitions entry.1 ≠ c.state.db.transitions entry.1)
  | _, _ => owner.isNone

def Label.owing (after : Config) : Label → Option Slot
  | .exec slot _ => if (after.owes slot).isSome then some slot else none
  | _ => none

/-- The run was in order so far, and only one task owes an event. -/
structure InTurn (ext : External) (settings : Settings) (start : Config) (owner : Option Slot) (history : List Label)
    (c : Config) : Prop where
  run : (system ext settings).Path everything start history c
  alone : ∀ slot, owner ≠ some slot → c.owes slot = none
  ordered : ∀ subject, ¬Disorder ext settings start subject history
  nobody : ∀ subject first second, ¬Ahead ext settings start subject first second history c

theorem move_others (placed : c.Placed) (kept : recorder.Kept c) (moved : step ext settings c label = some after)
    (other : ∀ choice, label ≠ .exec slot choice) : after.owes slot = c.owes slot ∨ after.owes slot = none := by
  cases (move placed kept moved : Move (.job 0) c label after) with
  | rest _ owes => exact owes slot
  | turn turn choice _ executed _ _ others =>
    refine .inl (others slot ?_)
    rintro rfl
    exact other choice executed

theorem Ahead.path {first second : Slot} (ahead : Ahead ext settings start subject first second history c) :
    (system ext settings).Path everything start history c := by
  induction ahead with
  | now run moved _ _ => exact run.cons trivial moved
  | still _ moved _ _ ih => exact ih.cons trivial moved

theorem inTurn_exec {owner : Option Slot} {choice : Choice} (checked : inTurn c owner (.exec slot choice) after = true) :
    (owner = none ∧ (∀ op, c.pending slot = some op → op.current c.state.db = true) ∧
      ∀ subject t, after.owes slot = some (subject, t) → c.state.db.status subject = t.1 ∧ t.1 ≠ t.2) ∨
    (owner = some slot ∧ (∀ op, c.pending slot = some op → op.updates = none) ∧
      (after.owes slot ≠ none ∨ ∀ subject t, c.owes slot = some (subject, t) →
        after.state.db.transitions subject ≠ c.state.db.transitions subject)) := by
  cases owner with
  | none =>
    simp only [inTurn, Bool.and_eq_true, Option.all_eq_true, decide_eq_true_eq, Prod.forall] at checked
    exact .inl ⟨rfl, checked.1, fun subject t owes => checked.2 subject t.1 t.2 owes⟩
  | some owing =>
    simp only [inTurn, Bool.and_eq_true, Bool.or_eq_true, Option.all_eq_true, decide_eq_true_eq, Prod.forall,
      Option.isNone_iff_eq_none] at checked
    obtain ⟨⟨rfl, quiet⟩, records⟩ := checked
    refine .inr ⟨rfl, quiet, records.imp (fun owes none => ?_) fun differs subject t => differs subject t.1 t.2⟩
    rw [none] at owes
    cases owes

namespace InTurn

variable {owner : Option Slot} (turns : InTurn ext settings start owner history c)
include turns

theorem owner_eq {entry : Subject × Transition} (owed : c.owes slot = some entry) : owner = some slot := by
  by_contra other
  rw [turns.alone slot other] at owed
  cases owed

theorem alone_step (placed : c.Placed) (kept : recorder.Kept c) (moved : Server.step ext settings c label = some after)
    (checked : inTurn c owner label after = true) (slot : Slot) (other : label.owing after ≠ some slot) :
    after.owes slot = none := by
  by_cases acts : ∃ choice, label = .exec slot choice
  · obtain ⟨choice, rfl⟩ := acts
    by_contra owes
    exact other (if_pos (Option.isSome_iff_ne_none.mpr owes))
  · rcases move_others placed kept moved (not_exists.mp acts) with same | forgets
    · rw [same]
      refine turns.alone slot fun owned => ?_
      subst owned
      cases label with
      | exec turn choice =>
        rcases inTurn_exec checked with ⟨none, -⟩ | ⟨same, -⟩
        · cases none
        · cases same
          exact acts ⟨choice, rfl⟩
      | _ => cases checked
    · exact forgets

theorem nobody_step (moved : Server.step ext settings c label = some after) (checked : inTurn c owner label after = true)
    (subject : Subject) (first second : Slot) :
    ¬Ahead ext settings start subject first second (label :: history) after := by
  intro ahead
  cases ahead with
  | now run _ owed starts =>
    cases run.unique turns.run
    obtain ⟨choice, op, rfl, next, updates, -⟩ := starts
    rcases inTurn_exec checked with ⟨none, -⟩ | ⟨-, quiet, -⟩
    · rw [turns.owner_eq owed] at none
      cases none
    · rw [quiet op next] at updates
      cases updates
  | still earlier _ _ _ =>
    cases earlier.path.unique turns.run
    exact turns.nobody subject first second earlier

theorem ordered_step (moved : Server.step ext settings c label = some after) (checked : inTurn c owner label after = true)
    (subject : Subject) : ¬Disorder ext settings start subject (label :: history) := by
  intro disorder
  -- each way to get out of order is refused by the check
  cases disorder with
  | stale run moved' starts stale =>
    cases run.unique turns.run
    cases moved.symm.trans moved'
    obtain ⟨choice, op, rfl, next, updates, owing⟩ := starts
    rcases inTurn_exec checked with ⟨-, -, agrees⟩ | ⟨-, quiet, -⟩
    · obtain ⟨finds, differs⟩ := agrees subject _ owing
      exact stale.elim (absurd finds) fun same => differs same
    · rw [quiet op next] at updates
      cases updates
  | lost run moved' owed forgets unrecorded =>
    cases run.unique turns.run
    cases moved.symm.trans moved'
    cases turns.owner_eq owed
    cases label with
    | exec turn choice =>
      rcases inTurn_exec checked with ⟨none, -⟩ | ⟨same, -, owes | records⟩
      · cases none
      · cases same
        exact owes forgets
      · cases same
        exact records subject _ owed unrecorded
    | _ => cases checked
  | overtakes ahead _ _ =>
    cases ahead.path.unique turns.run
    exact turns.nobody subject _ _ ahead
  | cancel run moved' same next _ disturbs =>
    cases run.unique turns.run
    subst same
    rcases inTurn_exec checked with ⟨none, agrees, -⟩ | ⟨-, quiet, -⟩
    · have current := agrees _ next
      simp only [Op.current, Bool.and_eq_true, decide_eq_true_eq] at current
      rcases disturbs with stale | again | ⟨other, t, owes⟩
      · exact stale current.1
      · exact current.2 again
      · rw [turns.owner_eq owes] at none
        cases none
    · cases quiet _ next
  | later earlier => exact turns.ordered subject earlier

theorem step (placed : c.Placed) (kept : recorder.Kept c) (moved : Server.step ext settings c label = some after)
    (checked : inTurn c owner label after = true) :
    InTurn ext settings start (label.owing after) (label :: history) after where
  run := turns.run.cons trivial moved
  alone := turns.alone_step placed kept moved checked
  ordered := turns.ordered_step moved checked
  nobody := turns.nobody_step moved checked

end InTurn

variable (ext settings) in
/-- Follow a schedule in which the tasks take turns, to where nobody owes an event. -/
def takeTurns (owner : Option Slot) (c : Config) : List Label → Option Config
  | [] => if owner.isNone then some c else none
  | label :: labels => (step ext settings c label).bind fun after =>
      if inTurn c owner label after then takeTurns (label.owing after) after labels else none

theorem InTurn.follow (idle : ∀ slot, start.threads slot = enter ext settings .idle) {owner : Option Slot}
    (turns : InTurn ext settings start owner history c) {labels : List Label} {last : Config}
    (taken : takeTurns ext settings owner c labels = some last) :
    InTurn ext settings start none (labels.reverse ++ history) last := by
  induction labels generalizing owner history c with
  | nil =>
    simp only [takeTurns, Option.isNone_iff_eq_none] at taken
    split at taken
    · rename_i settled
      cases taken
      exact settled ▸ turns
    · cases taken
  | cons label labels ih =>
    obtain ⟨after, moved, taken⟩ := Option.bind_eq_some_iff.mp taken
    split at taken
    · rename_i checked
      rw [List.reverse_cons, List.append_assoc]
      have placed := reached_placed idle turns.run.reaches
      exact ih (turns.step placed (recorder_valid.sound idle turns.run.reaches) moved checked) taken
    · cases taken

theorem inTurn_initial (files : String → Option String) (clock : Nat) :
    InTurn ext settings (Config.initial ext settings files clock) none [] (Config.initial ext settings files clock) where
  run := .nil
  alone := fun _ _ => rfl
  ordered := fun _ disorder => by cases disorder
  nobody := fun _ _ _ ahead => by cases ahead

/-- The whole run of the fork, in which one root succeeds and the other fails. -/
def Sample.forkRecorded : List Label :=
  forkQueued ++ block 1 ++ workLocally 0 (exited 0) ++ turns (.localTask 0) 1 ++ workLocally 1 (exited 1) ++
    turns (.localTask 1) 1 ++ block 2 ++ block 1 ++ block 0 ++ block 0 ++ block 0 ++ block 0 ++ block 1 ++ block 1 ++
    block 1 ++ block 0 ++ block 0 ++ block 2 ++ block 0 ++ turns .scheduler 3

theorem events_replay_fork : ∃ c,
    (∀ subject, Replays Sample.ext Sample.settings Sample.initial subject Sample.forkRecorded.reverse c) ∧
    c.state.db.transitions (.job 1) = [(none, some "queued"), (some "queued", some "running"),
      (some "running", some "failed")] ∧
    c.state.db.transitions (.node 1) = [(some "pending", some "queued"), (some "queued", some "running"),
      (some "running", some "success")] ∧
    c.state.db.transitions (.node 3) = [(some "pending", some "skipped")] := by
  have passed : ((takeTurns Sample.ext Sample.settings none Sample.initial Sample.forkRecorded).any fun c =>
        c.state.db.transitions (.job 1) = [(none, some "queued"), (some "queued", some "running"),
          (some "running", some "failed")] &&
        c.state.db.transitions (.node 1) = [(some "pending", some "queued"), (some "queued", some "running"),
          (some "running", some "success")] &&
        c.state.db.transitions (.node 3) = [(some "pending", some "skipped")]) = true := by decide +kernel
  obtain ⟨c, taken, recorded⟩ := (Option.any_eq_true _ _).mp passed
  simp only [Bool.and_eq_true, decide_eq_true_eq, and_assoc] at recorded
  have idle := Config.initial_idle Sample.ext Sample.settings Sample.files 1000000
  have turns := (inTurn_initial Sample.files 1000000).follow idle taken
  rw [List.append_nil] at turns
  refine ⟨c, fun subject => events_replay turns.run (turns.ordered subject) fun slot t => ?_, recorded⟩
  rw [turns.alone slot nofun]
  nofun

/-- A monitor pass that finds the agent of a queued node offline. -/
def Sample.sweptQueued : List Label :=
  remoteQueued ++ [.clock 1100000] ++ turns .monitor 3 ++ [.resume .monitor] ++ turns .monitor 2

/-- The sweep records that a queued node has left the status running. -/
theorem events_replay_swept_queued : ¬∀ history c subject,
    (system Sample.ext Sample.settings).Path everything Sample.initial history c →
    (∀ slot t, c.owes slot ≠ some (subject, t)) →
    Replays Sample.ext Sample.settings Sample.initial subject history c := by
  intro claim
  have passed : ((Sample.run (fun _ _ => true) Sample.sweptQueued).any fun c =>
      (step Sample.ext Sample.settings c (.boot "localhost")).any fun after =>
        decide (¬Chain (Subject.node 1).origin (after.state.db.transitions (.node 1))
          (after.state.db.known (.node 1)))) = true := by decide +kernel
  obtain ⟨c, followed, passed⟩ := (Option.any_eq_true _ _).mp passed
  obtain ⟨after, moved, broken⟩ := (Option.any_eq_true _ _).mp passed
  obtain ⟨history, run⟩ := (Sample.reached_freely followed).path
  have restarted : (system Sample.ext Sample.settings).Path everything Sample.initial (.boot "localhost" :: history)
      after := run.cons trivial moved
  exact of_decide_eq_true broken (claim _ after (.node 1) restarted (boot_settled moved)).chain

end PostJen.Server
