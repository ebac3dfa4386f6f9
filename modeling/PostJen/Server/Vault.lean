import PostJen.Foundations.Edits
import PostJen.Server.AtRest
import PostJen.Server.Views

/-! The secrets as a store of values by name.

The table holds encrypted values under the server's key; a client sees requests
that store or delete a value. Whatever is interleaved, the requests take effect
one after another, each between its receipt and its response, and the table
decrypts to what they leave.
-/

set_option autoImplicit false

open PostJen.Foundations PostJen.Core

namespace PostJen.Server

def Db.secret (ext : External) (settings : Settings) (db : Db) (name : String) : Option String := do
  let key ← settings.secretKey
  let row ← db.secrets.find name
  (ext.decrypt key ⟨row.encryptedValue, row.nonce⟩).toOption

def Point.plaintext : Point → Option String
  | .received (.createSecret _ value) => some value
  | _ => none

/-- What an executed statement does to the secrets. -/
def Point.edit (point : Point) : (op : Op) → op.Reply → Option (Edit String String)
  | .write (.secret name _), .ok _ => point.plaintext.map (.put name)
  | .write (.deleteSecret name), .ok affected => some (.remove name (affected ≠ 0))
  | _, _ => none

section
variable (ext : External) (settings : Settings)

def secretEdit (c : Config) : Label → Option (Slot × Edit String String)
  | .exec slot choice =>
      match (c.threads slot).code with
      | .call op _ => (op.run ext choice c.state).bind fun ran =>
          ((c.threads slot).point.edit op ran.1).map fun edit => (slot, edit)
      | _ => none
  | _ => none

def secretEdits (start : Config) (history : List Label) : List (Slot × Edit String String) :=
  (system ext settings).annals (fun c label earlier => (secretEdit ext c label).toList ++ earlier) [] start history

def secretValue (start : Config) (history : List Label) (name : String) : Option String :=
  Edit.replay ((secretEdits ext settings start history).map Prod.snd) name

end

def Request.Unrelated (request : Request) : Prop :=
  ∀ name value, request ≠ .createSecret name value ∧ request ≠ .deleteSecret name

/-- A response to a request fits the edits that the request has made. -/
inductive Request.Edits : Request → Except ApiError Response → List (Edit String String) → Prop where
  | stored (name value : String) (summary : SecretSummary) (named : summary.name = trim name) :
      Edits (.createSecret name value) (.ok ⟨201, .secret summary⟩) [.put (trim name) value]
  /-- The row was written, and reading it back failed. -/
  | unread (name value : String) (why : SqlError) :
      Edits (.createSecret name value) (.error (FromSql.fromSql why)) [.put (trim name) value]
  | deleted (name : String) : Edits (.deleteSecret name) (.ok ⟨204, .empty⟩) [.remove name true]
  | missing (name : String) :
      Edits (.deleteSecret name) (.error (.notFound "secret not found")) [.remove name false]
  /-- A delete is not told that there was no secret unless it has looked. -/
  | failed (request : Request) (why : ApiError)
      (looked : ∀ name text, request = .deleteSecret name → why ≠ .notFound text) : Edits request (.error why) []
  | other (request : Request) (response : Except ApiError Response) (unrelated : request.Unrelated) :
      Edits request response []

/-- The secrets behave as one map from names to values. -/
structure SecretStore (ext : External) (settings : Settings) (start : Config) : Prop where
  kept : ∀ history c name, (system ext settings).Path everything start history c →
    c.state.db.secret ext settings name = secretValue ext settings start history name
  legal : ∀ history c, (system ext settings).Path everything start history c →
    Edit.Legal ((secretEdits ext settings start history).map Prod.snd)
  shown : ∀ history c rows, (system ext settings).Path everything start history c → rows ∈ listSecrets c.state.db →
    (rows.map (·.name)).Pairwise (· < ·) ∧
      ∀ name, name ∈ rows.map (·.name) ↔ (secretValue ext settings start history name).isSome
  /-- A request has made its edit between its receipt and its response. -/
  answered : ∀ recent earlier n request c response,
    (system ext settings).Path everything start (recent ++ .receive n request :: earlier) c →
    (∀ other, .receive n other ∉ recent) → c.ended (.request n) = some (.responded response) →
    ∃ made, secretEdits ext settings start (recent ++ .receive n request :: earlier) =
        made ++ secretEdits ext settings start earlier ∧
      request.Edits response ((made.filter fun entry => entry.1 = .request n).map Prod.snd)

namespace Vault

variable {ext : External} {settings : Settings} {start c after : Config} {history : List Label} {label : Label}

theorem secretEdits_cons (run : (system ext settings).Path everything start history c) (label : Label) :
    secretEdits ext settings start (label :: history) =
      (secretEdit ext c label).toList ++ secretEdits ext settings start history :=
  run.annals label

theorem secretEdit_exec {slot : Slot} {choice : Choice} {op : Op} {rest : op.Reply → Proc Sig Empty Point}
    {reply : op.Reply} {state : State} (next : (c.threads slot).code = .call op rest)
    (ran : op.run ext choice c.state = some (reply, state)) :
    secretEdit ext c (.exec slot choice) = ((c.threads slot).point.edit op reply).map fun edit => (slot, edit) := by
  simp only [secretEdit, next, ran, Option.bind_some]

/-! ## The table -/

def Keeps (ext : External) (settings : Settings) (db : Db) (name : String) : Option String → Prop
  | none => db.secrets.find name = none
  | some value => ∃ key row, settings.secretKey = some key ∧ db.secrets.find name = some row ∧
      ext.decrypt key ⟨row.encryptedValue, row.nonce⟩ = .ok value

theorem Keeps.isSome {db : Db} {name : String} {value : Option String} (keeps : Keeps ext settings db name value) :
    (db.secrets.find name).isSome = value.isSome := by
  cases value with
  | none => rw [show db.secrets.find name = none from keeps]; rfl
  | some value =>
    obtain ⟨key, row, -, found, -⟩ := keeps
    rw [found]
    rfl

theorem Keeps.secret {db : Db} {name : String} {value : Option String} (keeps : Keeps ext settings db name value) :
    db.secret ext settings name = value := by
  unfold Db.secret
  cases value with
  | none =>
    rw [show db.secrets.find name = none from keeps]
    cases settings.secretKey <;> rfl
  | some value =>
    obtain ⟨key, row, keyed, found, decrypts⟩ := keeps
    rw [keyed, found]
    simp only [bind, Option.bind, decrypts, Except.toOption]

theorem Keeps.congr {db db' : Db} {name : String} {value : Option String} (keeps : Keeps ext settings db name value)
    (same : db'.secrets.find name = db.secrets.find name) : Keeps ext settings db' name value := by
  unfold Keeps at keeps ⊢
  rw [same]
  exact keeps

/-- What one operation does to the secrets, and what it is counted as. -/
inductive Effect (before after : State) (op : Op) (reply : op.Reply) : Prop where
  | none (silent : ∀ point : Point, point.edit op reply = none) (same : after.db.secrets = before.db.secrets)
  | put (name : String) (value : EncryptedSecret) (isPut : op = .write (.secret name value))
      (counts : ∀ point : Point, point.edit op reply = point.plaintext.map (.put name))
      (other : ∀ key, key ≠ name → after.db.secrets.find key = before.db.secrets.find key)
      (here : ∃ row, after.db.secrets.find name = some row ∧ (⟨row.encryptedValue, row.nonce⟩ : EncryptedSecret) = value)
  | remove (name : String)
      (counts : ∀ point : Point, point.edit op reply = some (.remove name (before.db.secrets.find name).isSome))
      (other : ∀ key, key ≠ name → after.db.secrets.find key = before.db.secrets.find key)
      (here : after.db.secrets.find name = none)

theorem count_key {V : Type} (table : Table String V) (name : String) :
    decide (table.count (fun key _ => key = name) ≠ 0) = (table.find name).isSome := by
  rw [Bool.eq_iff_iff, decide_eq_true_iff, Option.isSome_iff_exists, ← Nat.pos_iff_ne_zero, Table.count,
    List.length_pos_iff_exists_mem]
  constructor
  · rintro ⟨⟨key, row⟩, member⟩
    obtain ⟨inside, same⟩ := Table.mem_select.mp member
    exact ⟨row, Table.find_eq_some.mpr (of_decide_eq_true same ▸ inside)⟩
  · rintro ⟨row, found⟩
    exact ⟨(name, row), Table.mem_select.mpr ⟨Table.find_eq_some.mp found, decide_eq_true rfl⟩⟩

theorem run_effect {op : Op} {choice : Choice} {before after : State} {reply : op.Reply}
    (ran : op.run ext choice before = some (reply, after)) : Effect before after op reply := by
  cases op with
  | write write =>
    rcases exec_write ⟨choice, ran⟩ with ⟨⟨why, rfl⟩, rfl⟩ | ⟨affected, db, applied, rfl, rfl⟩
    · exact .none (fun point => by cases write <;> rfl) rfl
    · cases write with
      | secret name value =>
        cases applied
        refine .put name value rfl (fun point => rfl) (fun key other => ?_) ?_
        · exact (Table.find_upsert _ _ _ _ _).trans (if_neg other)
        · refine ⟨_, (Table.find_upsert _ _ _ _ _).trans (if_pos rfl), ?_⟩
          cases before.db.secrets.find name <;> rfl
      | deleteSecret name =>
        cases applied
        refine .remove name (fun point => ?_) (fun key other => ?_) ?_
        · exact congrArg (fun found => some (Edit.remove name found)) (count_key _ _)
        · refine (Table.find_delete _ _ _).trans ?_
          cases before.db.secrets.find key with
          | none => rfl
          | some row => simp [Option.filter, other]
        · refine (Table.find_delete _ _ _).trans ?_
          cases before.db.secrets.find name with
          | none => rfl
          | some row => simp [Option.filter]
      | agents write =>
        refine .none (fun point => rfl) ?_
        simp only [Write.apply] at applied
        split at applied <;> cases applied
        rfl
      | updateNode _ _ =>
        cases applied
        exact .none (fun point => rfl) rfl
      | updateJob _ _ =>
        cases applied
        exact .none (fun point => rfl) rfl
      | _ =>
        refine .none (fun point => rfl) ?_
        simp only [Write.apply] at applied
        repeat' split at applied
        all_goals cases applied
        all_goals rfl
  | transact transaction =>
    refine .none (fun point => rfl) ?_
    rcases exec_transact ⟨choice, ran⟩ with ⟨-, rfl⟩ | ⟨_, _, applied, -, rfl⟩
    · rfl
    · cases transaction <;>
      · simp only [Transaction.apply] at applied
        split at applied <;> cases applied <;> rfl
  | _ => exact .none (fun point => rfl) (by rw [exec_reads rfl ⟨choice, ran⟩])

/-! ## Encryption -/

def Seals (ext : External) (settings : Settings) (requested value : String) (op : Op) : Prop :=
  ∀ name row, op = .write (.secret name row) →
    name = trim requested ∧ ∃ key, settings.secretKey = some key ∧ ext.decrypt key row = .ok value

theorem within_createSecret (inverts : ∀ key value nonce text, ext.encrypt key value nonce = .ok text →
    ext.decrypt key ⟨text, nonce⟩ = .ok value) (requested value : String) :
    (createSecret ext settings requested value).Within (Seals ext settings requested value) fun _ => True := by
  have reads : ∀ op : Op, op.reads = true → Seals ext settings requested value op := by
    rintro _ pure _ _ rfl
    cases pure
  unfold createSecret
  cases keyed : settings.secretKey with
  | none => trivial
  | some key =>
    dsimp only
    split
    · trivial
    · refine within_call reads rfl fun nonce => ?_
      simp only [Proc.bind]
      cases encrypted : ext.encrypt key value nonce with
      | error why => trivial
      | ok text =>
        refine (within_run ?_).bind fun _ _ => (within_fetch reads _ rfl).bind fun summary _ => ?_
        · rintro _ _ ⟨⟩
          exact ⟨rfl, key, keyed, inverts key value nonce text encrypted⟩
        · cases summary <;> trivial

section
variable (idle : ∀ slot, start.threads slot = enter ext settings .idle)
include idle

theorem pending_secret (inverts : ∀ key value nonce text, ext.encrypt key value nonce = .ok text →
    ext.decrypt key ⟨text, nonce⟩ = .ok value) (run : (system ext settings).Path everything start history c) {slot : Slot}
    {name : String} {row : EncryptedSecret} (next : c.pending slot = some (.write (.secret name row))) :
    ∃ requested value key, (c.threads slot).point = .received (.createSecret requested value) ∧ name = trim requested ∧
      settings.secretKey = some key ∧ ext.decrypt key row = .ok value := by
  have may := (reached_placed idle run.reaches).pending next
  have confined : ∀ {requested value}, (c.threads slot).point = .received (.createSecret requested value) →
      (c.threads slot).code.Within (Seals ext settings requested value) fun _ => True := by
    intro requested value point
    refine reached_confined idle run.reaches slot ?_
    rw [point]
    refine (within_createSecret inverts requested value).attempt.bind fun answer _ => ?_
    split <;> trivial
  generalize (c.threads slot).point = point at may confined
  cases point with
  | received request =>
    cases request with
    | createSecret requested value =>
      obtain ⟨rest, code⟩ := pending_eq_some.mp next
      have within := confined rfl
      rw [code] at within
      obtain ⟨named, key, keyed, decrypts⟩ := within.1 name row rfl
      exact ⟨requested, value, key, rfl, named, keyed, decrypts⟩
    | _ => cases may
  | _ => cases may

/-! ## Runs -/

/-- The table keeps what the edits leave, and every removal was told what it found. -/
structure Sound (ext : External) (settings : Settings) (start : Config) (history : List Label) (c : Config) : Prop where
  keeps : ∀ name, Keeps ext settings c.state.db name (secretValue ext settings start history name)
  legal : Edit.Legal ((secretEdits ext settings start history).map Prod.snd)

omit idle in
theorem Sound.silent (sound : Sound ext settings start history c)
    (run : (system ext settings).Path everything start history c) (silent : secretEdit ext c label = none)
    (same : after.state.db.secrets = c.state.db.secrets) : Sound ext settings start (label :: history) after := by
  have edits : secretEdits ext settings start (label :: history) = secretEdits ext settings start history := by
    rw [secretEdits_cons run, silent]
    rfl
  refine ⟨fun name => ?_, ?_⟩
  · rw [secretValue, edits]
    exact (sound.keeps name).congr (by rw [same])
  · rw [edits]
    exact sound.legal

omit idle in
theorem Sound.edited (sound : Sound ext settings start history c) (run : (system ext settings).Path everything start history c)
    {slot : Slot} {edit : Edit String String} (makes : secretEdit ext c label = some (slot, edit))
    (here : Keeps ext settings after.state.db edit.key edit.leaves)
    (other : ∀ key, key ≠ edit.key → after.state.db.secrets.find key = c.state.db.secrets.find key)
    (legal : Edit.Legal (edit :: (secretEdits ext settings start history).map Prod.snd)) :
    Sound ext settings start (label :: history) after := by
  have edits : (secretEdits ext settings start (label :: history)).map Prod.snd =
      edit :: (secretEdits ext settings start history).map Prod.snd := by
    rw [secretEdits_cons run, makes]
    rfl
  refine ⟨fun name => ?_, by rw [edits]; exact legal⟩
  rw [secretValue, edits, Edit.replay]
  by_cases same : name = edit.key
  · subst same
    rw [if_pos rfl]
    exact here
  · rw [if_neg same]
    exact (sound.keeps name).congr (other name same)

theorem step_sound (inverts : ∀ key value nonce text, ext.encrypt key value nonce = .ok text →
    ext.decrypt key ⟨text, nonce⟩ = .ok value) (run : (system ext settings).Path everything start history c)
    (moved : step ext settings c label = some after) (sound : Sound ext settings start history c) :
    Sound ext settings start (label :: history) after := by
  by_cases executes : ∃ slot choice, label = .exec slot choice
  · obtain ⟨slot, choice, rfl⟩ := executes
    obtain ⟨op, rest, reply, code, next, ran, -⟩ := step_exec moved
    have edit := secretEdit_exec code ran
    cases run_effect ran with
    | none silent same => exact sound.silent run (by rw [edit, silent]; rfl) same
    | put name row isPut counts other here =>
      subst isPut
      obtain ⟨requested, value, key, point, -, keyed, decrypts⟩ := pending_secret idle inverts run next
      obtain ⟨found, there, rfl⟩ := here
      rw [counts, point] at edit
      exact sound.edited run edit ⟨key, found, keyed, there, decrypts⟩ other sound.legal
    | remove name counts other here =>
      rw [counts] at edit
      exact sound.edited run edit here other ⟨(sound.keeps name).isSome, sound.legal⟩
  · have silent : secretEdit ext c label = none := by
      unfold secretEdit
      split
      · exact absurd ⟨_, _, rfl⟩ executes
      · rfl
    refine sound.silent run silent ?_
    rcases step_db moved with ⟨same, -⟩ | ⟨slot, choice, _, _, rfl, -⟩ | ⟨hostname, affected, rfl, registered⟩
    · rw [same]
    · exact absurd ⟨slot, choice, rfl⟩ executes
    · obtain ⟨agents, same⟩ := registered_agents registered
      rw [same]

theorem path_sound (inverts : ∀ key value nonce text, ext.encrypt key value nonce = .ok text →
    ext.decrypt key ⟨text, nonce⟩ = .ok value) (empty : start.state.db.secrets = .empty)
    (run : (system ext settings).Path everything start history c) : Sound ext settings start history c := by
  induction run with
  | nil => exact ⟨fun name => by rw [show secretValue ext settings start [] name = none from rfl, Keeps, empty]; rfl, trivial⟩
  | cons run _ moved ih => exact step_sound idle inverts run moved ih

end

/-! ## One request -/

abbrev Engagement : Type := Option Request × List (Edit String String)

def engage (ext : External) (n : Nat) (c : Config) (label : Label) (served : Engagement) : Engagement :=
  match label with
  | .receive m request => if m = n then (some request, []) else served
  | label => (served.1, (((secretEdit ext c label).toList.filter fun entry => entry.1 = .request n).map Prod.snd) ++ served.2)

def engagement (ext : External) (settings : Settings) (start : Config) (n : Nat) (history : List Label) : Engagement :=
  (system ext settings).annals (engage ext n) (none, []) start history

def counting (ext : External) (point : Point) : Discipline Sig Engagement where
  exec op before reply after :=
    (∃ s s', op.exec ext s reply s') ∧ after = (before.1, (point.edit op reply).toList ++ before.2)
  rely := Eq
  guarantee _ _ _ := True

def Engaged (served : Engagement) : Point → Prop
  | .received request => served = (some request, [])
  | .picked _ _ => ∃ request, served.1 = some request ∧ ∀ response, request.Edits response served.2
  | .responded response => ∃ request, served.1 = some request ∧ request.Edits response served.2
  | .idle => True
  | _ => False

def Plain (point : Point) (op : Op) : Prop := ∀ reply : op.Reply, point.edit op reply = none

theorem holds_plain {point : Point} {E A : Type} {program : Proc Sig E A} {ends : A → Prop} {served : Engagement}
    (within : program.Within (Plain point) ends) :
    program.Holds (counting ext point) (fun value now => ends value ∧ now = served) (fun _ now => now = served) served := by
  refine within.holds (fun before after same => by rintro rfl; exact same.symm) (fun op before reply after plain same ran => ?_) rfl
  refine ⟨trivial, ?_⟩
  rw [ran.2, plain reply, same]
  rfl

theorem holds_respond {point : Point} {body : Proc Sig ApiError Answer} {served : Engagement}
    (holds : body.Holds (counting ext point) (fun answer now => match answer with
        | .response response => Engaged now (.responded (.ok response))
        | .picked task outputs => Engaged now (.picked task outputs))
      (fun why now => Engaged now (.responded (.error why))) served) :
    (respond body).Holds (counting ext point) (fun next now => Engaged now next) (fun why _ => why.elim) served := by
  refine (Proc.holds_bind _ _ _).mpr ((Proc.holds_attempt _ _).mpr (holds.mono ?_ fun _ _ failed => failed))
  intro answer now engaged
  cases answer <;> exact engaged

theorem holds_createSecret (name value : String) :
    (createSecret ext settings name value).Holds (counting ext (.received (.createSecret name value)))
      (fun answer now => match answer with
        | .response response => Engaged now (.responded (.ok response))
        | .picked task outputs => Engaged now (.picked task outputs))
      (fun why now => Engaged now (.responded (.error why))) (some (.createSecret name value), []) := by
  have fails : ∀ why, Engaged (some (.createSecret name value), []) (.responded (.error why)) :=
    fun why => ⟨_, rfl, .failed _ why nofun⟩
  unfold createSecret
  cases settings.secretKey with
  | none => exact fails _
  | some key =>
    dsimp only
    split
    · exact fails _
    · rintro _ rfl nonce _ ⟨-, rfl⟩
      refine ⟨trivial, ?_⟩
      simp only [Proc.bind]
      cases ext.encrypt key value nonce with
      | error why => exact fails _
      | ok text =>
        rintro _ rfl (why | affected) _ ⟨-, rfl⟩
        · exact ⟨trivial, fails _⟩
        · refine ⟨trivial, ?_⟩
          rintro _ rfl reply _ ⟨⟨s, s', ran⟩, rfl⟩
          refine ⟨trivial, ?_⟩
          obtain ⟨-, ⟨why, rfl⟩ | ⟨row, member, rfl⟩⟩ := exec_select ran
          · exact ⟨_, rfl, .unread name value why⟩
          · cases row with
            | none => exact ⟨_, rfl, .unread name value .rowNotFound⟩
            | some summary =>
              obtain ⟨found, -, same⟩ := Option.map_eq_some_iff.mp (List.mem_singleton.mp member).symm
              exact ⟨_, rfl, .stored name value summary (by rw [← same])⟩

theorem holds_deleteSecret (name : String) :
    (deleteSecret name).Holds (counting ext (.received (.deleteSecret name)))
      (fun answer now => match answer with
        | .response response => Engaged now (.responded (.ok response))
        | .picked task outputs => Engaged now (.picked task outputs))
      (fun why now => Engaged now (.responded (.error why))) (some (.deleteSecret name), []) := by
  rintro _ rfl (why | affected) _ ⟨-, rfl⟩
  · exact ⟨trivial, _, rfl, .failed _ _ fun _ _ _ => nofun⟩
  · refine ⟨trivial, ?_⟩
    show Proc.Holds (I := Sig) _ _ _ (if affected = 0 then _ else _) _
    cases affected with
    | zero => exact ⟨_, rfl, .missing name⟩
    | succ count => exact ⟨_, rfl, .deleted name⟩

theorem plain_may {point : Point} (unrelated : ∀ request, point = .received request → request.Unrelated) {op : Op}
    (may : point.may op = true) : Plain point op := by
  intro reply
  cases op with
  | write write =>
    cases write with
    | secret name row =>
      cases point with
      | received request =>
        cases request with
        | createSecret requested value => exact absurd rfl (unrelated _ rfl requested value).1
        | _ => cases may
      | _ => cases may
    | deleteSecret name =>
      cases point with
      | received request =>
        cases request with
        | deleteSecret requested => exact absurd rfl (unrelated _ rfl requested "").2
        | _ => cases may
      | _ => cases may
    | _ => rfl
  | _ => rfl

theorem holds_unrelated {point : Point} (unrelated : ∀ request, point = .received request → request.Unrelated)
    {body : Proc Sig ApiError Answer} {ends : Answer → Prop} (within : body.Within (fun op => point.may op = true) ends)
    {served : Engagement} {request : Request} (serves : served.1 = some request)
    (due : ∀ response, request.Edits response served.2) :
    (respond body).Holds (counting ext point) (fun next now => Engaged now next) (fun why _ => why.elim) served := by
  refine holds_respond ((holds_plain (within.mono (fun op => plain_may unrelated) fun _ ended => ended)).mono ?_ ?_)
  · rintro answer _ ⟨-, rfl⟩
    cases answer with
    | response response => exact ⟨request, serves, due _⟩
    | picked task outputs => exact ⟨request, serves, due⟩
  · rintro why _ rfl
    exact ⟨request, serves, due _⟩

theorem holds_block (point : Point) (served : Engagement) (engaged : Engaged served point) :
    (block ext settings point).Holds (counting ext point) (fun next now => Engaged now next) (fun why _ => why.elim)
      served := by
  cases point with
  | received request =>
    obtain rfl : served = (some request, []) := engaged
    by_cases creating : ∃ name value, request = .createSecret name value
    · obtain ⟨name, value, rfl⟩ := creating
      exact holds_respond (holds_createSecret name value)
    by_cases deleting : ∃ name, request = .deleteSecret name
    · obtain ⟨name, rfl⟩ := deleting
      exact holds_respond (holds_deleteSecret name)
    have unrelated : request.Unrelated := fun name value =>
      ⟨fun same => creating ⟨name, value, same⟩, fun same => deleting ⟨name, same⟩⟩
    refine holds_unrelated (fun other same => ?_) (within_handle ext settings request) rfl fun response =>
      .other request response unrelated
    cases same
    exact unrelated
  | picked task outputs =>
    obtain ⟨request, serves, due⟩ := engaged
    refine holds_unrelated (fun _ same => by cases same) (within_answerTask (fun op minor => ?_) task outputs) serves due
    exact Point.may_minor minor
  | responded response => exact engaged
  | idle => exact engaged
  | _ => exact engaged.elim

/-! ## Requests in runs -/

theorem engagement_cons (run : (system ext settings).Path everything start history c) (n : Nat) (label : Label) :
    engagement ext settings start n (label :: history) = engage ext n c label (engagement ext settings start n history) :=
  run.annals label

theorem engage_other {n : Nat} {served : Engagement} (received : ∀ request, label ≠ .receive n request)
    (executes : ∀ choice, label ≠ .exec (.request n) choice) : engage ext n c label served = served := by
  cases label with
  | receive m request => exact if_neg fun same => received request (by rw [same])
  | exec slot choice =>
    have other : slot ≠ .request n := fun same => executes choice (by rw [same])
    have tagged : ((secretEdit ext c (.exec slot choice)).toList.filter fun entry => entry.1 = .request n) = [] := by
      refine List.filter_eq_nil_iff.mpr fun entry member => ?_
      simp only [secretEdit] at member
      split at member
      · obtain ⟨ran, -, edited⟩ := Option.bind_eq_some_iff.mp (Option.mem_toList.mp member)
        obtain ⟨edit, -, rfl⟩ := Option.map_eq_some_iff.mp edited
        simpa using other
      · cases member
    simp only [engage, tagged, List.map_nil, List.nil_append]
  | _ => rfl

theorem engage_exec {n : Nat} {served : Engagement} {choice : Choice} {op : Op}
    {rest : op.Reply → Proc Sig Empty Point} {reply : op.Reply} {state : State}
    (next : (c.threads (.request n)).code = .call op rest) (ran : op.run ext choice c.state = some (reply, state)) :
    engage ext n c (.exec (.request n) choice) served =
      (served.1, ((c.threads (.request n)).point.edit op reply).toList ++ served.2) := by
  simp only [engage, secretEdit_exec next ran]
  cases (c.threads (.request n)).point.edit op reply with
  | none => rfl
  | some edit => simp

def watch (ext : External) (settings : Settings) (start : Config) (n : Nat) :
    Watch ext settings start everything (.request n) Engagement where
  view history _ := engagement ext settings start n history
  discipline := counting ext
  assertion point served := Engaged served point

theorem watch_valid (n : Nat) : (watch ext settings start n).Valid where
  refl := fun _ _ => rfl
  blocks := holds_block
  runs := by
    intro history c choice after op rest reply run admitted moved next ran
    refine ⟨⟨_, _, choice, ran⟩, ?_⟩
    exact (engagement_cons run n _).trans (engage_exec next ran)
  resumes := by
    intro history c after point run _ _ _ engaged
    have same : engagement ext settings start n (.resume (.request n) :: history) = engagement ext settings start n history :=
      (engagement_cons run n _).trans (engage_other (fun _ => nofun) fun _ => nofun)
    show Engaged (engagement ext settings start n _) point
    rw [same]
    exact engaged
  suffers := by
    intro history c label after run _ _ executes entry _ holds
    have same : engagement ext settings start n (label :: history) = engagement ext settings start n history := by
      refine (engagement_cons run n _).trans (engage_other (fun request same => ?_) executes)
      subst same
      exact entry _ (.receive n request)
    show (c.threads (.request n)).Holds _ _ (engagement ext settings start n _)
    rw [same]
    exact holds
  enters := by
    intro history c label after point run _ _ entry
    show Engaged (engagement ext settings start n _) point
    rw [engagement_cons run]
    cases entry with
    | receive n request => exact if_pos rfl
    | drop n => trivial
    | boot hostname slot => trivial
  idle := trivial

theorem engagement_since {n : Nat} {request : Request} {recent earlier : List Label}
    (run : (system ext settings).Path everything start (recent ++ .receive n request :: earlier) c)
    (latest : ∀ other, .receive n other ∉ recent) :
    ∃ made, secretEdits ext settings start (recent ++ .receive n request :: earlier) =
        made ++ secretEdits ext settings start earlier ∧
      engagement ext settings start n (recent ++ .receive n request :: earlier) =
        (some request, (made.filter fun entry => entry.1 = .request n).map Prod.snd) := by
  -- from the reception on, every edit that the task makes is counted for the request
  induction recent generalizing c with
  | nil =>
    cases run with
    | cons run _ _ => exact ⟨[], secretEdits_cons run _, (engagement_cons run n _).trans (if_pos rfl)⟩
  | cons label recent ih =>
    rw [List.cons_append] at run ⊢
    cases run with
    | @cons _ before _ _ run _ _ =>
      obtain ⟨made, edits, engaged⟩ := ih run fun other member => latest other (List.mem_cons_of_mem _ member)
      refine ⟨(secretEdit ext before label).toList ++ made, ?_, ?_⟩
      · rw [secretEdits_cons run, edits, List.append_assoc]
      · rw [engagement_cons run, engaged, List.filter_append, List.map_append]
        cases label with
        | receive m other =>
          refine if_neg fun same => ?_
          subst same
          exact latest other List.mem_cons_self
        | _ => rfl

theorem listed {rows : List SecretSummary} {db : Db} (listed : rows ∈ listSecrets db) :
    (rows.map (·.name)).Pairwise (· < ·) ∧ ∀ name, name ∈ rows.map (·.name) ↔ (db.secrets.find name).isSome := by
  obtain ⟨perm, sorted⟩ := mem_orderings.mp listed
  have names : (rows.map (·.name)).Perm (db.secrets.rows.map Prod.fst) := by
    have renamed := perm.map (·.name)
    rw [List.map_map] at renamed
    exact renamed
  refine ⟨?_, fun name => ?_⟩
  · have distinct : (rows.map (·.name)).Pairwise (· ≠ ·) := names.nodup_iff.mpr db.secrets.distinct
    exact (List.pairwise_map.mpr sorted).imp₂ (fun _ _ le ne => lt_of_le_of_ne le ne) distinct
  · rw [names.mem_iff, List.mem_map, Option.isSome_iff_exists]
    constructor
    · rintro ⟨⟨_, row⟩, member, rfl⟩
      exact ⟨row, Table.find_eq_some.mpr member⟩
    · rintro ⟨row, found⟩
      exact ⟨(name, row), Table.find_eq_some.mp found, rfl⟩

end Vault

theorem secret_store (ext : External) (settings : Settings) (files : String → Option String) (clock : Nat)
    (inverts : ∀ key value nonce text, ext.encrypt key value nonce = .ok text →
      ext.decrypt key ⟨text, nonce⟩ = .ok value) :
    SecretStore ext settings (Config.initial ext settings files clock) where
  kept := fun history c name run =>
    ((Vault.path_sound (Config.initial_idle ext settings files clock) inverts rfl run).keeps name).secret
  legal := fun history c run => (Vault.path_sound (Config.initial_idle ext settings files clock) inverts rfl run).legal
  shown := by
    intro history c rows run member
    have sound := Vault.path_sound (Config.initial_idle ext settings files clock) inverts rfl run
    obtain ⟨sorted, names⟩ := Vault.listed member
    exact ⟨sorted, fun name => by rw [names, (sound.keeps name).isSome]⟩
  answered := by
    intro recent earlier n request c response run latest responded
    obtain ⟨made, edits, engaged⟩ := Vault.engagement_since run latest
    have holds := (Vault.watch_valid n).sound (Config.initial_idle ext settings files clock _) run
    obtain ⟨other, serves, fits⟩ := Thread.Holds.at_point holds (ended_eq_some.mp responded)
    rw [show (Vault.watch ext settings _ n).view _ c = _ from engaged] at serves fits
    cases serves
    exact ⟨made, edits, fits⟩

namespace Sample

def storing (n : Nat) (name value : String) : List Label :=
  [.receive n (.createSecret name value), .exec (.request n) (.bytes (zeros 12))] ++ turns (.request n) 2

/-- A secret is stored twice, and another one is deleted in vain. -/
def rotated : List Label :=
  [.boot "localhost"] ++ storing 0 " DEPLOY_KEY " "alpha" ++ storing 1 "DEPLOY_KEY" "bravo" ++
    serve 2 (.deleteSecret "OTHER") 1

def sealedInitial : Config := Config.initial sealing keyed files 1000000

end Sample

theorem secret_store_rotated : ∃ c,
    (system Sample.sealing Sample.keyed).Path everything Sample.sealedInitial Sample.rotated.reverse c ∧
      secretEdits Sample.sealing Sample.keyed Sample.sealedInitial Sample.rotated.reverse =
        [(.request 2, .remove "OTHER" false), (.request 1, .put "DEPLOY_KEY" "bravo"),
          (.request 0, .put "DEPLOY_KEY" "alpha")] ∧
      c.state.db.secret Sample.sealing Sample.keyed "DEPLOY_KEY" = some "bravo" := by
  have passed : ((system Sample.sealing Sample.keyed).follow (fun _ _ => true) Sample.sealedInitial
      Sample.rotated).isSome = true := by
    decide +kernel
  obtain ⟨c, followed⟩ := Option.isSome_iff_exists.mp passed
  have run : (system Sample.sealing Sample.keyed).Path everything _ (_ ++ []) c :=
    (system Sample.sealing Sample.keyed).follow_path (fun _ _ _ => trivial) .nil followed
  rw [List.append_nil] at run
  have edits : secretEdits Sample.sealing Sample.keyed Sample.sealedInitial Sample.rotated.reverse =
      [(.request 2, .remove "OTHER" false), (.request 1, .put "DEPLOY_KEY" "bravo"),
        (.request 0, .put "DEPLOY_KEY" "alpha")] := by
    decide +kernel
  refine ⟨c, run, edits, ?_⟩
  have store := secret_store Sample.sealing Sample.keyed Sample.files 1000000 Sample.sealing_enciphers.inverts
  rw [store.kept _ c "DEPLOY_KEY" run]
  show Edit.replay ((secretEdits _ _ Sample.sealedInitial _).map Prod.snd) _ = _
  rw [edits]
  rfl

end PostJen.Server
