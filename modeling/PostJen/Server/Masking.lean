import PostJen.Server.Operations

/-! The database without the values of its secrets.

Masking keeps the names and the stamps of the secrets. Statements commute with
it, besides the two that move a value into or out of the table, so states that
are equal when masked stay so under equal statements.
-/

set_option autoImplicit false

open PostJen.Foundations PostJen.Core

namespace PostJen.Server

def SecretRow.masked (row : SecretRow) : SecretRow := { row with encryptedValue := "", nonce := "" }

def Db.masked (db : Db) : Db := { db with secrets := db.secrets.update fun _ row => row.masked }

def State.masked (s : State) : State := { s with db := s.db.masked }

def Db.SameButSecrets (db db' : Db) : Prop := db' = { db with secrets := db'.secrets }

theorem Db.sameButSecrets_of_masked {db db' : Db} (same : db.masked = db'.masked) : db.SameButSecrets db' := by
  obtain ⟨_, _, _, _, _, _, _, _⟩ := db
  obtain ⟨_, _, _, _, _, _, _, _⟩ := db'
  simp only [Db.masked, Db.mk.injEq] at same
  obtain ⟨rfl, rfl, rfl, rfl, rfl, rfl, rfl, -⟩ := same
  rfl

/-! ## Statements -/

/-- Statements that neither read nor write the value of a secret. -/
def Op.discreet : Op → Bool
  | .select (.secret _) => false
  | .write (.secret _ _) => false
  | _ => true

theorem answers_masked {query : Select} (discreet : (Op.select query).discreet = true) (db : Db) :
    query.answers db.masked = query.answers db := by
  cases query with
  | secret name => cases discreet
  | secretSummary name =>
    simp only [Select.answers, Db.masked, Table.find_update, Option.map_map]
    rfl
  | _ => rfl

theorem write_masked {write : Write} (discreet : (Op.write write).discreet = true) (now : Timestamp) (db : Db) :
    write.apply now db.masked = (write.apply now db).map fun result => (result.1, result.2.masked) := by
  cases write with
  | secret name value => cases discreet
  | updateNode _ _ => rfl
  | updateJob _ _ => rfl
  | agents write =>
    have same : db.masked.agents = db.agents := rfl
    simp only [Write.apply, same]
    cases write.apply now db.agents with
    | error why => rfl
    | ok changed => rfl
  | deleteSecret name =>
    simp only [Write.apply, Db.masked, Table.count_update, ← Table.update_delete]
    rfl
  | _ =>
    simp only [Write.apply, apply_ite (Except.map _)]
    rfl

theorem transaction_masked (transaction : Transaction) (now : Timestamp) (db : Db) :
    transaction.apply now db.masked =
      (transaction.apply now db).map fun result => (result.1, result.2.masked) := by
  cases transaction with
  | registerJob definition =>
    have same : db.masked.jobDefinitions = db.jobDefinitions := rfl
    simp only [Transaction.apply, same]
    cases db.jobDefinitions.rows.find? fun row => row.2.jobId = definition.jobId with
    | none => rfl
    | some found => rfl
  | _ =>
    simp only [Transaction.apply, apply_ite (Except.map _)]
    rfl

theorem secret_masked (name : String) (value value' : EncryptedSecret) (now : Timestamp) {db db' after : Db}
    {affected : Nat} (same : db.masked = db'.masked)
    (applied : (Write.secret name value).apply now db = .ok (affected, after)) :
    ∃ after', (Write.secret name value').apply now db' = .ok (affected, after') ∧ after.masked = after'.masked := by
  cases applied
  refine ⟨_, rfl, ?_⟩
  have stored : ∀ (value : EncryptedSecret) (secrets : Table String SecretRow),
      (secrets.upsert name ⟨value.encryptedValue, value.nonce, now, now⟩ fun old =>
          ⟨value.encryptedValue, value.nonce, old.createdAt, now⟩).update (fun _ row => row.masked) =
        (secrets.update fun _ row => row.masked).upsert name ⟨"", "", now, now⟩ fun old => ⟨"", "", old.createdAt, now⟩ :=
    fun value secrets => Table.update_upsert secrets fun _ => rfl
  simp only [Db.masked, Db.mk.injEq] at same ⊢
  obtain ⟨definitions, runs, agents, nodes, events, logs, artifacts, secrets⟩ := same
  refine ⟨definitions, runs, agents, nodes, events, logs, artifacts, ?_⟩
  rw [stored, stored, secrets]

variable {ext : External}

theorem store_masked (s : State) (dest contents : String) :
    s.masked.store dest contents = ((s.store dest contents).1, (s.store dest contents).2.masked) := by
  unfold State.store
  split <;> rfl

theorem run_masked {op : Op} (discreet : op.discreet = true) (choice : Choice) (s : State) :
    op.run ext choice s.masked = (op.run ext choice s).map fun result => (result.1, result.2.masked) := by
  -- only secrets are masked, and no discreet statement looks at them
  cases op with
  | select query =>
    cases choice with
    | answer index =>
      simp only [Op.run, State.masked, answers_masked discreet]
      cases query.answers s.db with
      | nil => rfl
      | cons row rows =>
        simp only [Option.map_map]
        rfl
    | _ => rfl
  | write write =>
    cases choice with
    | answer _ =>
      have applied : write.apply s.masked.now s.masked.db = _ := write_masked discreet s.now s.db
      simp only [Op.run, applied]
      cases write.apply s.now s.db with
      | error why => rfl
      | ok result => rfl
    | _ => rfl
  | transact transaction =>
    cases choice with
    | answer _ =>
      have applied : transaction.apply s.masked.now s.masked.db = _ := transaction_masked transaction s.now s.db
      simp only [Op.run, applied]
      cases transaction.apply s.now s.db with
      | error why => rfl
      | ok result => rfl
    | _ => rfl
  | readFile path =>
    cases choice with
    | answer _ =>
      have same : s.masked.files = s.files := rfl
      simp only [Op.run, same]
      cases s.files path <;> rfl
    | _ => rfl
  | order keys =>
    cases choice with
    | answer index =>
      simp only [Op.run, Option.map_map]
      rfl
    | _ => rfl
  | random count =>
    cases choice with
    | bytes values =>
      simp only [Op.run, apply_ite (Option.map _)]
      rfl
    | _ => rfl
  | copyFile source dest =>
    cases choice with
    | contents text => simp only [Op.run, store_masked, Option.map_some]
    | _ => rfl
  | writeFile dest contents =>
    cases choice with
    | answer _ => simp only [Op.run, store_masked, Option.map_some]
    | _ => rfl
  | _ => cases choice <;> rfl

/-- An operation has the same effect on states that only differ in the values of secrets. -/
theorem run_discreet {op : Op} (discreet : op.discreet = true) {choice : Choice} {s s' after : State}
    {reply : op.Reply} (same : s.masked = s'.masked) (ran : op.run ext choice s = some (reply, after)) :
    ∃ after', op.run ext choice s' = some (reply, after') ∧ after.masked = after'.masked := by
  have masked : op.run ext choice s.masked = _ := run_masked discreet choice s
  rw [ran, same, run_masked discreet choice s', Option.map_some] at masked
  obtain ⟨⟨reply', after'⟩, ran', both⟩ := Option.map_eq_some_iff.mp masked
  obtain ⟨rfl, states⟩ := Prod.mk.inj both
  exact ⟨after', ran', states.symm⟩

theorem run_secret {name : String} {value : EncryptedSecret} (value' : EncryptedSecret) {choice : Choice} {s s' after : State}
    {reply : (Op.write (.secret name value)).Reply} (same : s.masked = s'.masked)
    (ran : (Op.write (.secret name value)).run ext choice s = some (reply, after)) :
    ∃ after', (Op.write (.secret name value')).run ext choice s' = some (reply, after') ∧
      after.masked = after'.masked := by
  cases choice with
  | answer index =>
    obtain ⟨rfl, rfl⟩ := Prod.mk.inj (Option.some.inj ran)
    obtain ⟨db, files, stored, clock⟩ := s
    obtain ⟨db', _, _, _⟩ := s'
    simp only [State.masked, State.mk.injEq] at same
    obtain ⟨tables, rfl, rfl, rfl⟩ := same
    obtain ⟨db'', applied, masked⟩ := secret_masked name value value' (clock / 1000) tables rfl
    refine ⟨_, rfl, ?_⟩
    cases applied
    simp only [State.masked, State.mk.injEq, and_self, and_true]
    exact masked
  | fail text =>
    cases ran
    exact ⟨s', rfl, same⟩
  | _ => cases ran

/-! ## Values -/

def External.Opens (ext : External) (settings : Settings) (secret : EncryptedSecret) : Prop :=
  ∀ key, settings.secretKey = some key → ∃ value, ext.decrypt key secret = .ok value

def Db.Open (ext : External) (settings : Settings) (db : Db) : Prop :=
  ∀ name row, db.secrets.find name = some row → ext.Opens settings ⟨row.encryptedValue, row.nonce⟩

theorem write_open {settings : Settings} {write : Write} {now : Timestamp} {db after : Db} {affected : Nat}
    (stored : ∀ name value, write = .secret name value → ext.Opens settings value)
    (applied : write.apply now db = .ok (affected, after)) (all : db.Open ext settings) : after.Open ext settings := by
  cases write with
  | secret name value =>
    cases applied
    intro other row found
    rw [Table.find_upsert] at found
    split at found
    · have opens := stored name value rfl
      cases found
      cases db.secrets.find name <;> exact opens
    · exact all other row found
  | deleteSecret name =>
    cases applied
    intro other row found
    rw [Table.find_delete, Option.filter_eq_some_iff] at found
    exact all other row found.1
  | agents write =>
    simp only [Write.apply] at applied
    split at applied
    · cases applied
    · cases applied
      exact all
  | updateNode _ _ =>
    cases applied
    exact all
  | updateJob _ _ =>
    cases applied
    exact all
  | _ =>
    simp only [Write.apply] at applied
    repeat' split at applied
    all_goals cases applied
    all_goals exact all

theorem transaction_open {settings : Settings} {transaction : Transaction} {now : Timestamp} {db after : Db}
    {row : transaction.Row} (applied : transaction.apply now db = .ok (row, after)) (all : db.Open ext settings) :
    after.Open ext settings := by
  cases transaction <;>
  · simp only [Transaction.apply] at applied
    split at applied <;> cases applied <;> exact all

theorem run_open {settings : Settings} {op : Op} {choice : Choice} {s after : State} {reply : op.Reply}
    (stored : ∀ name value, op = .write (.secret name value) → ext.Opens settings value)
    (ran : op.run ext choice s = some (reply, after)) (all : s.db.Open ext settings) : after.db.Open ext settings := by
  cases op with
  | write write =>
    rcases exec_write ⟨choice, ran⟩ with ⟨-, rfl⟩ | ⟨_, _, applied, -, rfl⟩
    · exact all
    · exact write_open (fun name value same => stored name value (congrArg Op.write same)) applied all
  | transact transaction =>
    rcases exec_transact ⟨choice, ran⟩ with ⟨-, rfl⟩ | ⟨_, _, applied, -, rfl⟩
    · exact all
    · exact transaction_open applied all
  | _ =>
    have same := exec_reads rfl ⟨choice, ran⟩
    rw [same]
    exact all

end PostJen.Server
