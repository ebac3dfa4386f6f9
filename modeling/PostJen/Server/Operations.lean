import PostJen.Core.Executor
import PostJen.Server.Statements
import PostJen.Foundations.Interference
import Mathlib.Logic.Function.Basic

/-! Atomic operations of the server and their effect on its state.

An operation is one SQL statement, one access to the file system, one use of
the random source or the clock, or one finished child process. The functions of
libraries outside the repository are collected in `External`.
-/

set_option autoImplicit false

open PostJen.Foundations PostJen.Core

namespace PostJen.Server

/-- An `anyhow` error: the outermost message first, then its causes. -/
structure AnyError where
  message : String
  causes : List String
  deriving DecidableEq

namespace AnyError

def msg (message : String) : AnyError := ⟨message, []⟩

def context (error : AnyError) (message : String) : AnyError := ⟨message, error.message :: error.causes⟩

/-- `{error:#}`. -/
def chain (error : AnyError) : String := ": ".intercalate (error.message :: error.causes)

end AnyError

/-- Functions of crates whose code is not in the repository. -/
structure External where
  parseYaml : String → Except String JobDefinition
  sha256Hex : String → String
  encodeStrings : List String → String
  decodeStrings : String → Option (List String)
  encodeMap : StringMap String → String
  decodeMap : String → Option (StringMap String)
  encodeTarget : NodeTarget → String
  encodeTriggers : Triggers → String
  /-- `triggers.get("cron").and_then(as_str)` of the parsed text. -/
  decodeCron : String → Option String
  /-- A cron expression's next instant strictly after a time, in milliseconds since the epoch. -/
  schedule : String → Option (Int → Option Int)
  encrypt : String → String → String → Except String String
  decrypt : String → EncryptedSecret → Except String String

structure Settings where
  artifactsDir : String
  secretKey : Option String

structure State where
  db : Db
  files : String → Option String
  stored : String → Option String
  /-- Milliseconds since the epoch. -/
  clock : Nat

def State.now (s : State) : Timestamp := s.clock / 1000

inductive Op where
  | select (query : Select)
  | write (write : Write)
  | transact (transaction : Transaction)
  | load (path : String)
  | readFile (path : String)
  /-- The iteration order of a hash map with these keys. -/
  | order (keys : List String)
  | random (bytes : Nat)
  | clock
  | process (node : ResolvedNodeDefinition)
  | metadata (path : String)
  | copyFile (source dest : String)
  | writeFile (dest contents : String)

abbrev Op.Reply : Op → Type
  | .select query => Except SqlError query.Row
  | .write _ => Except SqlError Nat
  | .transact transaction => Except SqlError transaction.Row
  | .load _ => Except AnyError ResolvedJobDefinition
  | .readFile _ => Except String String
  | .order _ => List String
  | .random _ => String
  | .clock => Nat
  | .process _ => ChildResult
  | .metadata _ => Option Nat
  | .copyFile _ _ => Except String Unit
  | .writeFile _ _ => Except String Unit

/-- What the environment decides about one operation. -/
inductive Choice where
  | answer (index : Nat)
  | fail (text : String)
  | bytes (values : List (Fin 256))
  | child (result : ChildResult)
  | size (bytes : Option Nat)
  | contents (text : String)

def hexDigit (n : Nat) : Char :=
  (['0', '1', '2', '3', '4', '5', '6', '7', '8', '9', 'a', 'b', 'c', 'd', 'e', 'f'][n]?).getD '0'

/-- `hex::encode`. -/
def hexEncode (bytes : List (Fin 256)) : String :=
  String.ofList (bytes.flatMap fun byte => [hexDigit (byte.val / 16), hexDigit (byte.val % 16)])

theorem hexEncode_length (bytes : List (Fin 256)) : (hexEncode bytes).length = 2 * bytes.length := by
  unfold hexEncode
  rw [String.length_ofList]
  induction bytes with
  | nil => rfl
  | cons byte rest ih =>
    rw [List.flatMap_cons, List.length_append, ih, List.length_cons, List.length_cons,
      List.length_cons, List.length_nil]
    omega

/-- A path that can only name a directory: its last component is empty, `.` or `..`. -/
def namesDirectory (path : String) : Bool :=
  let name := path.toList.reverse.takeWhile (· ≠ '/')
  name = [] || name = ['.'] || name = ['.', '.']

/-- `write` and `copy` refuse to open a directory. -/
def State.store (s : State) (dest contents : String) : Except String Unit × State :=
  if namesDirectory dest then (.error "Is a directory (os error 21)", s)
  else (.ok (), { s with stored := Function.update s.stored dest (some contents) })

theorem State.store_eq {s after : State} {dest contents : String} {reply : Except String Unit}
    (ran : some (s.store dest contents) = some (reply, after)) :
    (namesDirectory dest = true ∧ (∃ why, reply = .error why) ∧ after = s) ∨
      namesDirectory dest = false ∧ reply = .ok () ∧
        after = { s with stored := Function.update s.stored dest (some contents) } := by
  unfold store at ran
  split at ran
  · rename_i directory
    cases ran
    exact .inl ⟨directory, ⟨_, rfl⟩, rfl⟩
  · rename_i file
    cases ran
    exact .inr ⟨Bool.not_eq_true _ ▸ file, rfl, rfl⟩

section
variable (ext : External)

def loadDefinition (files : String → Option String) (path : String) :
    Except AnyError ResolvedJobDefinition :=
  match files path with
  | none => .error ((AnyError.msg "No such file or directory (os error 2)").context
      ("failed to read definition file: " ++ path))
  | some contents =>
      match ext.parseYaml contents with
      | .error why => .error ((AnyError.msg why).context ("failed to parse YAML definition: " ++ path))
      | .ok definition =>
          match definition.resolve with
          | .error why => .error (.msg why)
          | .ok resolved => .ok resolved

def Op.run : (op : Op) → Choice → State → Option (op.Reply × State)
  | .select query, .answer index, s =>
      match query.answers s.db with
      | [] => some (.error .rowNotFound, s)
      | rows => rows[index]?.map fun row => (.ok row, s)
  | .select _, .fail text, s => some (.error (.failed text), s)
  | .write change, .answer _, s =>
      match change.apply s.now s.db with
      | .error why => some (.error why, s)
      | .ok (result, db) => some (.ok result, { s with db })
  | .write _, .fail text, s => some (.error (.failed text), s)
  | .transact body, .answer _, s =>
      match body.apply s.now s.db with
      | .error why => some (.error why, s)
      | .ok (result, db) => some (.ok result, { s with db })
  | .transact _, .fail text, s => some (.error (.failed text), s)
  | .load path, .answer _, s => some (loadDefinition ext s.files path, s)
  | .load path, .fail text, s =>
      some (.error ((AnyError.msg text).context ("failed to read definition file: " ++ path)), s)
  | .readFile path, .answer _, s =>
      match s.files path with
      | some contents => some (.ok contents, s)
      | none => some (.error "No such file or directory (os error 2)", s)
  | .readFile _, .fail text, s => some (.error text, s)
  | .order keys, .answer index, s => keys.permutations'[index]?.map fun keys => (keys, s)
  | .random count, .bytes values, s =>
      if values.length = count then some (hexEncode values, s) else none
  | .clock, .answer _, s => some (s.clock, s)
  | .process _, .child result, s => some (result, s)
  | .metadata _, .size bytes, s => some (bytes, s)
  | .copyFile _ dest, .contents text, s => some (s.store dest text)
  | .copyFile _ _, .fail text, s => some (.error text, s)
  | .writeFile dest contents, .answer _, s => some (s.store dest contents)
  | .writeFile _ _, .fail text, s => some (.error text, s)
  | _, _, _ => none

def Op.exec (op : Op) (before : State) (reply : op.Reply) (after : State) : Prop :=
  ∃ choice, op.run ext choice before = some (reply, after)

end

abbrev Sig : Signature := ⟨Op, Op.Reply⟩

/-! ## What an operation can do -/

variable {ext : External} {before after : State}

theorem exec_select {query : Select} {reply : Except SqlError query.Row}
    (ran : (Op.select query).exec ext before reply after) :
    after = before ∧ ((∃ why, reply = .error why) ∨ ∃ row ∈ query.answers before.db, reply = .ok row) := by
  obtain ⟨choice, ran⟩ := ran
  cases choice with
  | answer index =>
    simp only [Op.run] at ran
    split at ran
    · cases ran
      exact ⟨rfl, .inl ⟨_, rfl⟩⟩
    · obtain ⟨row, found, same⟩ := Option.map_eq_some_iff.mp ran
      cases same
      exact ⟨rfl, .inr ⟨row, List.mem_of_getElem? found, rfl⟩⟩
  | fail text =>
    cases ran
    exact ⟨rfl, .inl ⟨_, rfl⟩⟩
  | _ => cases ran

theorem select_answered {query : Select} {choice : Choice} {reply : Except SqlError query.Row}
    (ran : (Op.select query).run ext choice before = some (reply, after)) (works : ∀ text, choice ≠ .fail text)
    (answers : query.answers before.db ≠ []) : ∃ row ∈ query.answers before.db, reply = .ok row := by
  cases choice with
  | answer index =>
    simp only [Op.run] at ran
    obtain ⟨row, found, same⟩ := Option.map_eq_some_iff.mp ran
    exact ⟨row, List.mem_of_getElem? found, (Prod.mk.inj same).1.symm⟩
  | fail text => exact absurd rfl (works text)
  | _ => cases ran

theorem exec_write {write : Write} {reply : Except SqlError Nat}
    (ran : (Op.write write).exec ext before reply after) :
    ((∃ why, reply = .error why) ∧ after = before) ∨
      ∃ result db, write.apply before.now before.db = .ok (result, db) ∧ reply = .ok result ∧
        after = { before with db } := by
  obtain ⟨choice, ran⟩ := ran
  cases choice with
  | answer index =>
    simp only [Op.run] at ran
    split at ran
    · cases ran
      exact .inl ⟨⟨_, rfl⟩, rfl⟩
    · rename_i result db applied
      cases ran
      exact .inr ⟨result, db, applied, rfl, rfl⟩
  | fail text =>
    cases ran
    exact .inl ⟨⟨_, rfl⟩, rfl⟩
  | _ => cases ran

theorem updateJob_answered {id : Nat} {change : JobChange} {choice : Choice} {reply : Except SqlError Nat}
    (ran : (Op.write (.updateJob id change)).run ext choice before = some (reply, after))
    (works : ∀ text, choice ≠ .fail text) :
    after.db.jobRuns = before.db.jobRuns.updateAt id (change.apply before.now) := by
  cases choice with
  | answer index =>
    cases ran
    rfl
  | fail text => exact absurd rfl (works text)
  | _ => cases ran

theorem exec_transact {transaction : Transaction} {reply : Except SqlError transaction.Row}
    (ran : (Op.transact transaction).exec ext before reply after) :
    ((∃ why, reply = .error why) ∧ after = before) ∨
      ∃ result db, transaction.apply before.now before.db = .ok (result, db) ∧ reply = .ok result ∧
        after = { before with db } := by
  obtain ⟨choice, ran⟩ := ran
  cases choice with
  | answer index =>
    simp only [Op.run] at ran
    split at ran
    · cases ran
      exact .inl ⟨⟨_, rfl⟩, rfl⟩
    · rename_i result db applied
      cases ran
      exact .inr ⟨result, db, applied, rfl, rfl⟩
  | fail text =>
    cases ran
    exact .inl ⟨⟨_, rfl⟩, rfl⟩
  | _ => cases ran

theorem run_select {query : Select} {row : query.Row} {s : State} (answers : query.answers s.db = [row]) :
    (Op.select query).run ext (.answer 0) s = some (.ok row, s) := by
  simp only [Op.run, answers, List.getElem?_cons_zero, Option.map_some]

theorem run_write {write : Write} {affected : Nat} {db : Db} {s : State}
    (applied : write.apply s.now s.db = .ok (affected, db)) :
    (Op.write write).run ext (.answer 0) s = some (.ok affected, { s with db }) := by
  simp only [Op.run, applied]

theorem exec_writeFile {dest file : String} {reply : Except String Unit}
    (ran : (Op.writeFile dest file).exec ext before reply after) :
    (namesDirectory dest = false ∧ reply = .ok () ∧
      after = { before with stored := Function.update before.stored dest (some file) }) ∨
      ((∃ why, reply = .error why) ∧ after = before) := by
  obtain ⟨choice, ran⟩ := ran
  cases choice with
  | answer _ =>
    rcases State.store_eq ran with ⟨-, refused⟩ | written
    · exact .inr refused
    · exact .inl written
  | fail _ =>
    cases ran
    exact .inr ⟨⟨_, rfl⟩, rfl⟩
  | _ => cases ran

theorem exec_copyFile {source dest : String} {reply : Except String Unit}
    (ran : (Op.copyFile source dest).exec ext before reply after) :
    after = before ∨ ∃ file, after = { before with stored := Function.update before.stored dest (some file) } := by
  obtain ⟨choice, ran⟩ := ran
  cases choice with
  | contents text =>
    rcases State.store_eq ran with ⟨-, -, refused⟩ | ⟨-, -, written⟩
    · exact .inl refused
    · exact .inr ⟨text, written⟩
  | fail _ =>
    cases ran
    exact .inl rfl
  | _ => cases ran

def Op.writes : Op → Bool
  | .write _ | .transact _ => true
  | _ => false

theorem exec_reads {op : Op} {reply : op.Reply} (pure : op.writes = false)
    (ran : op.exec ext before reply after) : after.db = before.db := by
  obtain ⟨choice, ran⟩ := ran
  cases op with
  | write _ => cases pure
  | transact _ => cases pure
  | select query => rw [(exec_select ⟨choice, ran⟩).1]
  | readFile path =>
    cases choice with
    | answer _ =>
      simp only [Op.run] at ran
      split at ran <;> cases ran <;> rfl
    | fail _ =>
      cases ran
      rfl
    | _ => cases ran
  | order keys =>
    cases choice with
    | answer _ =>
      obtain ⟨keys, -, same⟩ := Option.map_eq_some_iff.mp ran
      cases same
      rfl
    | _ => cases ran
  | random count =>
    cases choice with
    | bytes _ =>
      simp only [Op.run] at ran
      split at ran <;> cases ran
      rfl
    | _ => cases ran
  | copyFile source dest =>
    rcases exec_copyFile ⟨choice, ran⟩ with rfl | ⟨file, rfl⟩ <;> rfl
  | writeFile dest file =>
    rcases exec_writeFile ⟨choice, ran⟩ with ⟨-, -, rfl⟩ | ⟨-, rfl⟩ <;> rfl
  | _ => cases choice <;> cases ran <;> rfl

end PostJen.Server
