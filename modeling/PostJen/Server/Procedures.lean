import PostJen.Server.Operations

/-! Statements as steps of procedures, with the error of the caller's `?`. -/

set_option autoImplicit false

open PostJen.Foundations PostJen.Core

namespace PostJen.Server

structure ApiError where
  status : Nat
  message : String
  deriving DecidableEq

namespace ApiError

def badRequest (message : String) : ApiError := ⟨400, message⟩

def unauthorized (message : String) : ApiError := ⟨401, message⟩

def notFound (message : String) : ApiError := ⟨404, message⟩

def conflict (message : String) : ApiError := ⟨409, message⟩

def internal (message : String) : ApiError := ⟨500, message⟩

/-- `char::escape_debug`, up to the characters beyond Latin-1 that are not printable. -/
def escapeDebug (c : Char) : List Char :=
  match c with
  | '"' => ['\\', '"']
  | '\\' => ['\\', '\\']
  | '\n' => ['\\', 'n']
  | '\t' => ['\\', 't']
  | '\r' => ['\\', 'r']
  | c =>
      if c.toNat = 0 then ['\\', '0']
      else if c.toNat < 0x20 || (0x7f ≤ c.toNat && c.toNat < 0xa0) || c.toNat = 0xad then
        "\\u\x7b".toList ++ Nat.toDigits 16 c.toNat ++ ['\x7d']
      else [c]

/-- The derived `{:?}`. -/
def debug (error : ApiError) : String :=
  "ApiError \x7b status: " ++ toString error.status ++ ", message: \"" ++
    String.ofList (error.message.toList.flatMap escapeDebug) ++ "\" \x7d"

end ApiError

/-- `From<sqlx::Error>`. -/
class FromSql (E : Type) where
  fromSql : SqlError → E

instance : FromSql AnyError := ⟨fun why => ⟨why.text, why.source⟩⟩

instance : FromSql ApiError := ⟨fun why => .internal why.text⟩

section
variable {E : Type} [FromSql E]

def orHalt {A : Type} : Except SqlError A → Proc Sig E A
  | .ok value => .done value
  | .error why => .halt (FromSql.fromSql why)

def fetch (query : Select) : Proc Sig E query.Row := .call (.select query) orHalt

def execute (write : Write) : Proc Sig E Nat := .call (.write write) orHalt

def commit (transaction : Transaction) : Proc Sig E transaction.Row :=
  .call (.transact transaction) orHalt

def run (write : Write) : Proc Sig E Unit := execute write >>= fun _ => pure ()

section
variable {exec : (op : Op) → State → Option (op.Reply × State)} {s s' : State}

theorem fetch_solo {query : Select} {row : query.Row} (ran : exec (.select query) s = some (.ok row, s)) :
    (fetch query : Proc Sig E query.Row).solo exec s = some (row, s) := by
  rw [fetch, Proc.solo_call ran]
  rfl

theorem run_solo {write : Write} {affected : Nat} (ran : exec (.write write) s = some (.ok affected, s')) :
    (run write : Proc Sig E Unit).solo exec s = some ((), s') := by
  have executed : (execute write : Proc Sig E Nat).solo exec s = some (affected, s') := by
    rw [execute, Proc.solo_call ran]
    rfl
  exact Proc.solo_bind executed

end

end

/-- Stop with the error of a computation, or continue with its value. -/
def lift {E A : Type} : Except E A → Proc Sig E A
  | .ok value => .done value
  | .error why => .halt why

end PostJen.Server
