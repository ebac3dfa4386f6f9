import Mathlib.Data.List.AList
import Mathlib.Algebra.Order.Ring.Int
import Mathlib.Algebra.Group.Fin.Basic

/-! Status words and process outcomes shared by the server and the workers. -/

set_option autoImplicit false

namespace PostJen.Core

/-- A `HashMap<String, V>` or `BTreeMap<String, V>`. Its iteration order is
never read from this list; loops over a hash map choose their order. -/
abbrev StringMap (V : Type) := AList fun _ : String => V

theorem lookup_insert_ite {V : Type} (map : StringMap V) (key other : String) (value : V) :
    (map.insert key value).lookup other = if other = key then some value else map.lookup other := by
  by_cases same : other = key
  · subst same
    rw [if_pos rfl, AList.lookup_insert]
  · rw [if_neg same, AList.lookup_insert_ne same]

theorem lookup_erase_ite {V : Type} (map : StringMap V) (key other : String) :
    (map.erase key).lookup other = if other = key then none else map.lookup other := by
  by_cases same : other = key
  · subst same
    rw [if_pos rfl, AList.lookup_erase]
  · rw [if_neg same, AList.lookup_erase_ne same]

inductive JobStatus where
  | created | queued | running | cancelRequested | success | failed | timedOut | canceled
  deriving DecidableEq, Repr

inductive NodeStatus where
  | pending | queued | running | success | failed | timedOut | cancelRequested | canceled | skipped
  deriving DecidableEq, Repr

inductive AgentStatus where
  | online | offline
  deriving DecidableEq, Repr

def JobStatus.text : JobStatus → String
  | .created => "created"
  | .queued => "queued"
  | .running => "running"
  | .cancelRequested => "cancel_requested"
  | .success => "success"
  | .failed => "failed"
  | .timedOut => "timed_out"
  | .canceled => "canceled"

def NodeStatus.text : NodeStatus → String
  | .pending => "pending"
  | .queued => "queued"
  | .running => "running"
  | .success => "success"
  | .failed => "failed"
  | .timedOut => "timed_out"
  | .cancelRequested => "cancel_requested"
  | .canceled => "canceled"
  | .skipped => "skipped"

def JobStatus.terminal : JobStatus → Bool
  | .success | .failed | .timedOut | .canceled => true
  | _ => false

def NodeStatus.terminal : NodeStatus → Bool
  | .success | .failed | .timedOut | .canceled | .skipped => true
  | _ => false

def NodeStatus.reported : NodeStatus → Bool
  | .success | .failed | .timedOut | .canceled => true
  | _ => false

theorem NodeStatus.terminal_of_reported {status : NodeStatus} (reported : status.reported = true) :
    status.terminal = true := by
  cases status <;> first | rfl | cases reported

structure NodeExecutionOutcome where
  status : NodeStatus
  exitCode : Option Int
  failureReason : Option String
  stdout : String
  stderr : String
  deriving DecidableEq, Repr

namespace NodeExecutionOutcome

def success (exitCode : Option Int) : NodeExecutionOutcome :=
  ⟨.success, exitCode, none, "", ""⟩

def failed (reason : String) : NodeExecutionOutcome :=
  ⟨.failed, none, some reason, "", ""⟩

def failedWithExit (exitCode : Option Int) (reason : String) : NodeExecutionOutcome :=
  ⟨.failed, exitCode, some reason, "", ""⟩

def timedOut : NodeExecutionOutcome :=
  ⟨.timedOut, none, some "node timed out", "", ""⟩

def canceled : NodeExecutionOutcome :=
  ⟨.canceled, none, some "node canceled", "", ""⟩

end NodeExecutionOutcome

structure ArtifactResult where
  path : String
  resolvedPath : String
  required : Bool
  existsFlag : Bool
  sizeBytes : Option Int
  deriving DecidableEq, Repr

/-- Unicode `White_Space`, the class that `str::trim` removes. -/
def isWhiteSpace (c : Char) : Bool :=
  (0x9 ≤ c.toNat && c.toNat ≤ 0xD) || c.toNat = 0x20 || c.toNat = 0x85 || c.toNat = 0xA0 ||
    c.toNat = 0x1680 || (0x2000 ≤ c.toNat && c.toNat ≤ 0x200A) || c.toNat = 0x2028 ||
    c.toNat = 0x2029 || c.toNat = 0x202F || c.toNat = 0x205F || c.toNat = 0x3000

def trim (text : String) : String :=
  String.ofList ((text.toList.dropWhile isWhiteSpace).reverse.dropWhile isWhiteSpace).reverse

example : trim "  build \n" = "build" := by decide

end PostJen.Core
