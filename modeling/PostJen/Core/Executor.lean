import PostJen.Core.Definition

/-! The process executor: what a child's end means for its node, and the check
of declared outputs. -/

set_option autoImplicit false

namespace PostJen.Core

/-- How the loop of `run_process` ended when nobody cancels. -/
inductive ChildEnd where
  | spawnFailed (error : String)
  | timedOut
  | exited (code : Option Int)
  | checkFailed (error : String)
  deriving DecidableEq, Repr

structure ChildResult where
  ended : ChildEnd
  stdout : String
  stderr : String
  deriving DecidableEq, Repr

/-- Rust's `{:?}` of an exit code. -/
def debugCode : Option Int → String
  | some code => "Some(" ++ toString code ++ ")"
  | none => "None"

def ChildEnd.outcome : ChildEnd → NodeExecutionOutcome
  | .spawnFailed error => .failed ("failed to spawn process: " ++ error)
  | .timedOut => .timedOut
  | .exited code =>
      if code = some 0 then .success code
      else .failedWithExit code ("process exited with status " ++ debugCode code)
  | .checkFailed error => .failed ("failed to check process status: " ++ error)

/-- A child that was never spawned has no output. -/
def ChildResult.outcome (result : ChildResult) : NodeExecutionOutcome :=
  match result.ended with
  | .spawnFailed _ => result.ended.outcome
  | _ => { result.ended.outcome with stdout := result.stdout, stderr := result.stderr }

theorem ChildResult.outcome_reported (result : ChildResult) : result.outcome.status.reported = true := by
  obtain ⟨ended, stdout, stderr⟩ := result
  cases ended with
  | exited code =>
    simp only [outcome, ChildEnd.outcome]
    split <;> rfl
  | _ => rfl

def isAbsolute (path : String) : Bool :=
  path.toList.head? = some '/'

/-- `PathBuf::join`: an absolute argument replaces the base. -/
def joinPath (base path : String) : String :=
  if isAbsolute path || base = "" then path
  else if base.toList.getLast? = some '/' then base ++ path
  else base ++ "/" ++ path

def resolveOutputPath (workingDir : String) (output : ResolvedNodeOutput) : String :=
  joinPath workingDir output.path

/-- One turn of the loop of `check_outputs`, given the file's size if it exists. -/
def checkOutput (workingDir : String) (output : ResolvedNodeOutput) (size : Option Nat) :
    ArtifactResult where
  path := output.path
  resolvedPath := resolveOutputPath workingDir output
  required := output.required
  existsFlag := size.isSome
  sizeBytes := size.bind fun bytes => if bytes < 2 ^ 63 then some (bytes : Int) else none

def missingArtifactsReason (results : List ArtifactResult) : Option String :=
  let missing := (results.filter fun result => result.required && !result.existsFlag).map (·.path)
  if missing = [] then none
  else some ("required outputs missing: " ++ ", ".intercalate missing)

end PostJen.Core
