import PostJen.Server.Completeness
import PostJen.Server.Ownership

/-! What a failing `execute_run` leaves behind.

An error of `execute_run` is handled by `fail_run_before_start`, which ends the
run and does not look at its node runs: a row that was live stays live.
-/

set_option autoImplicit false

open PostJen.Foundations PostJen.Core

namespace PostJen.Server

/-- A node that a worker may still start, or has started. -/
def NodeStatus.live : NodeStatus → Bool
  | .pending | .queued | .running => true
  | _ => false

def Db.Quiet (db : Db) (runId : Nat) : Prop :=
  ∀ id node, db.nodeRuns.find id = some node → node.jobRunId = runId → NodeStatus.live node.status = false

def Point.reads : Point → Bool
  | .scheduling _ | .polling _ _ | .finalizing _ => true
  | _ => false

variable {ext : External} {settings : Settings} {runId : Nat} {why : AnyError} {start rows failed last : State}

def Op.inserts (runId : Nat) : Op → Prop
  | .write (.updateNode _ _) => False
  | .write (.insertNode node) => node.jobRunId = runId
  | _ => True

end PostJen.Server
