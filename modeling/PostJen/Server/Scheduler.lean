import PostJen.Server.Http

/-! The cron scheduler of `scheduler.rs`. -/

set_option autoImplicit false

open PostJen.Foundations PostJen.Core

namespace PostJen.Server

def triggerStart (lastTriggeredAt : Option Timestamp) (now : Nat) : Int :=
  match lastTriggeredAt with
  | some last => (last * 1000 : Nat)
  | none => (now : Int) - 60000

/-- The first scheduled instant after the last trigger, or within the last
minute for a job that never fired, has passed. -/
def shouldTrigger (next : Int → Option Int) (lastTriggeredAt : Option Timestamp) (now : Nat) : Bool :=
  (next (triggerStart lastTriggeredAt now)).any fun instant => instant < (now : Int)

def CronJob.newRun (job : CronJob) (workingDir : String) (now : Nat) : NewRun where
  jobDefinitionId := job.id
  jobId := job.jobId
  jobName := job.name
  triggerType := "cron"
  triggeredBy := some "scheduler"
  definitionPath := job.definitionPath
  definitionHash := job.definitionHash
  workingDir
  paramsJson := none
  rerunOfJobRunId := none
  message := "cron triggered"
  lastTriggeredAt := some (now / 1000)

/-- The body of the loop over the jobs; a job that cannot fire is skipped. -/
def triggerCronJob (ext : External) (now : Nat) (job : CronJob) : Proc Sig AnyError Unit :=
  match (job.triggersJson.bind ext.decodeCron).bind ext.schedule with
  | none => .done ()
  | some next =>
      if shouldTrigger next job.lastTriggeredAt now then
        .call (.load job.definitionPath) fun reply =>
          match (reply : Except AnyError ResolvedJobDefinition) with
          | .error _ => .done ()
          | .ok definition => do
              let _ ← commit (.createRun (job.newRun definition.workingDir now))
              return ()
      else .done ()

def cronJobs : Proc Sig AnyError (List CronJob × Nat) := do
  let jobs ← fetch .cronJobs
  let now ← Proc.call .clock .done
  return (jobs, now)

end PostJen.Server
