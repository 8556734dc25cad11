import Rrq.Worker.Execute

-- Shutting a worker down.

namespace Rrq.RRQWorker

variable (self : RRQWorker)

-- Wait for the running jobs until the grace period ends. The fuel bounds the waiting.
def awaitRunning : Nat → Proc Bool
  | 0 => pure false
  | fuel + 1 => do
      let running ← perform (.runningJobs self.workerId)
      if running.isEmpty then pure true
      else if ← perform (.graceOver self.workerId) then pure false
      else awaitRunning fuel

def drainMessage (status : JobStatus) : String :=
  if status = .Active then shutdownMessage else ""

def drainRequeue (id : JobId) (queueName : QueueKey) (status : JobStatus) : Proc Int := do
  let now ← perform .utcNow
  let result ← redis (.atomicRequeueJob {
    id
    queueKey := normalizeQueueName queueName
    score := now.timestampMillis
    requeueMessage := drainMessage status
    releasingOwner := self.workerId
    activeWorkerId := some self.workerId
    -- Shutdown always forces "now".
    nextScheduled := none })
  pure (result.toOption.getD (-1))

-- The answer of the requeue is only logged, and the cleanup follows whatever it was.
def drainJob (id : JobId) (info : RunningJobInfo) :
    Proc (Except JobStore.LoadError Unit) := do
  match ← JobStore.getJobDefinition self.settings.defaultMaxRetries id with
  | .error error => pure (.error error)
  | .ok job => do
      let _ ← match job with
        | some job =>
            if job.status.Live then drainRequeue self id info.queueName job.status else pure 0
        | none => pure 0
      let _ ← redis (.removeActiveJob self.workerId id)
      let _ ← redis (.releaseJobLockIfOwner id self.workerId)
      pure (.ok ())

def drainJobs : List (JobId × RunningJobInfo) → Proc (Except JobStore.LoadError Unit)
  | [] => pure (.ok ())
  | (id, info) :: running => do
      match ← drainJob self id info with
      | .error error => pure (.error error)
      | .ok () => drainJobs running

def drainTasks (fuel : Nat) : Proc (Except JobStore.LoadError Unit) := do
  if ← awaitRunning self fuel then pure (.ok ())
  else
    let running ← perform (.runningJobs self.workerId)
    perform (.abortTasks self.workerId)
    drainJobs self running

end Rrq.RRQWorker
