import Rrq.Worker.Drain
import Rrq.Worker.Recover

-- The life of a worker. The fuel bounds the turns of its loops; without fuel it stands still.

namespace Rrq.RRQWorker

variable (self : RRQWorker)

inductive RunEnd where
  | stopped
  | failed (error : PollError)
  | unfinished

def pollLoop : Nat → Nat → Proc RunEnd
  | 0, _ => pure .unfinished
  | fuel + 1, cursor => do
      if ← perform (.shutdownRequested self.workerId) then pure .stopped
      else
        let fetchCount ← perform (.fetchCount self.workerId)
        if fetchCount = 0 then pollLoop fuel cursor
        else
          match ← pollForJobs self cursor fetchCount with
          | .error error => pure (.failed error)
          | .ok 0 => do
              let running ← perform (.runningJobs self.workerId)
              if self.burst ∧ running.isEmpty then pure .stopped else pollLoop fuel (cursor + 1)
          | .ok _ => pollLoop fuel (cursor + 1)

-- A poll that fails ends the run without a drain.
def run (fuel : Nat) : Proc Unit := do
  let _ ← perform (.spawnHeartbeat self fuel)
  match ← pollLoop self fuel 0 with
  | .failed _ => pure ()
  | .unfinished => pure ()
  | .stopped => do
      perform (.requestShutdown self.workerId)
      let _ ← drainTasks self fuel
      pure ()

def healthTtl (settings : RRQSettings) : Int :=
  asI64 (Double.add settings.workerHealthCheckIntervalSeconds
    settings.workerHealthCheckTtlBufferSeconds)

def heartbeatLoop (fuel : Nat) : Nat → Proc Unit
  | 0 => pure ()
  | turns + 1 => do
      if ← perform (.shutdownRequested self.workerId) then pure ()
      else
        let _ ← redis (.setWorkerHealth self.workerId (healthTtl self.settings))
        let _ ← recoverOrphanedJobs self fuel
        heartbeatLoop fuel turns

def taskProgram (job : Job) (queueName : QueueKey) : Proc Unit := do
  let _ ← executeJob self job queueName
  pure ()

end Rrq.RRQWorker
