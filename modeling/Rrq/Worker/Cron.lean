import Rrq.Cron
import Rrq.Client

-- The loop that enqueues the periodic jobs of a worker.

namespace Rrq

structure DueCronJob where
  index : Nat
  functionName : String
  params : Params
  queueName : Option String
  uniqueKey : Option String

def CronJob.dueAt (job : CronJob) (index : Nat) : DueCronJob where
  index
  functionName := job.functionName
  params := job.params
  queueName := job.queueName
  uniqueKey := if job.unique then some ("cron:" ++ job.functionName) else none

-- What a turn of the loop did: when it looked, at which jobs, and for which of them and which of
-- their times it called the client. No program reads it.
structure CronTurn where
  now : DateTime
  jobs : List CronJob
  calls : List (Nat × Option DateTime)

namespace CronLoop

variable (parse : String → Option Schedule) (settings : RRQSettings) (worker : WorkerId)

-- The jobs that are due, and all jobs once they have been looked at.
def collectDue (now : DateTime) : Nat → List CronJob →
    Proc (Option (List DueCronJob × List CronJob))
  | _, [] => pure (some ([], []))
  | index, job :: jobs => do
      if ← perform (.shutdownRequested worker) then pure none
      else
        match ← collectDue now (index + 1) jobs with
        | none => pure none
        | some (due, jobs) =>
            let after := (job.due parse now).2
            pure (some (if job.Fires parse now then after.dueAt index :: due else due,
              after :: jobs))

-- An error of the lookup counts as a lock that is free.
def lockHeld (uniqueKey : Option String) : Proc Bool :=
  match uniqueKey with
  | none => pure false
  | some key => do
      match ← redis (.getLockTtl key) with
      | .ok ttl => pure (decide (0 < ttl))
      | .error _ => pure false

def enqueueOptions (due : DueCronJob) : RRQClient.EnqueueOptions where
  queueName := due.queueName
  uniqueKey := due.uniqueKey

-- Whether the client was called.
def enqueueDue (due : DueCronJob) : Proc Bool := do
  if ← lockHeld due.uniqueKey then pure false
  else
    let _ ← RRQClient.enqueue settings due.functionName due.params (enqueueOptions due)
    pure true

-- Whether the loop is left for a shutdown, and the jobs that the client was called for.
def enqueueAll : List DueCronJob → Proc (Bool × List DueCronJob)
  | [] => pure (false, [])
  | due :: rest => do
      if ← perform (.shutdownRequested worker) then pure (true, [])
      else
        let called ← enqueueDue settings due
        let (left, later) ← enqueueAll rest
        pure (left, if called then due :: later else later)

def reschedule (now : DateTime) (due : List DueCronJob) (jobs : List CronJob) : List CronJob :=
  due.foldl (fun jobs due => jobs.modify due.index fun job => job.rescheduled parse now) jobs

def turn (now : DateTime) (jobs after : List CronJob) (called : List DueCronJob) : CronTurn where
  now
  jobs
  calls := called.map fun due => (due.index, after[due.index]?.bind CronJob.nextRunTime)

def cronLoop : Nat → List CronJob → Proc (List CronTurn)
  | 0, _ => pure []
  | fuel + 1, jobs => do
      if ← perform (.shutdownRequested worker) then pure []
      else
        let now ← perform .utcNow
        match ← collectDue parse worker now 0 jobs with
        | none => pure []
        | some (due, after) => do
            let (left, called) ← enqueueAll settings worker due
            if left then pure [turn now jobs after called]
            else
              let rest ← cronLoop fuel (reschedule parse now due after)
              pure (turn now jobs after called :: rest)

end CronLoop

end Rrq
