import Rrq.Worker.Poll

-- Recovering the jobs that dead workers have left active.

namespace Rrq

inductive RecoverError where
  | redis (error : RedisError)
  | parse (error : ParseError)
  | lockTimeoutOverflow
deriving DecidableEq

def RecoverError.ofLoad : JobStore.LoadError → RecoverError
  | .redis error => .redis error
  | .parse error => .parse error

inductive OrphanRequeuePostAction where
  | CleanupOnly
  | CleanupAndCount
  | PreserveActive
deriving DecidableEq

def orphanRequeuePostAction (result : Int) : OrphanRequeuePostAction :=
  if result = 0 then .CleanupOnly
  else if result = 1 ∨ result = 2 then .CleanupAndCount
  else .PreserveActive

def MAX_RECOVERIES_PER_TICK : Nat := 100

namespace Recover

def lockOwner (workerId : WorkerId) : String := "orphan-recovery-" ++ workerId

def recoverMessage (status : JobStatus) : String :=
  if status = .Active then "Recovered after lock expiry or worker crash." else ""

-- Whether a job counts against the limit of the tick, or the sweep is over.
inductive Verdict where
  | skipped
  | recovered
  | shutdown

def dropTracking (workerId : WorkerId) (id lockId : JobId) : Proc Unit := do
  let _ ← redis (.removeActiveJob workerId id)
  let _ ← redis (.releaseJobLockIfOwner lockId (lockOwner workerId))
  pure ()

def afterRequeue (workerId : WorkerId) (job : Job) :
    Except RedisError Int → Proc (Except RecoverError Verdict)
  | .error _ => do
      let _ ← redis (.releaseJobLockIfOwner job.id (lockOwner workerId))
      pure (.ok .skipped)
  | .ok result =>
      match orphanRequeuePostAction result with
      | .PreserveActive => do
          let _ ← redis (.releaseJobLockIfOwner job.id (lockOwner workerId))
          pure (.ok .skipped)
      | .CleanupOnly => do
          dropTracking workerId job.id job.id
          pure (.ok .skipped)
      | .CleanupAndCount => do
          dropTracking workerId job.id job.id
          pure (.ok .recovered)

def requeueOrphan (workerId : WorkerId) (job : Job) (queueName : QueueKey) :
    Proc (Except RecoverError Verdict) := do
  let requeueTime ← given job.nextScheduledRunTime (perform .utcNow)
  let result ← redis (.atomicRequeueJob {
    id := job.id
    queueKey := queueName
    score := requeueTime.timestampMillis
    requeueMessage := recoverMessage job.status
    releasingOwner := lockOwner workerId
    activeWorkerId := some workerId
    nextScheduled := some requeueTime })
  afterRequeue workerId job result

-- The lock of the orphan is ours from here on.
def settleOrphan (workerId : WorkerId) (id : JobId) (job : Job) (queueName : QueueKey) :
    Proc (Except RecoverError Verdict) := do
  match ← redis (.isJobQueued queueName id) with
  | .error error => pure (.error (.redis error))
  | .ok true =>
      if job.status = .Active then
        let _ ← redis (.markJobPending id none)
        dropTracking workerId id job.id
        pure (.ok .skipped)
      else
        dropTracking workerId id job.id
        pure (.ok .skipped)
  | .ok false =>
      if job.status.Live then requeueOrphan workerId job queueName
      else do
        dropTracking workerId job.id job.id
        pure (.ok .skipped)

def recoverFound (settings : RRQSettings) (workerId : WorkerId) (id : JobId) (job : Job) :
    Proc (Except RecoverError Verdict) :=
  let queueName := normalizeQueueName (job.queueName.getD settings.defaultQueueName)
  match RRQWorker.jobLockTimeoutMs settings job with
  | none => pure (.error .lockTimeoutOverflow)
  | some lockTimeoutMs =>
      if lockTimeoutMs ≤ 0 then pure (.ok .skipped)
      else do
        match ← redis (.tryLockJob job.id (lockOwner workerId) lockTimeoutMs) with
        | .error error => pure (.error (.redis error))
        | .ok false => pure (.ok .skipped)
        | .ok true => settleOrphan workerId id job queueName

def recoverJob (self : RRQWorker) (workerId : WorkerId) (id : JobId) : Proc (Except RecoverError Verdict) := do
  if ← perform (.shutdownRequested self.workerId) then pure (.ok .shutdown)
  else
    match ← redis (.getJobLockOwner id) with
    | .error error => pure (.error (.redis error))
    | .ok (some _) => pure (.ok .skipped)
    | .ok none => do
        match ← JobStore.getJobDefinition self.settings.defaultMaxRetries id with
        | .error error => pure (.error (.ofLoad error))
        | .ok none => do
            let _ ← redis (.removeActiveJob workerId id)
            pure (.ok .skipped)
        | .ok (some job) => recoverFound self.settings workerId id job

-- A sweep goes on with the number recovered so far, or is over.
def recoverIds (self : RRQWorker) (workerId : WorkerId) :
    List JobId → Nat → Proc (Except RecoverError (Nat × Bool))
  | [], recovered => pure (.ok (recovered, true))
  | id :: ids, recovered => do
      match ← recoverJob self workerId id with
      | .error error => pure (.error error)
      | .ok .shutdown => pure (.ok (recovered, false))
      | .ok .skipped => recoverIds self workerId ids recovered
      | .ok .recovered =>
          if MAX_RECOVERIES_PER_TICK ≤ recovered + 1 then pure (.ok (recovered + 1, false))
          else recoverIds self workerId ids (recovered + 1)

def sweepWorker (self : RRQWorker) (workerId : WorkerId) (recovered : Nat) :
    Proc (Except RecoverError (Nat × Bool)) := do
  match ← redis (.getWorkerHealth workerId) with
  | .error error => pure (.error (.redis error))
  | .ok healthTtl =>
      if healthTtl.any (0 < ·) then pure (.ok (recovered, true))
      else
        match ← redis (.getActiveJobIds workerId) with
        | .error error => pure (.error (.redis error))
        | .ok ids => recoverIds self workerId ids recovered

def sweepKeys (self : RRQWorker) : List String → Nat → Proc (Except RecoverError (Nat × Bool))
  | [], recovered => pure (.ok (recovered, true))
  | key :: keys, recovered =>
      let workerId := trimStartMatches key ACTIVE_JOBS_PREFIX
      if !startsWith key ACTIVE_JOBS_PREFIX || workerId = "" then sweepKeys self keys recovered
      else do
        match ← sweepWorker self workerId recovered with
        | .error error => pure (.error error)
        | .ok (recovered, true) => sweepKeys self keys recovered
        | .ok (recovered, false) => pure (.ok (recovered, false))

-- Page by page over the active sets. The fuel bounds the number of pages.
def sweepPages (self : RRQWorker) : Nat → Nat → Nat → Proc (Except RecoverError Nat)
  | 0, _, recovered => pure (.ok recovered)
  | fuel + 1, cursor, recovered => do
      match ← redis (.scanActiveJobKeys cursor) with
      | .error error => pure (.error (.redis error))
      | .ok (next, keys) => do
          match ← sweepKeys self keys recovered with
          | .error error => pure (.error error)
          | .ok (recovered, false) => pure (.ok recovered)
          | .ok (recovered, true) =>
              if next = 0 then pure (.ok recovered) else sweepPages self fuel next recovered

end Recover

def recoverOrphanedJobs (self : RRQWorker) (fuel : Nat) : Proc (Except RecoverError Nat) :=
  Recover.sweepPages self fuel 0 0

end Rrq
