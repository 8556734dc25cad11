import Rrq.Worker.Release

-- Claiming ready jobs and handing them to execution tasks.

namespace Rrq

inductive PollError where
  | redis (error : RedisError)
  | lockTimeoutOverflow
  | lockTimeoutNotPositive
  | lockTimeoutExtensionNegative
  | permitClosed
deriving DecidableEq

namespace JobStore

def atomicClaimReadyJobs (args : Scripts.ClaimArgs) : Proc (Except PollError (List JobId)) :=
  if args.maxClaims = 0 then pure (.ok [])
  else if args.defaultLockTimeoutMs ≤ 0 then pure (.error .lockTimeoutNotPositive)
  else if args.lockTimeoutExtensionSeconds < 0 then
    pure (.error .lockTimeoutExtensionNegative)
  else do
    match ← redis (.atomicClaimReadyJobs args) with
    | .ok ids => pure (.ok ids)
    | .error error => pure (.error (.redis error))

-- The maps of a batch; a map that does not parse counts as no definition.
def getJobDefinitions (defaultMaxRetries : Int) :
    List JobId → Proc (Except RedisError (List (JobId × Option Job)))
  | [] => pure (.ok [])
  | id :: ids => do
      match ← redis (.getJobDataMap id) with
      | .error error => pure (.error error)
      | .ok map => do
          let job := map.bind fun raw => (parseJobMap raw id defaultMaxRetries).toOption
          match ← getJobDefinitions defaultMaxRetries ids with
          | .error error => pure (.error error)
          | .ok jobs => pure (.ok ((id, job) :: jobs))

inductive LoadError where
  | redis (error : RedisError)
  | parse (error : ParseError)
deriving DecidableEq

def getJobDefinition (defaultMaxRetries : Int) (id : JobId) :
    Proc (Except LoadError (Option Job)) := do
  match ← redis (.getJobDataMap id) with
  | .error error => pure (.error (.redis error))
  | .ok none => pure (.ok none)
  | .ok (some raw) =>
      match parseJobMap raw id defaultMaxRetries with
      | .ok job => pure (.ok (some job))
      | .error error => pure (.error (.parse error))

end JobStore

namespace RRQWorker

variable (self : RRQWorker)

def shutdownMessage : String := "Job execution interrupted by worker shutdown. Re-queued."
def lockTimeoutMessage : String := "Invalid lock timeout while preparing execution. Re-queued."
def refreshMessage : String := "Failed to refresh claimed job lock before dispatch. Re-queued."
def permitMessage : String :=
  "Worker concurrency permit acquisition failed before dispatch. Re-queued."

-- The lock timeout of a job in milliseconds, if it is a 64-bit number.
def jobLockTimeoutMs (settings : RRQSettings) (job : Job) : Option Int :=
  let jobTimeout := job.jobTimeoutSeconds.getD settings.defaultJobTimeoutSeconds
  (checkedAdd jobTimeout settings.defaultLockTimeoutExtensionSeconds).bind (checkedMul · 1000)

-- Hand one job to a task of its own.
def dispatch (queueName : QueueKey) (job : Job) (startTime : DateTime) : Proc Unit := do
  perform (.insertRunning self.workerId job.id { queueName })
  let task ← perform (.spawnTask self { job with startTime := some startTime } queueName)
  perform (.insertAbort self.workerId job.id task)

-- Dispatch a claimed batch. The answer is the number of jobs fetched so far, and whether
-- the poll goes on to its next claim.
def dispatchBatch (queueName : QueueKey) (count : Nat) (claimStartTime : DateTime) :
    List (JobId × Option Job) → Nat → Proc (Except PollError (Nat × Bool))
  | [], fetched => pure (.ok (fetched, true))
  | (id, jobOpt) :: batch, fetched => do
      let shutdown ← perform (.shutdownRequested self.workerId)
      if count ≤ fetched ∨ shutdown then
        releaseRemainingClaimedJobs self queueName (some shutdownMessage) ((id, jobOpt) :: batch)
        pure (.ok (fetched, false))
      else
        match jobOpt with
        | none => do
            quarantineClaimedJobWithoutDefinition self queueName id quarantineMessage
            dispatchBatch queueName count claimStartTime batch fetched
        | some job =>
            match jobLockTimeoutMs self.settings job with
            | none => do
                releaseClaimedJobsFromIndex self queueName (some lockTimeoutMessage)
                  ((id, some job) :: batch)
                pure (.error .lockTimeoutOverflow)
            | some lockTimeoutMs =>
                if lockTimeoutMs ≤ 0 then do
                  releaseClaimedJobsFromIndex self queueName (some lockTimeoutMessage)
                    ((id, some job) :: batch)
                  pure (.error .lockTimeoutNotPositive)
                else do
                  match ← redis (.refreshJobLockTimeout job.id self.workerId lockTimeoutMs) with
                  | .error error => do
                      releaseClaimedJobsFromIndex self queueName (some refreshMessage)
                        ((id, some job) :: batch)
                      pure (.error (.redis error))
                  | .ok false => do
                      releaseClaimedJob self queueName job.id job (some refreshMessage)
                      dispatchBatch queueName count claimStartTime batch fetched
                  | .ok true => do
                      let permit ← perform (.acquirePermit self.workerId)
                      if permit then
                        dispatch self queueName job (job.startTime.getD claimStartTime)
                        dispatchBatch queueName count claimStartTime batch (fetched + 1)
                      else
                        releaseClaimedJobsFromIndex self queueName (some permitMessage)
                          ((id, some job) :: batch)
                        pure (.error .permitClosed)

-- One claim from one queue.
def pollQueue (queueName : QueueKey) (count requestCount fetched : Nat) :
    Proc (Except PollError (Nat × Bool)) := do
  let claimStartTime ← perform .utcNow
  let now ← perform .utcNow
  match ← JobStore.atomicClaimReadyJobs {
      queueKey := normalizeQueueName queueName
      workerId := self.workerId
      nowMs := now.timestampMillis
      maxClaims := requestCount
      defaultLockTimeoutMs := self.provisionalClaimLockTimeoutMs
      lockTimeoutExtensionSeconds := self.settings.defaultLockTimeoutExtensionSeconds
      startTime := claimStartTime } with
  | .error error => pure (.error error)
  | .ok [] => pure (.ok (fetched, true))
  | .ok (id :: ids) =>
      match ← JobStore.getJobDefinitions self.settings.defaultMaxRetries (id :: ids) with
      | .error error => do
          releaseRemainingClaimedJobsWithoutDefinitions self queueName (id :: ids)
          pure (.error (.redis error))
      | .ok batch => dispatchBatch self queueName count claimStartTime batch fetched

-- The two passes over the queues, the first with a fair share for each.
def pollSlots (count fairShare : Nat) : List (Nat × QueueKey) → Nat → Proc (Except PollError Nat)
  | [], fetched => pure (.ok fetched)
  | (pass, queueName) :: slots, fetched => do
      let shutdown ← perform (.shutdownRequested self.workerId)
      if count ≤ fetched ∨ shutdown then pure (.ok fetched)
      else
        let remaining := count - fetched
        let requestCount := if pass = 0 then min remaining fairShare else remaining
        if requestCount = 0 then pollSlots count fairShare slots fetched
        else
          match ← pollQueue self queueName count requestCount fetched with
          | .error error => pure (.error error)
          | .ok (fetched, true) => pollSlots count fairShare slots fetched
          | .ok (fetched, false) => pure (.ok fetched)

-- The queues in turn, from the cursor on.
def queueOrder (cursor : Nat) : List QueueKey :=
  self.queues.rotate (cursor % self.queues.length)

def pollForJobs (cursor count : Nat) : Proc (Except PollError Nat) :=
  let totalQueues := self.queues.length
  let fairShare := max ((count + totalQueues - 1) / totalQueues) 1
  let pass (n : Nat) := (self.queueOrder cursor).map fun queueName => (n, queueName)
  pollSlots self count fairShare (pass 0 ++ pass 1) 0

end RRQWorker

end Rrq
