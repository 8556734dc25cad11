import Rrq.Store.Scripts
import Rrq.Producer.Scripts

-- The methods of the job store, each one command, one pipeline or one script.

namespace Rrq

inductive RedisError where
  | failed
  | wrongType
deriving DecidableEq

-- What befalls a command: nothing, a failure without effect, or a failure inside a script
-- after some of its calls.
inductive Fault where
  | none
  | refused
  | stops (calls : Nat)
deriving DecidableEq

-- The script under this fault makes so many calls.
def Fault.Reaches : Fault → Nat → Prop
  | none, _ => True
  | refused, _ => False
  | stops n, calls => calls ≤ n

inductive Cmd where
  | getJobDataMap (id : JobId)
  | isJobQueued (queueKey : QueueKey) (id : JobId)
  | addJobToQueue (queueKey : QueueKey) (id : JobId) (score : ℚ)
  | removeJobFromQueue (queueKey : QueueKey) (id : JobId)
  | atomicEnqueueJob (id : JobId) (queueKey : QueueKey) (mapping : JobHash) (score : ℚ)
  | atomicClaimReadyJobs (args : Scripts.ClaimArgs)
  | refreshJobLockTimeout (id : JobId) (workerId : WorkerId) (lockTimeoutMs : Int)
  | releaseJobLock (id : JobId)
  | releaseJobLockIfOwner (id : JobId) (owner : String)
  | tryLockJob (id : JobId) (owner : String) (lockTimeoutMs : Int)
  | getJobLockOwner (id : JobId)
  | markJobPending (id : JobId) (lastError : Option String)
  | updateJobNextScheduledRunTime (id : JobId) (time : DateTime)
  | updateJobStatus (id : JobId) (status : JobStatus)
  | atomicRetryJob (id : JobId) (queueKey : QueueKey) (score : ℚ) (errorMessage : String)
      (status : JobStatus)
  | atomicMoveJobToDlq (id : JobId) (dlqKey : String) (errorMessage : String)
      (completionTime : DateTime) (dlqTtl : Int) (uniqueLockKey : Option String)
  | moveJobToDlq (id : JobId) (dlqKey : String) (errorMessage : String)
      (completionTime : DateTime)
  | atomicRequeueJob (args : Scripts.RequeueArgs)
  | saveJobResult (id : JobId) (result : Json) (ttlSeconds : Int) (completionTime : DateTime)
  | removeActiveJob (workerId : WorkerId) (id : JobId)
  | acquireUniqueJobLock (key : String) (id : JobId) (ttlSeconds : Int)
  | releaseUniqueJobLock (key : String)
  | getLockTtl (key : String)
  | setWorkerHealth (workerId : WorkerId) (ttlSeconds : Int)
  | getWorkerHealth (workerId : WorkerId)
  | scanActiveJobKeys (cursor : Nat)
  | getActiveJobIds (workerId : WorkerId)
  -- The scripts of the producer.
  | producerEnqueue (args : Producer.JobArgs) (idempotencyKey : Option String) (ttlSeconds : Int)
  | producerRateLimit (args : Producer.JobArgs) (rateKey : String) (ttlSeconds : Int)
  | producerDebounce (args : Producer.JobArgs) (debounceKey : String) (ttlSeconds : Int)

namespace Cmd

@[reducible] def Answer : Cmd → Type
  | getJobDataMap _ => Option JobHash
  | isJobQueued _ _ => Bool
  | addJobToQueue _ _ _ => Unit
  | removeJobFromQueue _ _ => Int
  | atomicEnqueueJob _ _ _ _ => Bool
  | atomicClaimReadyJobs _ => List JobId
  | refreshJobLockTimeout _ _ _ => Bool
  | releaseJobLock _ => Unit
  | releaseJobLockIfOwner _ _ => Bool
  | tryLockJob _ _ _ => Bool
  | getJobLockOwner _ => Option String
  | markJobPending _ _ => Unit
  | updateJobNextScheduledRunTime _ _ => Unit
  | updateJobStatus _ _ => Unit
  | atomicRetryJob _ _ _ _ _ => Int
  | atomicMoveJobToDlq _ _ _ _ _ _ => Int
  | moveJobToDlq _ _ _ _ => Unit
  | atomicRequeueJob _ => Int
  | saveJobResult _ _ _ _ => Unit
  | removeActiveJob _ _ => Unit
  | acquireUniqueJobLock _ _ _ => Bool
  | releaseUniqueJobLock _ => Unit
  | getLockTtl _ => Int
  | setWorkerHealth _ _ => Unit
  | getWorkerHealth _ => Option Int
  | scanActiveJobKeys _ => Nat × List String
  | getActiveJobIds _ => List JobId
  | producerEnqueue _ _ _ => Producer.Reply
  | producerRateLimit _ _ _ => Producer.Reply
  | producerDebounce _ _ _ => Producer.Reply

end Cmd

-- The pipelines of the job store run as one transaction.
namespace Pipelines

def markJobPending (id : JobId) (lastError : Option String) (s : Store) : Store :=
  (s.hset id fun h => { h with
      status := some JobStatus.Pending.asStr
      lastError := lastError.or h.lastError }).hdel id
    fun h => { h with startTime := none, workerId := none }

def moveJobToDlq (id : JobId) (dlqKey errorMessage : String) (completionTime : DateTime)
    (s : Store) : Store :=
  (((((s.hset id fun h => { h with
      status := some JobStatus.Failed.asStr
      lastError := some errorMessage
      completionTime := some (.val completionTime) }).xadd id (Scripts.failedEvent id)).lpush
    dlqKey id).expireJob id DEFAULT_DLQ_RESULT_TTL_SECONDS).expireEvents id
      DEFAULT_DLQ_RESULT_TTL_SECONDS)

def completedEvent (id : JobId) : Event :=
  { event := "completed", jobId := id, status := JobStatus.Completed.asStr }

def recordResult (id : JobId) (result : Json) (completionTime : DateTime) (s : Store) : Store :=
  (s.hset id fun h => { h with
    result := some (.val result)
    completionTime := some (.val completionTime)
    status := some JobStatus.Completed.asStr }).xadd id (completedEvent id)

-- The answer says whether every command of the transaction was taken.
def saveJobResult (id : JobId) (result : Json) (ttlSeconds : Int) (completionTime : DateTime)
    (s : Store) : Bool × Store :=
  let recorded := recordResult id result completionTime s
  if 0 < ttlSeconds then
    if recorded.ExpiryOk (ttlSeconds * 1000) then
      (true, (recorded.expireJob id ttlSeconds).expireEvents id ttlSeconds)
    else (false, recorded)
  else if ttlSeconds = 0 then (true, (recorded.persistJob id).persistEvents id)
  else (true, recorded)

end Pipelines

namespace Cmd

abbrev Result (α : Type) := Except RedisError α × Store

-- A command or a transaction: a fault leaves no trace.
def single {α : Type} (fault : Fault) (s : Store) (command : Store → Result α) : Result α :=
  match fault with
  | .none => command s
  | _ => (.error .failed, s)

def reply {α : Type} (value : α) (s : Store) : Result α := (.ok value, s)

-- A script: a fault inside keeps what was written before it.
def script {α β : Type} (fault : Fault) (s : Store) (error : RedisError)
    (body : Script Store α) (answer : α → β) : Result β :=
  match fault with
  | .refused => (.error .failed, s)
  | .none =>
      let (result, s) := body.run none s
      ((result.map fun value => Except.ok (answer value)).getD (.error error), s)
  | .stops calls =>
      let (result, s) := body.run (some calls) s
      ((result.map fun value => Except.ok (answer value)).getD (.error error), s)

def lockError (s : Store) (id : JobId) : RedisError :=
  if s.lock id = some .malformed then .wrongType else .failed

-- TTL in whole seconds, to the nearest.
def ttl {α : Type} (s : Store) (cell : Volatile α) : Int :=
  match cell.expireAt with
  | none => -1
  | some time => (time - s.now + 500) / 1000

def exec (fault : Fault) (page : Nat × List String) : (c : Cmd) → Store → Result c.Answer
  | getJobDataMap id, s => single fault s fun s => reply (s.hash id) s
  | isJobQueued queueKey id, s =>
      single fault s fun s => reply (decide (id ∈ s.queues queueKey)) s
  | addJobToQueue queueKey id score, s =>
      single fault s fun s => reply () (s.zadd queueKey id score)
  | removeJobFromQueue queueKey id, s => single fault s fun s =>
      reply (if id ∈ s.queues queueKey then 1 else 0) (s.zrem queueKey id)
  | atomicEnqueueJob id queueKey mapping score, s =>
      script fault s .failed (Scripts.enqueue id queueKey mapping score) (decide <| · = 1)
  | atomicClaimReadyJobs args, s => script fault s .failed (Scripts.claimReady args) id
  | refreshJobLockTimeout id workerId lockTimeoutMs, s =>
      script fault s (lockError s id) (Scripts.refreshLock id workerId lockTimeoutMs)
        (decide <| · ≠ 0)
  | releaseJobLock id, s => single fault s fun s => reply () (s.delLock id)
  | releaseJobLockIfOwner id owner, s =>
      script fault s (lockError s id) (Scripts.releaseLockIfOwner id owner) (decide <| · ≠ 0)
  | tryLockJob id owner lockTimeoutMs, s => single fault s fun s =>
      match s.setLockNx id owner lockTimeoutMs with
      | some (taken, s) => reply taken s
      | none => (.error .failed, s)
  | getJobLockOwner id, s => single fault s fun s =>
      match s.getLock id with
      | some (owner, s) => reply owner s
      | none => (.error .wrongType, s)
  | markJobPending id lastError, s =>
      single fault s fun s => reply () (Pipelines.markJobPending id lastError s)
  | updateJobNextScheduledRunTime id time, s => single fault s fun s =>
      reply () (s.hset id fun h => { h with nextScheduledRunTime := some (.val time) })
  | updateJobStatus id status, s => single fault s fun s =>
      reply () (s.hset id fun h => { h with status := some status.asStr })
  | atomicRetryJob id queueKey score errorMessage status, s =>
      script fault s .failed (Scripts.retry id queueKey score errorMessage status) fun n => n
  | atomicMoveJobToDlq id dlqKey errorMessage completionTime dlqTtl uniqueLockKey, s =>
      script fault s .failed
        (Scripts.moveToDlq id dlqKey errorMessage completionTime dlqTtl uniqueLockKey) fun n => n
  | moveJobToDlq id dlqKey errorMessage completionTime, s => single fault s fun s =>
      reply () (Pipelines.moveJobToDlq id dlqKey errorMessage completionTime s)
  | atomicRequeueJob args, s => script fault s .failed (Scripts.requeueJob args) fun n => n
  | saveJobResult id result ttlSeconds completionTime, s => single fault s fun s =>
      match Pipelines.saveJobResult id result ttlSeconds completionTime s with
      | (true, s) => reply () s
      | (false, s) => (.error .failed, s)
  | removeActiveJob workerId id, s => single fault s fun s => reply () (s.zremActive workerId id)
  | acquireUniqueJobLock key id ttlSeconds, s => single fault s fun s =>
      if 0 < ttlSeconds ∧ s.ExpiryOk (ttlSeconds * 1000) then
        if (s.uniqueLocks key).isSome then reply false s
        else reply true (s.setUniqueLock key
          (some { value := id, expireAt := some (s.now + ttlSeconds * 1000) }))
      else (.error .failed, s)
  | releaseUniqueJobLock key, s => single fault s fun s => reply () (s.setUniqueLock key none)
  | getLockTtl key, s => single fault s fun s =>
      let remaining := ((s.uniqueLocks key).map (ttl s)).getD (-2)
      reply (if 0 < remaining then remaining else 0) s
  | setWorkerHealth workerId ttlSeconds, s => single fault s fun s =>
      if 0 < ttlSeconds ∧ s.ExpiryOk (ttlSeconds * 1000) then
        reply () (s.setHealth workerId
          (some { value := (), expireAt := some (s.now + ttlSeconds * 1000) }))
      else (.error .failed, s)
  | getWorkerHealth workerId, s => single fault s fun s =>
      reply ((s.health workerId).bind fun cell =>
        if 0 ≤ ttl s cell then some (ttl s cell) else none) s
  | scanActiveJobKeys _, s => single fault s fun s => reply page s
  | getActiveJobIds workerId, s => single fault s fun s =>
      reply ((s.active workerId).entries.map Prod.fst) s
  | producerEnqueue args idempotencyKey ttlSeconds, s =>
      script fault s .failed (Producer.enqueueScript args idempotencyKey ttlSeconds) id
  | producerRateLimit args rateKey ttlSeconds, s =>
      script fault s .failed (Producer.rateLimitScript args rateKey ttlSeconds) id
  | producerDebounce args debounceKey ttlSeconds, s =>
      script fault s .failed (Producer.debounceScript args debounceKey ttlSeconds) id

end Cmd

end Rrq
