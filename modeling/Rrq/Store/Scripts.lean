import Rrq.Store.Commands

-- The Lua scripts of the orchestrator, call by call.

namespace Rrq.Scripts

open Script

def max_redis_px : ℚ := 9223372036854775808

-- The lock timeout that claim_ready.lua takes for a job, in the doubles of Lua.
def lockTimeoutMs (defaultLockTimeoutMs lockExtensionSeconds : Int)
    (jobTimeoutSeconds : Option ℚ) : ℚ :=
  match jobTimeoutSeconds.map Double.round with
  | none => Double.round defaultLockTimeoutMs
  | some seconds =>
      let candidate := Double.mul (Double.add seconds (Double.round lockExtensionSeconds)) 1000
      if 0 < seconds ∧ 0 < candidate ∧ candidate ≤ max_redis_px then candidate
      else Double.round defaultLockTimeoutMs

structure ClaimArgs where
  queueKey : QueueKey
  workerId : WorkerId
  nowMs : Int
  maxClaims : Nat
  defaultLockTimeoutMs : Int
  lockTimeoutExtensionSeconds : Int
  startTime : DateTime

-- One candidate: whether it was claimed.
def claimOne (args : ClaimArgs) (id : JobId) : Script Store Bool := do
  let present ← ask fun s => (s.jobs id).isSome
  if present then
    let seconds ← ask fun s => ((s.hash id).bind JobHash.jobTimeoutSeconds).bind IntText.number
    let lockOk ← call fun s => s.setLockNx id args.workerId
      (lockTimeoutMs args.defaultLockTimeoutMs args.lockTimeoutExtensionSeconds seconds)
    if lockOk then
      let removed ← call fun s => some (decide (id ∈ s.queues args.queueKey), s.zrem args.queueKey id)
      if removed then
        write fun s => s.hset id fun h => { h with
          status := some JobStatus.Active.asStr
          startTime := some (.val args.startTime)
          workerId := some args.workerId }
        write fun s => s.zaddActive args.workerId id args.startTime.timestamp
        pure true
      else
        write fun s => s.delLock id
        pure false
    else pure false
  else
    write fun s => s.zrem args.queueKey id
    pure false

def claimEach (args : ClaimArgs) : List JobId → List JobId → Script Store (List JobId)
  | [], claimed => pure claimed
  | id :: candidates, claimed =>
      if args.maxClaims ≤ claimed.length then pure claimed
      else do
        let taken ← claimOne args id
        claimEach args candidates (if taken then claimed ++ [id] else claimed)

def claimReady (args : ClaimArgs) : Script Store (List JobId) :=
  if args.maxClaims = 0 then pure []
  else if args.defaultLockTimeoutMs ≤ 0 then pure []
  else do
    let scanCount := max (args.maxClaims * 4) args.maxClaims
    let candidates ← ask fun s => (s.queues args.queueKey).upTo args.nowMs scanCount
    claimEach args candidates []

def enqueue (id : JobId) (queueKey : QueueKey) (mapping : JobHash) (score : ℚ) :
    Script Store Int := do
  let present ← ask fun s => (s.jobs id).isSome
  if present then pure 0
  else
    write fun s => s.hset id fun _ => mapping
    write fun s => s.zadd queueKey id score
    pure 1

def refreshLock (id : JobId) (workerId : String) (lockTimeoutMs : Int) : Script Store Int := do
  let owner ← call fun s => s.getLock id
  if owner = some workerId then
    call fun s => if s.ExpiryOk lockTimeoutMs then
        some (1, s.setLock id (some
          { value := .owner workerId, expireAt := some (s.now + lockTimeoutMs) }))
      else none
  else pure 0

def releaseLockIfOwner (id : JobId) (workerId : String) : Script Store Int := do
  let owner ← call fun s => s.getLock id
  if owner = some workerId then
    write fun s => s.delLock id
    pure 1
  else pure 0

def retry (id : JobId) (queueKey : QueueKey) (score : ℚ) (errorMessage : String)
    (status : JobStatus) : Script Store Int := do
  let newRetryCount ← call fun s => s.hincrby id
  write fun s => s.hset id fun h =>
    { h with status := some status.asStr, lastError := some errorMessage }
  write fun s => s.zadd queueKey id score
  pure newRetryCount

def failedEvent (id : JobId) : Event :=
  { event := "failed", jobId := id, status := JobStatus.Failed.asStr }

def expireDlq (id : JobId) (dlqTtl : Int) : Script Store Unit :=
  if 0 < dlqTtl then do
    write fun s => s.expireJob id dlqTtl
    write fun s => s.expireEvents id dlqTtl
  else pure ()

def releaseUnique (uniqueLockKey : Option String) : Script Store Unit :=
  match uniqueLockKey with
  | some key => write fun s => s.setUniqueLock key none
  | none => pure ()

def moveToDlqBody (id : JobId) (dlqKey : String) (errorMessage : String)
    (completionTime : DateTime) (dlqTtl : Int) (uniqueLockKey : Option String) :
    Script Store Int := do
  let newRetryCount ← call fun s => s.hincrby id
  write fun s => s.hset id fun h => { h with
    status := some JobStatus.Failed.asStr
    lastError := some errorMessage
    completionTime := some (.val completionTime) }
  write fun s => s.xadd id (failedEvent id)
  write fun s => s.lpush dlqKey id
  expireDlq id dlqTtl
  releaseUnique uniqueLockKey
  pure newRetryCount

def moveToDlq (id : JobId) (dlqKey : String) (errorMessage : String)
    (completionTime : DateTime) (dlqTtl : Int) (uniqueLockKey : Option String) :
    Script Store Int := do
  let result ← pcall (moveToDlqBody id dlqKey errorMessage completionTime dlqTtl uniqueLockKey)
  pure (result.getD (-1))

structure RequeueArgs where
  id : JobId
  queueKey : QueueKey
  activeWorkerId : Option WorkerId
  score : ℚ
  requeueMessage : String
  releasingOwner : String
  nextScheduled : Option DateTime

-- Only release the lock if we are still the owner.
def releaseOwned (args : RequeueArgs) : Script Store Unit :=
  if args.releasingOwner = "" then pure ()
  else do
    let owner ← call fun s => s.getLock args.id
    if owner = some args.releasingOwner then write fun s => s.delLock args.id
    else pure ()

def untrack (args : RequeueArgs) : Script Store Unit :=
  match args.activeWorkerId with
  | some worker => write fun s => s.zremActive worker args.id
  | none => pure ()

def demote (args : RequeueArgs) : Script Store Unit := do
  let current ← ask fun s => s.status args.id
  if current = some JobStatus.Active.asStr then
    write fun s => s.hset args.id fun h =>
      { h with status := some JobStatus.Pending.asStr, lastError := some args.requeueMessage }
    write fun s => s.hdel args.id fun h => { h with startTime := none, workerId := none }
  else if args.requeueMessage = "" then pure ()
  else write fun s => s.hset args.id fun h => { h with lastError := some args.requeueMessage }

def restoreSchedule (args : RequeueArgs) : Script Store Unit :=
  match args.nextScheduled with
  | some time => write fun s => s.hset args.id fun h =>
      { h with nextScheduledRunTime := some (.val time) }
  | none => pure ()

def requeueJobBody (args : RequeueArgs) : Script Store Int := do
  let present ← ask fun s => (s.jobs args.id).isSome
  if present then
    demote args
    let queued ← ask fun s => decide (args.id ∈ s.queues args.queueKey)
    if queued then
      untrack args
      releaseOwned args
      pure 2
    else
      write fun s => s.zadd args.queueKey args.id args.score
      untrack args
      restoreSchedule args
      releaseOwned args
      pure 1
  else pure 0

def requeueJob (args : RequeueArgs) : Script Store Int := do
  let result ← pcall (requeueJobBody args)
  pure (result.getD (-1))

end Rrq.Scripts
