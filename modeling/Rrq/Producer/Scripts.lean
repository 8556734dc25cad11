import Rrq.Store.Commands

-- The Lua scripts of the producer.

namespace Rrq

-- SET NX with an expiry in seconds, or without one. The expiry is checked first.
def Store.setKeyNx (s : Store) (cell : Option (Volatile JobId))
    (put : Option (Volatile JobId) → Store) (id : JobId) (seconds : Option Int) :
    Option (Bool × Store) :=
  match seconds with
  | none => if cell.isSome then some (false, s) else some (true, put (some { value := id }))
  | some seconds =>
      if 0 < seconds ∧ s.ExpiryOk (seconds * 1000) then
        if cell.isSome then some (false, s)
        else some (true, put (some { value := id, expireAt := some (s.now + seconds * 1000) }))
      else none

namespace Producer

open Script

structure JobArgs where
  id : JobId
  functionName : String
  jobParams : Params
  enqueueTime : DateTime
  scheduledTime : DateTime
  maxRetries : Int
  jobTimeoutSeconds : Int
  resultTtlSeconds : Int
  queueName : QueueKey
  traceContext : Option Context
  correlationContext : Option Context

def JobArgs.score (args : JobArgs) : ℚ := args.scheduledTime.timestampMillis

def JobArgs.mapping (args : JobArgs) : JobHash where
  id := some args.id
  functionName := some args.functionName
  jobParams := some (.val args.jobParams)
  enqueueTime := some (.val args.enqueueTime)
  status := some JobStatus.Pending.asStr
  currentRetries := some (.int 0)
  nextScheduledRunTime := some (.val args.scheduledTime)
  maxRetries := some (.int args.maxRetries)
  jobTimeoutSeconds := some (.int args.jobTimeoutSeconds)
  resultTtlSeconds := some (.int args.resultTtlSeconds)
  queueName := some args.queueName
  result := some (.val .null)
  traceContext := args.traceContext.map .val
  correlationContext := args.correlationContext.map .val

-- The fields that a debounced job takes over from the later call.
def JobArgs.update (args : JobArgs) (h : JobHash) : JobHash :=
  { h with
    functionName := some args.functionName
    jobParams := some (.val args.jobParams)
    nextScheduledRunTime := some (.val args.scheduledTime)
    maxRetries := some (.int args.maxRetries)
    jobTimeoutSeconds := some (.int args.jobTimeoutSeconds)
    resultTtlSeconds := some (.int args.resultTtlSeconds)
    queueName := some args.queueName
    traceContext := (args.traceContext.map .val).or h.traceContext
    correlationContext := args.correlationContext.map .val }

-- A number that a script has read from its arguments and passes on to Redis.
def luaSeconds (seconds : Int) : Int := (Double.round seconds).num

-- The status of a call and the id that it answers with.
abbrev Reply := Int × JobId

-- The writes to the hash are taken together.
def create (args : JobArgs) : Script Store Reply := do
  write fun s => s.hset args.id fun _ => args.mapping
  write fun s => s.zadd args.queueName args.id args.score
  pure (1, args.id)

-- The job that an idempotency key stands for. A key whose job is gone is deleted.
def findExisting (idemKey : String) : Script Store (Option JobId) := do
  let existing ← ask fun s => (s.idempotency idemKey).map Volatile.value
  match existing with
  | none => pure none
  | some existing =>
      let present ← ask fun s => (s.jobs existing).isSome
      if present then pure (some existing)
      else
        write fun s => s.setIdempotency idemKey none
        pure none

def findKeyed (idempotencyKey : Option String) : Script Store (Option JobId) :=
  match idempotencyKey with
  | some idemKey => findExisting idemKey
  | none => pure none

def createWithKey (args : JobArgs) (idemKey : String) (ttlSeconds : Int) : Script Store Reply := do
  let setOk ← call fun s => s.setKeyNx (s.idempotency idemKey) (s.setIdempotency idemKey) args.id
    (if 0 < ttlSeconds then some (luaSeconds ttlSeconds) else none)
  if setOk then create args
  else
    let winner ← ask fun s => (s.idempotency idemKey).map Volatile.value
    match winner with
    | some winner => pure (0, winner)
    | none => create args

def enqueueScript (args : JobArgs) (idempotencyKey : Option String) (ttlSeconds : Int) :
    Script Store Reply := do
  let existing ← findKeyed idempotencyKey
  match existing with
  | some existing => pure (0, existing)
  | none =>
      let present ← ask fun s => (s.jobs args.id).isSome
      if present then pure (-1, args.id)
      else
        match idempotencyKey with
        | some idemKey => createWithKey args idemKey ttlSeconds
        | none => create args

def rateLimitScript (args : JobArgs) (rateKey : String) (ttlSeconds : Int) :
    Script Store Reply := do
  if ttlSeconds ≤ 0 then pure (-2, args.id)
  else
    let ok ← call fun s => s.setKeyNx (s.rateLimits rateKey) (s.setRateLimit rateKey) args.id
      (some (luaSeconds ttlSeconds))
    if ok then
      let present ← ask fun s => (s.jobs args.id).isSome
      if present then
        write fun s => s.setRateLimit rateKey none
        pure (-1, args.id)
      else create args
    else pure (2, "")

-- EXPIRE of a debounce key.
def expireDebounce (debounceKey : String) (seconds : Int) (s : Store) : Option (Unit × Store) :=
  if s.ExpiryOk (seconds * 1000) then
    match s.debounces debounceKey with
    | none => some ((), s)
    | some cell => some ((), s.setDebounce debounceKey
        (some { cell with expireAt := some (s.now + seconds * 1000) }))
  else none

def extendDebounce (debounceKey : String) (ttlSeconds : Int) : Script Store Unit :=
  if 0 < ttlSeconds then call (expireDebounce debounceKey (luaSeconds ttlSeconds)) else pure ()

-- The pending job of the key is written over, and queued where the new call says.
def reschedule (args : JobArgs) (existing : JobId) (debounceKey : String) (ttlSeconds : Int) :
    Script Store Reply := do
  write fun s => s.hset existing args.update
  write fun s => s.zadd args.queueName existing args.score
  extendDebounce debounceKey ttlSeconds
  pure (0, existing)

def createDebounced (args : JobArgs) (debounceKey : String) (ttlSeconds : Int) :
    Script Store Reply := do
  let present ← ask fun s => (s.jobs args.id).isSome
  if present then pure (-1, args.id)
  else
    let ok ← call fun s => s.setKeyNx (s.debounces debounceKey) (s.setDebounce debounceKey) args.id
      (if 0 < ttlSeconds then some (luaSeconds ttlSeconds) else none)
    if ok ∨ ttlSeconds ≤ 0 then create args
    else
      let other ← ask fun s => (s.debounces debounceKey).map Volatile.value
      match other with
      | some other => pure (0, other)
      | none => pure (2, "")

def debounceScript (args : JobArgs) (debounceKey : String) (ttlSeconds : Int) :
    Script Store Reply := do
  let existing ← ask fun s => (s.debounces debounceKey).map Volatile.value
  match existing with
  | none => createDebounced args debounceKey ttlSeconds
  | some existing =>
      let present ← ask fun s => (s.jobs existing).isSome
      let status ← ask fun s => s.status existing
      if present ∧ status = some JobStatus.Pending.asStr then
        reschedule args existing debounceKey ttlSeconds
      else
        write fun s => s.setDebounce debounceKey none
        createDebounced args debounceKey ttlSeconds

end Producer

end Rrq
