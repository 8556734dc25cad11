import Rrq.Correlation
import Rrq.Worker.World

-- The producer: what it accepts, and how it hands a job over.

namespace Rrq

inductive EnqueueError where
  | emptyName (label : String)
  | notPositive (label : String)
  | overflow (label : String)
  | jobIdExists
  | unexpectedStatus
  | redis (error : RedisError)
  | panicked
deriving DecidableEq

namespace Producer

def validateName (label value : String) : Except EnqueueError Unit :=
  if value.toList.all isWhitespace then .error (.emptyName label) else .ok ()

structure Config where
  defaultQueueName : String := "rrq:queue:default"
  defaultMaxRetries : Int := 5
  defaultJobTimeoutSeconds : Int := 300
  defaultResultTtlSeconds : Int := 60 * 60 * 24
  defaultIdempotencyTtlSeconds : Int := 60 * 60 * 6
  -- In the order in which the hash map hands them out.
  correlationMappings : List (String × String) := []

structure EnqueueOptions where
  queueName : Option String := none
  jobId : Option JobId := none
  idempotencyKey : Option String := none
  idempotencyTtlSeconds : Option Int := none
  maxRetries : Option Int := none
  jobTimeoutSeconds : Option Int := none
  resultTtlSeconds : Option Int := none
  enqueueTime : Option DateTime := none
  scheduledTime : Option DateTime := none
  traceContext : Option Context := none
  -- What the propagator injects for the span that the call is made in.
  span : Context := []

-- A span of time as the standard library has it.
structure Duration where
  seconds : Nat
  nanos : Nat

-- The span in whole seconds, rounded up in floating point.
def Duration.ceilSeconds (window : Duration) : Int :=
  asI64 ⌈Double.add (Double.round window.seconds) (Double.round (window.nanos / 1000000000))⌉

-- The later time, if a point of time can hold it. A span too long for a duration counts as none.
def Duration.after (window : Duration) (time : DateTime) : Option DateTime :=
  let nanos : Int := window.seconds * 1000000000 + window.nanos
  let nanos := if nanos ≤ I64_MAX * 1000000 then nanos else 0
  if DateTime.InRange (time.nanos + nanos) then some ⟨time.nanos + nanos⟩ else none

-- An entry that is there already stays.
def HashMapInjector.set (carrier : Context) (entry : String × String) : Context :=
  if (carrier.lookup entry.1).isSome then carrier else carrier ++ [entry]

def mergeTraceContext (traceContext : Option Context) (span : Context) : Option Context :=
  Correlation.inject HashMapInjector.set traceContext span

variable (config : Config) (functionName : String) (params : Params) (options : EnqueueOptions)

def traceContextOf : Option Context := mergeTraceContext options.traceContext options.span

def correlationContextOf : Option Context :=
  (extractCorrelationContext (Correlation.paramsOf params)
    (Correlation.mappingsOf config.correlationMappings)
    ((traceContextOf options).map Correlation.attributesOf)).map Correlation.contextOf

def queueNameOf : String := options.queueName.getD config.defaultQueueName

-- What the three calls make of their options once the names are accepted.
def jobArgs (schedule : DateTime → Option DateTime) :
    Proc (Except EnqueueError Producer.JobArgs) := do
  let id ← given options.jobId (perform .newId)
  let enqueueTime ← given options.enqueueTime (perform .utcNow)
  match options.scheduledTime.or (schedule enqueueTime) with
  | none => pure (.error .panicked)
  | some scheduledTime =>
      let jobTimeoutSeconds := options.jobTimeoutSeconds.getD config.defaultJobTimeoutSeconds
      if jobTimeoutSeconds ≤ 0 then pure (.error (.notPositive "job_timeout_seconds"))
      else pure (.ok {
        id
        functionName
        jobParams := params
        enqueueTime
        scheduledTime
        maxRetries := options.maxRetries.getD config.defaultMaxRetries
        jobTimeoutSeconds
        resultTtlSeconds := options.resultTtlSeconds.getD config.defaultResultTtlSeconds
        queueName := normalizeQueueName (queueNameOf config options)
        traceContext := traceContextOf options
        correlationContext := correlationContextOf config params options })

-- An idempotency key lives at least until the job is due.
def idempotencyTtl (args : JobArgs) : Int :=
  let ttl := options.idempotencyTtlSeconds.getD config.defaultIdempotencyTtlSeconds
  let deferralMs := (args.scheduledTime.nanos - args.enqueueTime.nanos).tdiv 1000000
  let deferralSeconds := (min (deferralMs + 999) I64_MAX) / 1000
  if 0 < deferralMs ∧ ttl < deferralSeconds then deferralSeconds else ttl

def enqueueJob (args : JobArgs) (idempotencyKey : Option String) (ttlSeconds : Int) :
    Proc (Except EnqueueError JobId) := do
  match ← redis (.producerEnqueue args idempotencyKey ttlSeconds) with
  | .error error => pure (.error (.redis error))
  | .ok (status, id) =>
      if status = 1 ∨ status = 0 then pure (.ok id)
      else if status = -1 then pure (.error .jobIdExists)
      else pure (.error .unexpectedStatus)

def enqueue : Proc (Except EnqueueError JobId) := do
  match validateName "function_name" functionName,
      validateName "queue_name" (queueNameOf config options) with
  | .error error, _ => pure (.error error)
  | .ok (), .error error => pure (.error error)
  | .ok (), .ok () =>
      match ← jobArgs config functionName params options some with
      | .error error => pure (.error error)
      | .ok args =>
          match options.idempotencyKey with
          | none => enqueueJob args none (idempotencyTtl config options args)
          | some key =>
              match validateName "idempotency_key" key with
              | .error error => pure (.error error)
              | .ok () =>
                  if options.idempotencyTtlSeconds.getD config.defaultIdempotencyTtlSeconds ≤ 0 then
                    pure (.error (.notPositive "idempotency_ttl_seconds"))
                  else
                    enqueueJob args (some (IDEMPOTENCY_KEY_PREFIX ++ key))
                      (idempotencyTtl config options args)

def enqueueWithRateLimit (rateLimitKey : String) (rateLimitWindow : Duration) :
    Proc (Except EnqueueError (Option JobId)) := do
  match validateName "function_name" functionName, validateName "rate_limit_key" rateLimitKey,
      validateName "queue_name" (queueNameOf config options) with
  | .error error, _, _ => pure (.error error)
  | .ok (), .error error, _ => pure (.error error)
  | .ok (), .ok (), .error error => pure (.error error)
  | .ok (), .ok (), .ok () =>
      match ← jobArgs config functionName params options some with
      | .error error => pure (.error error)
      | .ok args =>
          let ttlSeconds := rateLimitWindow.ceilSeconds
          if ttlSeconds ≤ 0 then pure (.error (.notPositive "rate_limit_window"))
          else
            match ← redis (.producerRateLimit args
                (withPrefix RATE_LIMIT_KEY_PREFIX rateLimitKey) ttlSeconds) with
            | .error error => pure (.error (.redis error))
            | .ok (status, id) =>
                if status = 1 then pure (.ok (some id))
                else if status = 2 then pure (.ok none)
                else if status = -1 then pure (.error .jobIdExists)
                else pure (.error .unexpectedStatus)

def enqueueWithDebounce (debounceKey : String) (debounceWindow : Duration) :
    Proc (Except EnqueueError JobId) := do
  match validateName "function_name" functionName, validateName "debounce_key" debounceKey,
      validateName "queue_name" (queueNameOf config options) with
  | .error error, _, _ => pure (.error error)
  | .ok (), .error error, _ => pure (.error error)
  | .ok (), .ok (), .error error => pure (.error error)
  | .ok (), .ok (), .ok () =>
      match ← jobArgs config functionName params options debounceWindow.after with
      | .error error => pure (.error error)
      | .ok args =>
          let ttlSeconds := debounceWindow.ceilSeconds
          if ttlSeconds ≤ 0 then pure (.error (.notPositive "debounce_window"))
          else
            match ← redis (.producerDebounce args
                (withPrefix DEBOUNCE_KEY_PREFIX debounceKey) ttlSeconds) with
            | .error error => pure (.error (.redis error))
            | .ok (status, id) =>
                if status = 1 ∨ status = 0 then pure (.ok id)
                else if status = -1 then pure (.error .jobIdExists)
                else pure (.error .unexpectedStatus)

end Producer

end Rrq
