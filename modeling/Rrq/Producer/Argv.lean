import Rrq.Producer
import Rrq.Wire

-- The calls of the producer as the texts that they hand to their scripts, and what a script
-- that creates a job writes of these texts.

namespace Rrq

def JOB_KEY_PREFIX : String := "rrq:job:"

namespace Producer

-- The keys and the arguments of a script are counted from one.
structure Invocation where
  keys : List String
  argv : List String

def Invocation.key (i : Invocation) (n : Nat) : String := i.keys.getD (n - 1) ""

def Invocation.arg (i : Invocation) (n : Nat) : String := i.argv.getD (n - 1) ""

-- A hash under its key, and an entry of a queue with its score.
structure Writes where
  jobKey : String
  fields : RawHash
  queueKey : String
  score : String
  member : String

-- The same fields in each script. The arguments of the debounce script come one later.
def Invocation.fields (i : Invocation) (shift : Nat) : RawHash :=
  RawHash.empty.hset <|
    [("id", i.arg (shift + 1)),
      ("function_name", i.arg (shift + 2)),
      ("job_params", i.arg (shift + 3)),
      ("enqueue_time", i.arg (shift + 4)),
      ("status", i.arg (shift + 5)),
      ("current_retries", i.arg (shift + 6)),
      ("next_scheduled_run_time", i.arg (shift + 7)),
      ("max_retries", i.arg (shift + 8)),
      ("job_timeout_seconds", i.arg (shift + 9)),
      ("result_ttl_seconds", i.arg (shift + 10)),
      ("queue_name", i.arg (shift + 11)),
      ("result", i.arg (shift + 12))] ++
    (if i.arg (shift + 13) ≠ "" then [("trace_context", i.arg (shift + 13))] else []) ++
    (if i.arg (shift + 14) ≠ "" then [("correlation_context", i.arg (shift + 14))] else [])

def enqueueWrites (i : Invocation) : Writes where
  jobKey := i.key 1
  fields := i.fields 0
  queueKey := i.key 2
  score := i.arg 15
  member := i.arg 1

def rateLimitWrites (i : Invocation) : Writes where
  jobKey := i.key 1
  fields := i.fields 0
  queueKey := i.key 2
  score := i.arg 15
  member := i.arg 1

def debounceWrites (i : Invocation) : Writes where
  jobKey := i.arg 1 ++ i.arg 2
  fields := i.fields 1
  queueKey := i.key 1
  score := i.arg 16
  member := i.arg 2

section Argv

variable (codec : Codec) (number : Printer ℚ) (args : JobArgs) (ttlSeconds : Int)

-- A context that is not there is an empty text.
def contextText (context : Option Context) : String := (context.map codec.context.print).getD ""

def argv : List String :=
  [args.id,
    args.functionName,
    codec.params.print args.jobParams,
    codec.time.print args.enqueueTime,
    "PENDING",
    printI64 0,
    codec.time.print args.scheduledTime,
    printI64 args.maxRetries,
    printI64 args.jobTimeoutSeconds,
    printI64 args.resultTtlSeconds,
    args.queueName,
    "null",
    contextText codec args.traceContext,
    contextText codec args.correlationContext,
    number.print (Double.round args.scheduledTime.timestampMillis),
    printI64 ttlSeconds]

def enqueueInvocation (idempotencyKey : Option String) : Invocation where
  keys := [JOB_KEY_PREFIX ++ args.id, args.queueName, idempotencyKey.getD ""]
  argv := argv codec number args ttlSeconds

def rateLimitInvocation (rateKey : String) : Invocation where
  keys := [JOB_KEY_PREFIX ++ args.id, args.queueName, rateKey]
  argv := argv codec number args ttlSeconds

def debounceInvocation (debounceKey : String) : Invocation where
  keys := [args.queueName, debounceKey]
  argv := JOB_KEY_PREFIX :: argv codec number args ttlSeconds

end Argv

end Producer

end Rrq
