import Rrq.Job

-- Job hashes as the texts that Redis keeps of them.

namespace Rrq

-- How a library prints the values of a type and reads them back.
structure Printer (α : Type) where
  print : α → String
  read : String → Option α

def Printer.Inverts {α : Type} (printer : Printer α) (value : α) : Prop :=
  printer.read (printer.print value) = some value

-- The printers of serde_json and of chrono, and the numbers of Lua.
structure Codec where
  time : Printer DateTime
  json : Printer Json
  params : Printer Params
  context : Printer Context
  tonumber : String → Option ℚ

-- The decimal text of a 64-bit integer, and what is read as one.

def digitsValue (digits : List Char) : Option Int :=
  if digits ≠ [] ∧ digits.all Char.isDigit then some (Nat.ofDigitChars 10 digits 0) else none

def parseI64 (text : String) : Option Int :=
  match text.toList with
  | '-' :: digits => (digitsValue digits).bind fun n => checkedI64 (-n)
  | '+' :: digits => (digitsValue digits).bind checkedI64
  | digits => (digitsValue digits).bind checkedI64

def printI64 (n : Int) : String :=
  if n < 0 then "-" ++ n.natAbs.repr else n.natAbs.repr

theorem digitsValue_repr (n : Nat) : digitsValue n.repr.toList = some (n : Int) := by
  have hne : n.repr.toList ≠ [] := by
    rw [Nat.toList_repr]
    exact Nat.toDigits_ne_nil
  have hdigits : n.repr.toList.all Char.isDigit := by
    rw [Nat.toList_repr, List.all_eq_true]
    intro c hc
    exact Nat.isDigit_of_mem_toDigits (by omega) (by omega) hc
  unfold digitsValue
  rw [if_pos ⟨hne, hdigits⟩, Nat.toList_repr, Nat.ofDigitChars_ten_toDigits]

theorem parseI64_repr (n : Nat) : parseI64 n.repr = checkedI64 n := by
  have hvalue := digitsValue_repr n
  have hdigit : ∀ c ∈ n.repr.toList, c.isDigit := by
    intro c hc
    rw [Nat.toList_repr] at hc
    exact Nat.isDigit_of_mem_toDigits (by omega) (by omega) hc
  unfold parseI64
  split
  · rename_i digits heq
    have hminus := hdigit '-' (heq ▸ List.mem_cons_self)
    exact absurd hminus (by decide)
  · rename_i digits heq
    have hplus := hdigit '+' (heq ▸ List.mem_cons_self)
    exact absurd hplus (by decide)
  · rw [hvalue]
    rfl

theorem parseI64_printI64 (n : Int) : parseI64 (printI64 n) = checkedI64 n := by
  unfold printI64
  by_cases hn : n < 0
  · rw [if_pos hn]
    have htext : ("-" ++ n.natAbs.repr).toList = '-' :: n.natAbs.repr.toList := by simp
    unfold parseI64
    rw [htext]
    simp only [digitsValue_repr, Option.bind_some]
    congr 1
    omega
  · rw [if_neg hn, parseI64_repr]
    congr 1
    omega

-- Only the texts of the keyword are taken for a null, whatever their case.
def isNullText (text : String) : Bool := text.toList.map Char.toLower == "null".toList

-- The fields of a hash by their names.
abbrev RawHash := String → Option String

namespace RawHash

def empty : RawHash := fun _ => none

-- HSET of some fields in turn.
def hset (raw : RawHash) (fields : List (String × String)) : RawHash :=
  fields.foldl (fun raw field => Function.update raw field.1 (some field.2)) raw

-- A field that is written only if there is a value for it.
def optional (name : String) (value : Option String) : List (String × String) :=
  value.toList.map fun text => (name, text)

variable {raw : RawHash} {name other : String}

@[simp] theorem hset_nil : raw.hset [] = raw := rfl

@[simp] theorem hset_cons (text : String) (fields : List (String × String)) :
    raw.hset ((name, text) :: fields) = hset (Function.update raw name (some text)) fields := rfl

@[simp] theorem hset_append (first second : List (String × String)) :
    raw.hset (first ++ second) = (raw.hset first).hset second := List.foldl_append

@[simp] theorem hset_optional (value : Option String) :
    raw.hset (optional name value) other =
      if other = name then value.or (raw other) else raw other := by
  cases value with
  | none => simp [optional]
  | some text =>
      by_cases ho : other = name
      · subst ho
        simp [optional]
      · simp [optional, ho]

end RawHash

namespace Wire

variable (codec : Codec)

def parseDatetime (raw : String) : Option DateTime := codec.time.read raw

def parseJson (raw : String) : Option Json :=
  if raw = "" ∨ isNullText raw then none else codec.json.read raw

def parseContext (raw : String) : Option Context :=
  if isNullText raw then none else codec.context.read raw

open RawHash

def buildJobMapping (job : Job) : List (String × String) :=
  [("id", job.id),
    ("function_name", job.functionName),
    ("job_params", codec.params.print job.jobParams),
    ("enqueue_time", codec.time.print job.enqueueTime),
    ("status", job.status.asStr),
    ("current_retries", printI64 job.currentRetries),
    ("max_retries", printI64 job.maxRetries),
    ("result", codec.json.print (job.result.getD .null))] ++
  optional "queue_name" job.queueName ++
  optional "next_scheduled_run_time" (job.nextScheduledRunTime.map codec.time.print) ++
  optional "start_time" (job.startTime.map codec.time.print) ++
  optional "job_timeout_seconds" (job.jobTimeoutSeconds.map printI64) ++
  optional "result_ttl_seconds" (job.resultTtlSeconds.map printI64) ++
  optional "job_unique_key" job.jobUniqueKey ++
  optional "completion_time" (job.completionTime.map codec.time.print) ++
  optional "last_error" job.lastError ++
  optional "dlq_name" job.dlqName ++
  optional "worker_id" job.workerId ++
  optional "trace_context" (job.traceContext.map codec.context.print) ++
  optional "correlation_context" (job.correlationContext.map codec.context.print)

def parseJobMap (raw : RawHash) (fallbackId : JobId) (defaultMaxRetries : Int) :
    Except ParseError Job :=
  match (raw "status").bind JobStatus.parse, (raw "enqueue_time").bind (parseDatetime codec) with
  | none, _ => .error .invalidJobStatus
  | some _, none => .error .missingEnqueueTime
  | some status, some enqueueTime => .ok {
      id := (raw "id").getD fallbackId
      functionName := (raw "function_name").getD ""
      jobParams := ((raw "job_params").bind codec.params.read).getD []
      enqueueTime
      startTime := (raw "start_time").bind (parseDatetime codec)
      status
      currentRetries := ((raw "current_retries").bind parseI64).getD 0
      nextScheduledRunTime := (raw "next_scheduled_run_time").bind (parseDatetime codec)
      maxRetries := ((raw "max_retries").bind parseI64).getD defaultMaxRetries
      jobTimeoutSeconds := (raw "job_timeout_seconds").bind parseI64
      resultTtlSeconds := (raw "result_ttl_seconds").bind parseI64
      jobUniqueKey := raw "job_unique_key"
      completionTime := (raw "completion_time").bind (parseDatetime codec)
      result := (raw "result").bind (parseJson codec)
      lastError := raw "last_error"
      queueName := raw "queue_name"
      dlqName := raw "dlq_name"
      workerId := raw "worker_id"
      traceContext := (raw "trace_context").bind (parseContext codec)
      correlationContext := (raw "correlation_context").bind (parseContext codec) }

-- What the fields of a hash say to their readers.

def readText {α : Type} (read : String → Option α) (text : String) : Text α :=
  match read text with
  | some value => .val value
  | none => .raw text

def readInt (text : String) : IntText :=
  match parseI64 text with
  | some n => .int n
  | none => .other text (codec.tonumber text)

def readResult (text : String) : Text Json :=
  if isNullText text then .val .null else readText (parseJson codec) text

def decode (raw : RawHash) : JobHash where
  id := raw "id"
  functionName := raw "function_name"
  jobParams := (raw "job_params").map (readText codec.params.read)
  enqueueTime := (raw "enqueue_time").map (readText (parseDatetime codec))
  startTime := (raw "start_time").map (readText (parseDatetime codec))
  status := raw "status"
  currentRetries := (raw "current_retries").map (readInt codec)
  nextScheduledRunTime := (raw "next_scheduled_run_time").map (readText (parseDatetime codec))
  maxRetries := (raw "max_retries").map (readInt codec)
  jobTimeoutSeconds := (raw "job_timeout_seconds").map (readInt codec)
  resultTtlSeconds := (raw "result_ttl_seconds").map (readInt codec)
  jobUniqueKey := raw "job_unique_key"
  completionTime := (raw "completion_time").map (readText (parseDatetime codec))
  result := (raw "result").map (readResult codec)
  lastError := raw "last_error"
  queueName := raw "queue_name"
  dlqName := raw "dlq_name"
  workerId := raw "worker_id"
  traceContext := (raw "trace_context").map (readText (parseContext codec))
  correlationContext := (raw "correlation_context").map (readText (parseContext codec))

end Wire

end Rrq
