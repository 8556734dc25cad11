import Rrq.Basic
import Rrq.Json

-- Jobs, and the hashes that store them.

namespace Rrq

abbrev Params := List (String × Json)
abbrev Context := List (String × String)

inductive JobStatus where
  | Pending
  | Active
  | Completed
  | Failed
  | Retrying
  | Cancelled
deriving DecidableEq

namespace JobStatus

def asStr : JobStatus → String
  | Pending => "PENDING"
  | Active => "ACTIVE"
  | Completed => "COMPLETED"
  | Failed => "FAILED"
  | Retrying => "RETRYING"
  | Cancelled => "CANCELLED"

def parse (value : String) : Option JobStatus :=
  if value = "PENDING" then some Pending
  else if value = "ACTIVE" then some Active
  else if value = "COMPLETED" then some Completed
  else if value = "FAILED" then some Failed
  else if value = "RETRYING" then some Retrying
  else if value = "CANCELLED" then some Cancelled
  else none

@[simp] theorem parse_asStr (status : JobStatus) : parse status.asStr = some status := by
  cases status <;> decide

theorem parse_eq_some {value : String} {status : JobStatus} :
    parse value = some status ↔ value = status.asStr := by
  constructor
  · intro h
    unfold parse at h
    split_ifs at h <;> cases h <;> assumption
  · rintro rfl
    exact parse_asStr status

-- The states a job can still be executed from.
def Live (status : JobStatus) : Prop := status = Active ∨ status = Pending ∨ status = Retrying

instance (status : JobStatus) : Decidable status.Live := inferInstanceAs (Decidable (_ ∨ _))

end JobStatus

structure Job where
  id : JobId
  functionName : String
  jobParams : Params
  enqueueTime : DateTime
  startTime : Option DateTime
  status : JobStatus
  currentRetries : Int
  nextScheduledRunTime : Option DateTime
  maxRetries : Int
  jobTimeoutSeconds : Option Int
  resultTtlSeconds : Option Int
  jobUniqueKey : Option String
  completionTime : Option DateTime
  result : Option Json
  lastError : Option String
  queueName : Option String
  dlqName : Option String
  workerId : Option WorkerId
  traceContext : Option Context
  correlationContext : Option Context

-- The text of a field, known by what its reader makes of it.
inductive Text (α : Type) where
  | val (value : α)
  | raw (text : String)

def Text.read {α : Type} : Text α → Option α
  | val value => some value
  | raw _ => none

-- The text of a numeric field. A text that is no integer may still be a number to a script.
inductive IntText where
  | int (n : Int)
  | other (text : String) (number : Option ℚ)

namespace IntText

def parse : IntText → Option Int
  | int n => checkedI64 n
  | other _ _ => none

def number : IntText → Option ℚ
  | int n => some n
  | other _ number => number

end IntText

-- The fields of a job hash, absent or present.
structure JobHash where
  id : Option JobId := none
  functionName : Option String := none
  jobParams : Option (Text Params) := none
  enqueueTime : Option (Text DateTime) := none
  startTime : Option (Text DateTime) := none
  status : Option String := none
  currentRetries : Option IntText := none
  nextScheduledRunTime : Option (Text DateTime) := none
  maxRetries : Option IntText := none
  jobTimeoutSeconds : Option IntText := none
  resultTtlSeconds : Option IntText := none
  jobUniqueKey : Option String := none
  completionTime : Option (Text DateTime) := none
  result : Option (Text Json) := none
  lastError : Option String := none
  queueName : Option String := none
  dlqName : Option String := none
  workerId : Option WorkerId := none
  traceContext : Option (Text Context) := none
  correlationContext : Option (Text Context) := none

def parseJson : Text Json → Option Json
  | .val .null => none
  | .val value => some value
  | .raw _ => none

def buildJobMapping (job : Job) : JobHash where
  id := some job.id
  functionName := some job.functionName
  jobParams := some (.val job.jobParams)
  enqueueTime := some (.val job.enqueueTime)
  status := some job.status.asStr
  currentRetries := some (.int job.currentRetries)
  maxRetries := some (.int job.maxRetries)
  result := some (.val (job.result.getD .null))
  queueName := job.queueName
  nextScheduledRunTime := job.nextScheduledRunTime.map .val
  startTime := job.startTime.map .val
  jobTimeoutSeconds := job.jobTimeoutSeconds.map .int
  resultTtlSeconds := job.resultTtlSeconds.map .int
  jobUniqueKey := job.jobUniqueKey
  completionTime := job.completionTime.map .val
  lastError := job.lastError
  dlqName := job.dlqName
  workerId := job.workerId
  traceContext := job.traceContext.map .val
  correlationContext := job.correlationContext.map .val

inductive ParseError where
  | invalidJobStatus
  | missingEnqueueTime
deriving DecidableEq

def parseJobMap (raw : JobHash) (fallbackId : JobId) (defaultMaxRetries : Int) :
    Except ParseError Job :=
  match raw.status.bind JobStatus.parse, raw.enqueueTime.bind Text.read with
  | none, _ => .error .invalidJobStatus
  | some _, none => .error .missingEnqueueTime
  | some status, some enqueueTime => .ok {
      id := raw.id.getD fallbackId
      functionName := raw.functionName.getD ""
      jobParams := (raw.jobParams.bind Text.read).getD []
      enqueueTime
      startTime := raw.startTime.bind Text.read
      status
      currentRetries := (raw.currentRetries.bind IntText.parse).getD 0
      nextScheduledRunTime := raw.nextScheduledRunTime.bind Text.read
      maxRetries := (raw.maxRetries.bind IntText.parse).getD defaultMaxRetries
      jobTimeoutSeconds := raw.jobTimeoutSeconds.bind IntText.parse
      resultTtlSeconds := raw.resultTtlSeconds.bind IntText.parse
      jobUniqueKey := raw.jobUniqueKey
      completionTime := raw.completionTime.bind Text.read
      result := raw.result.bind parseJson
      lastError := raw.lastError
      queueName := raw.queueName
      dlqName := raw.dlqName
      workerId := raw.workerId
      traceContext := raw.traceContext.bind Text.read
      correlationContext := raw.correlationContext.bind Text.read }

-- A parsed job carries what the hash says of it.
theorem parseJobMap_ok {raw : JobHash} {fallbackId : JobId} {defaultMaxRetries : Int} {job : Job}
    (h : parseJobMap raw fallbackId defaultMaxRetries = .ok job) :
    raw.status = some job.status.asStr ∧ job.id = raw.id.getD fallbackId ∧
      job.currentRetries = (raw.currentRetries.bind IntText.parse).getD 0 ∧
      job.maxRetries = (raw.maxRetries.bind IntText.parse).getD defaultMaxRetries ∧
      job.jobTimeoutSeconds = raw.jobTimeoutSeconds.bind IntText.parse ∧
      job.queueName = raw.queueName ∧ job.workerId = raw.workerId := by
  unfold parseJobMap at h
  split at h
  · cases h
  · cases h
  · rename_i status enqueueTime hstatus henqueue
    obtain rfl := Except.ok.inj h
    obtain ⟨text, htext, hparse⟩ := Option.bind_eq_some_iff.mp hstatus
    refine ⟨?_, rfl, rfl, rfl, rfl, rfl, rfl⟩
    rw [htext, JobStatus.parse_eq_some.mp hparse]

end Rrq
