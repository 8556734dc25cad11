import Rrq.Worker.Poll

-- Executing one job, and recording what came of it.

namespace Rrq

inductive ExecuteError where
  | redis (error : RedisError)
  | moveToDlqFailed
  -- A panic ends the task where it stands.
  | panicked
deriving DecidableEq

abbrev Outcome := Except ExecuteError Unit

def splitRunnerName (functionName : String) : Option String × String :=
  match functionName.toList.span (· ≠ '#') with
  | (_, []) => (none, functionName)
  | (runner, _ :: []) => (some (String.ofList runner), "")
  | ([], _ :: handler) => (none, String.ofList handler)
  | (runner, _ :: handler) => (some (String.ofList runner), String.ofList handler)

def resolveRoutedRunner (runnerRoutes : List (String × String)) (queueName : String) :
    Option String :=
  let normalized := normalizeQueueName queueName
  let bare := String.ofList (normalized.toList.drop QUEUE_KEY_PREFIX.length)
  ((runnerRoutes.lookup normalized).or (runnerRoutes.lookup queueName)).or
    (runnerRoutes.lookup bare)

def calculateBackoffSeconds (settings : RRQSettings) (retryAttempt : Int) : ℚ :=
  -- The attempt is cast to 32 bits.
  let attempt := (if retryAttempt ≤ 0 then 1 else retryAttempt) % 2 ^ 32
  let exponent := min (attempt - 1).toNat 30
  min (settings.baseRetryDelaySeconds * 2 ^ exponent) settings.maxRetryDelaySeconds

section Outcomes

variable (settings : RRQSettings) (job : Job)

def moveToDlq (errorMessage : String) : Proc Outcome := do
  let dlqName := job.dlqName.getD settings.defaultDlqName
  let now ← perform .utcNow
  match ← redis (.atomicMoveJobToDlq job.id (withPrefix DLQ_KEY_PREFIX dlqName) errorMessage now
      DEFAULT_DLQ_RESULT_TTL_SECONDS job.jobUniqueKey) with
  | .error error => pure (.error (.redis error))
  | .ok result => if result < 0 then pure (.error .moveToDlqFailed) else pure (.ok ())

def handleJobTimeout (errorMessage : String) : Proc Outcome := moveToDlq settings job errorMessage

def handleFatalJobError (errorMessage : String) : Proc Outcome :=
  moveToDlq settings job errorMessage

-- The schedule is noted when the retry is in place; a failure to note it is ignored.
def scheduleRetry (errorMessage : String) (delaySeconds : ℚ) : Proc Outcome := do
  let now ← perform .utcNow
  let retryAtScore : ℚ := now.timestampMillis + delaySeconds * 1000
  let targetQueue := normalizeQueueName (job.queueName.getD settings.defaultQueueName)
  match ← redis (.atomicRetryJob job.id targetQueue retryAtScore errorMessage .Retrying) with
  | .error error => pure (.error (.redis error))
  | .ok _ => do
      let nextRunTime ← match DateTime.timestampMillisOpt (asI64 retryAtScore) with
        | some time => pure time
        | none => perform .utcNow
      let _ ← redis (.updateJobNextScheduledRunTime job.id nextRunTime)
      pure (.ok ())

-- A failing attempt is retried while the budget lasts. The counter is checked in 64 bits.
def retryOrMove (errorMessage : String) (delaySeconds : Int → ℚ) : Proc Outcome :=
  match checkedAdd job.currentRetries 1 with
  | none => pure (.error .panicked)
  | some anticipatedRetry =>
      if job.maxRetries ≤ anticipatedRetry then moveToDlq settings job errorMessage
      else scheduleRetry settings job errorMessage (delaySeconds anticipatedRetry)

def processRetryJob (errorMessage : String) (retryAfterSeconds : Option ℚ) : Proc Outcome :=
  retryOrMove settings job errorMessage fun attempt =>
    retryAfterSeconds.getD (calculateBackoffSeconds settings attempt)

def processFailureJob (errorMessage : String) : Proc Outcome :=
  retryOrMove settings job errorMessage (calculateBackoffSeconds settings)

def handleSuccess (result : Json) : Proc Outcome := do
  let ttl := job.resultTtlSeconds.getD settings.defaultResultTtlSeconds
  let now ← perform .utcNow
  match ← redis (.saveJobResult job.id result ttl now) with
  | .error error => pure (.error (.redis error))
  | .ok () =>
      match job.jobUniqueKey with
      | none => pure (.ok ())
      | some uniqueKey => do
          match ← redis (.releaseUniqueJobLock uniqueKey) with
          | .error error => pure (.error (.redis error))
          | .ok () => pure (.ok ())

def timeoutMessage (seconds : Int) : String := "Job timed out after " ++ toString seconds ++ "s."

def errorMessage (outcome : ExecutionOutcome) (default : String) : String :=
  (outcome.error.map ExecutionError.message).getD default

def handleExecutionOutcome (outcome : ExecutionOutcome) : Proc Outcome :=
  match outcome.status with
  | .Success => handleSuccess settings job (outcome.result.getD .null)
  | .Retry =>
      processRetryJob settings job (errorMessage outcome "Job requested retry")
        outcome.retryAfterSeconds
  | .Timeout =>
      handleJobTimeout settings job (errorMessage outcome
        (timeoutMessage (job.jobTimeoutSeconds.getD settings.defaultJobTimeoutSeconds)))
  | .Error =>
      if outcome.error.bind ExecutionError.errorType = some "handler_not_found" then
        handleFatalJobError settings job (errorMessage outcome "Handler not found")
      else processFailureJob settings job (errorMessage outcome "Job failed")

def handleExecutionResult (jobTimeout : Int) : RunnerExecutionResult → Proc Outcome
  | .Completed (.ok outcome) => handleExecutionOutcome settings job outcome
  | .Completed (.error error) =>
      processFailureJob settings job ("Runner transport error: " ++ error)
  | .TimedOut => handleJobTimeout settings job (timeoutMessage jobTimeout)

end Outcomes

namespace RRQWorker

variable (self : RRQWorker)

-- Both commands are issued whatever becomes of the first.
def cleanupRunning (id : JobId) : Proc Outcome := do
  let removeActiveResult ← redis (.removeActiveJob self.workerId id)
  let releaseLockResult ← redis (.releaseJobLockIfOwner id self.workerId)
  perform (.removeRunning self.workerId id)
  perform (.removeAbort self.workerId id)
  match removeActiveResult, releaseLockResult with
  | .error error, _ => pure (.error (.redis error))
  | .ok (), .error error => pure (.error (.redis error))
  | .ok (), .ok _ => pure (.ok ())

-- Record the outcome of an execution and clean up, even if recording failed.
def finishJob (job : Job) (record : Proc Outcome) : Proc Outcome := do
  match ← record with
  | .error .panicked => pure (.error .panicked)
  | .error error => do
      let _ ← cleanupRunning self job.id
      pure (.error error)
  | .ok () => cleanupRunning self job.id

-- A fatal error before dispatch is cleaned up only once it is recorded.
def failFatally (job : Job) (message : String) : Proc Outcome := do
  match ← handleFatalJobError self.settings job message with
  | .error error => pure (.error error)
  | .ok () => cleanupRunning self job.id

def dispatchToRunner (job : Job) (queueName : QueueKey) (jobTimeout : Int) : Proc Outcome := do
  let (runnerName, handlerName) := splitRunnerName job.functionName
  if handlerName = "" then failFatally self job "Handler name is missing"
  else
    let resolvedRunner := runnerName.getD
      ((resolveRoutedRunner self.settings.runnerRoutes queueName).getD
        self.settings.defaultRunnerName)
    perform (.noteRunning self.workerId job.id fun info =>
      { info with runnerName := some resolvedRunner })
    if resolvedRunner ∈ self.runners then
      let requestId ← perform .newId
      perform (.noteRunning self.workerId job.id fun info =>
        { info with requestId := some requestId })
      let result ← perform (.execute self.workerId job.id handlerName resolvedRunner jobTimeout)
      finishJob self job (handleExecutionResult self.settings job jobTimeout result)
    else failFatally self job ("No runner configured for '" ++ resolvedRunner ++ "'.")

def executeJob (job : Job) (queueName : QueueKey) : Proc Outcome :=
  -- The attempt number is checked in 64 bits.
  match checkedAdd job.currentRetries 1 with
  | none => pure (.error .panicked)
  | some _ =>
      let jobTimeout := job.jobTimeoutSeconds.getD self.settings.defaultJobTimeoutSeconds
      if jobTimeout ≤ 0 then
        failFatally self job
          ("Invalid job timeout: " ++ toString jobTimeout ++ ". Must be positive.")
      else do
        let now ← perform .utcNow
        match now.addSeconds jobTimeout with
        | none => pure (.error .panicked)
        | some _ => dispatchToRunner self job queueName jobTimeout

end RRQWorker

end Rrq
