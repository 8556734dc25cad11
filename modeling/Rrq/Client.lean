import Rrq.Producer

-- The client of the orchestrator, and the cancelling of a job.

namespace Rrq

namespace RRQClient

structure EnqueueOptions where
  queueName : Option String := none
  jobId : Option JobId := none
  uniqueKey : Option String := none
  maxRetries : Option Int := none
  jobTimeoutSeconds : Option Int := none
  deferUntil : Option DateTime := none
  -- A span in nanoseconds.
  deferBy : Option Int := none
  resultTtlSeconds : Option Int := none
  traceContext : Option Context := none
  -- What the propagator injects for the span that the call opens.
  span : Context := []

variable (settings : RRQSettings) (functionName : String) (params : Params)
  (options : EnqueueOptions)

def lockTtlFloor (jobTimeoutSeconds : Int) : Option Int :=
  (checkedAdd jobTimeoutSeconds settings.defaultLockTimeoutExtensionSeconds).bind (checkedAdd · 1)

-- When the job is to run, and how long its unique lock is to live at least.
def deferral (enqueueTime : DateTime) (lockTtlSeconds : Int) : Option (DateTime × Int) :=
  match options.deferUntil, options.deferBy with
  | some time, _ =>
      let diff := (time.nanos - enqueueTime.nanos).tdiv 1000000000
      some (time, if 0 < diff then max lockTtlSeconds (diff + 1) else lockTtlSeconds)
  | none, some nanos =>
      if DateTime.InRange (enqueueTime.nanos + nanos) then
        some (⟨enqueueTime.nanos + nanos⟩,
          max lockTtlSeconds (max (nanos.tdiv 1000000000) 0 + 1))
      else none
  | none, none => some (enqueueTime, lockTtlSeconds)

-- The job waits for whoever holds its unique lock.
def postpone (enqueueTime runTime : DateTime) (remaining : Int) : Except EnqueueError DateTime :=
  match enqueueTime.addSeconds remaining with
  | none => .error .panicked
  | some free => .ok (if runTime.nanos < free.nanos then free else runTime)

-- Take the unique lock or wait for it. The answer says when to run and whether it was taken.
def reserve (key : String) (id : JobId) (enqueueTime runTime : DateTime) (lockTtlSeconds : Int) :
    Proc (Except EnqueueError (DateTime × Bool)) := do
  match ← redis (.getLockTtl key) with
  | .error error => pure (.error (.redis error))
  | .ok remaining =>
      if 0 < remaining then
        pure ((postpone enqueueTime runTime remaining).map fun time => (time, false))
      else
        match ← redis (.acquireUniqueJobLock key id lockTtlSeconds) with
        | .error error => pure (.error (.redis error))
        | .ok true => pure (.ok (runTime, true))
        | .ok false => do
            match ← redis (.getLockTtl key) with
            | .error error => pure (.error (.redis error))
            | .ok remaining =>
                if 0 < remaining then
                  pure ((postpone enqueueTime runTime remaining).map fun time => (time, false))
                else pure (.ok (runTime, false))

def traceContextOf : Option Context :=
  Telemetry.injectCurrentTraceContext options.traceContext options.span

def correlationContextOf : Option Context :=
  (Telemetry.extractCorrelationContext (Correlation.paramsOf params)
    (Correlation.mappingsOf settings.correlationMappings)
    ((traceContextOf options).map Correlation.attributesOf)).map Correlation.contextOf

def buildJob (id : JobId) (queueName : QueueKey) (enqueueTime runTime : DateTime)
    (jobTimeoutSeconds : Int) : Job where
  id
  functionName
  jobParams := params
  enqueueTime
  startTime := none
  status := .Pending
  currentRetries := 0
  nextScheduledRunTime := some runTime
  maxRetries := options.maxRetries.getD settings.defaultMaxRetries
  jobTimeoutSeconds := some jobTimeoutSeconds
  resultTtlSeconds := some (options.resultTtlSeconds.getD settings.defaultResultTtlSeconds)
  jobUniqueKey := options.uniqueKey
  completionTime := none
  result := none
  lastError := none
  queueName := some queueName
  dlqName := none
  workerId := none
  traceContext := traceContextOf options
  correlationContext := correlationContextOf settings params options

-- With a unique key the job may have to wait.
def reserveIfUnique (id : JobId) (enqueueTime runTime : DateTime) (lockTtlSeconds : Int) :
    Proc (Except EnqueueError (DateTime × Bool)) :=
  match options.uniqueKey with
  | some key => reserve key id enqueueTime runTime lockTtlSeconds
  | none => pure (.ok (runTime, false))

-- A lock that was taken for a job that is not enqueued after all is given back.
def releaseReserved (uniqueAcquired : Bool) : Proc Unit :=
  match options.uniqueKey, uniqueAcquired with
  | some key, true => do
      let _ ← redis (.releaseUniqueJobLock key)
      pure ()
  | _, _ => pure ()

def enqueueJob (job : Job) (queueName : QueueKey) (runTime : DateTime) (uniqueAcquired : Bool) :
    Proc (Except EnqueueError Job) := do
  match ← redis (.atomicEnqueueJob job.id queueName (buildJobMapping job)
      runTime.timestampMillis) with
  | .ok true => pure (.ok job)
  | .ok false => do
      releaseReserved options uniqueAcquired
      pure (.error .jobIdExists)
  | .error error => do
      releaseReserved options uniqueAcquired
      pure (.error (.redis error))

def enqueue : Proc (Except EnqueueError Job) := do
  let id ← given options.jobId (perform .newId)
  let queueName := normalizeQueueName (options.queueName.getD settings.defaultQueueName)
  let jobTimeoutSeconds := options.jobTimeoutSeconds.getD settings.defaultJobTimeoutSeconds
  if jobTimeoutSeconds ≤ 0 then pure (.error (.notPositive "job_timeout_seconds"))
  else
    match lockTtlFloor settings jobTimeoutSeconds with
    | none => pure (.error (.overflow "lock_ttl_seconds"))
    | some floor =>
        if floor ≤ 0 then pure (.error (.notPositive "lock_ttl_seconds"))
        else do
          let enqueueTime ← perform .utcNow
          match deferral options enqueueTime
              (max settings.defaultUniqueJobLockTtlSeconds floor) with
          | none => pure (.error .panicked)
          | some (runTime, lockTtlSeconds) =>
              match ← reserveIfUnique options id enqueueTime runTime lockTtlSeconds with
              | .error error => pure (.error error)
              | .ok (runTime, uniqueAcquired) =>
                  enqueueJob options (buildJob settings functionName params options id queueName
                    enqueueTime runTime jobTimeoutSeconds) queueName runTime uniqueAcquired

end RRQClient

def eqIgnoreAsciiCase (a b : String) : Bool :=
  a.toList.map Char.toLower == b.toList.map Char.toLower

-- Taking the job out of its queue and marking it are two commands.
def jobCancel (id : JobId) : Proc Unit := do
  match ← redis (.getJobDataMap id) with
  | .error _ => pure ()
  | .ok none => pure ()
  | .ok (some jobMap) =>
      if eqIgnoreAsciiCase (jobMap.status.getD "") "pending" then
        let queueName := jobMap.queueName.getD ""
        if queueName = "" then pure ()
        else
          match ← redis (.removeJobFromQueue (normalizeQueueName queueName) id) with
          | .error _ => pure ()
          | .ok removed =>
              if 0 < removed then
                let _ ← redis (.updateJobStatus id .Cancelled)
                pure ()
              else pure ()
      else pure ()

end Rrq
