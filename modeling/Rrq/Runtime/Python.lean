import Mathlib.Logic.Function.Basic
import Rrq.Concurrent.Events
import Rrq.Concurrent.Lock
import Rrq.Protocol

-- The runner runtime in Python: the loops of its connections, the tasks that they create and
-- the tracker that cancels them. Each runs on by itself up to where it awaits something that
-- is not there yet. The queue of the tracker takes what is put into it at once, and nobody
-- awaits anything while holding a connection_lock.

namespace Rrq.Runtime.Python

abbrev ExecutionRequest := Protocol.ExecutionRequest
abbrev CancelRequest := Protocol.CancelRequest
abbrev RunnerMessage := Protocol.RunnerMessage
abbrev RequestId := String
abbrev ConnectionId := Nat
abbrev TaskId := Nat

def MAX_IN_FLIGHT_PER_CONNECTION : Nat := 64

-- A value of a handler, known by what model_dump and json.dumps make of it.
inductive PyValue where
  | json (value : Json)
  | raises

def PyValue.Dumps : PyValue → Bool
  | json _ => true
  | raises => false

structure ExecutionError where
  message : String
  type : Option String := none
  code : Option String := none
  details : Option PyValue := none

structure ExecutionOutcome where
  jobId : Option String := none
  requestId : Option String := none
  status : OutcomeStatus
  result : Option PyValue := none
  error : Option ExecutionError := none
  retryAfterSeconds : Option ℚ := none

def ExecutionOutcome.Dumps (outcome : ExecutionOutcome) : Bool :=
  outcome.result.all PyValue.Dumps &&
    outcome.error.all fun error => error.details.all PyValue.Dumps

def failure (request : ExecutionRequest) (status : OutcomeStatus) (error : ExecutionError) :
    ExecutionOutcome :=
  { jobId := some request.jobId, requestId := some request.requestId, status
    error := some error }

-- The text of an exception, or another one where it is empty.
def textOr (text other : String) : String := if text = "" then other else text

-- How a handler comes to its end.
inductive Settlement where
  | outcome (outcome : ExecutionOutcome)
  | value (value : PyValue)
  | retry (message : String) (deferSeconds : Option ℚ)
  | timesOut (message : String)
  | raises (message : String)

-- An id of an outcome, where the handler has left it out.
def filled (id : Option String) (own : String) : Option String :=
  if id.getD "" = "" then some own else id

def PythonRunner.execute (registered : String → Bool) (request : ExecutionRequest)
    (settlement : Settlement) : ExecutionOutcome :=
  if registered request.functionName = false then
    failure request .Error
      { message := "No handler registered for function '" ++ request.functionName ++ "'"
        type := some "handler_not_found" }
  else
    match settlement with
    | .outcome outcome => { outcome with
        jobId := filled outcome.jobId request.jobId
        requestId := filled outcome.requestId request.requestId }
    | .value value =>
        { jobId := some request.jobId, requestId := some request.requestId, status := .Success
          result := some value }
    | .retry message deferSeconds =>
        { failure request .Retry { message := textOr message "Job requested retry" } with
          retryAfterSeconds := deferSeconds }
    | .timesOut message =>
        failure request .Timeout
          { message := textOr message "Job execution timed out.", type := some "timeout" }
    | .raises message =>
        failure request .Error { message := textOr message "Unhandled handler error" }

-- How _execute_with_deadline comes to its end: the runner returns, the deadline has passed
-- before that is called or passes meanwhile, the cancellation comes through, something else
-- raises an exception, or what is raised is none that is caught.
inductive Ending where
  | executed (settlement : Settlement)
  | exceeded
  | expired
  | cancelled
  | raised (message : String)
  | escaped

def Ending.Possible (request : ExecutionRequest) : Ending → Bool
  | exceeded | expired => request.context.deadline.isSome
  | _ => true

def Ending.outcome (registered : String → Bool) (request : ExecutionRequest) :
    Ending → Option ExecutionOutcome
  | executed settlement => some (PythonRunner.execute registered request settlement)
  | exceeded => some (failure request .Timeout
      { message := "Job deadline exceeded", type := some "timeout" })
  | expired => some (failure request .Timeout
      { message := "Job execution timed out.", type := some "timeout" })
  | cancelled => some (failure request .Error
      { message := "Job cancelled", type := some "cancelled" })
  | raised message => some (failure request .Error { message })
  | escaped => none

-- How far _execute_and_respond has come.
inductive Stage where
  | created
  | running
  -- It waits for the write lock.
  | waiting (outcome : ExecutionOutcome)
  -- It holds the write lock, and has written.
  | draining
  | ended

structure Task where
  connection : ConnectionId
  request : ExecutionRequest
  stage : Stage := .created
  -- A cancellation is still to be thrown into it.
  cancelled : Bool := false

structure InflightEntry where
  jobId : JobId
  task : TaskId

inductive TrackerEvent where
  | start (requestId : RequestId) (jobId : JobId) (task : TaskId)
  | finish (requestId : RequestId)
  | cancelRequest (requestId : RequestId)
  | cancelJob (jobId : JobId)

structure InflightTracker where
  inFlight : RequestId → Option InflightEntry := fun _ => none
  jobIndex : JobId → Option (List RequestId) := fun _ => none

def insertEntry (entries : List RequestId) (requestId : RequestId) : List RequestId :=
  if requestId ∈ entries then entries else entries ++ [requestId]

def discardEntry (entries : List RequestId) (requestId : RequestId) : List RequestId :=
  entries.filter (· ≠ requestId)

namespace InflightTracker

def entries (tracker : InflightTracker) (jobId : JobId) : List RequestId :=
  (tracker.jobIndex jobId).getD []

def setEntries (tracker : InflightTracker) (jobId : JobId) (entries : List RequestId) :
    InflightTracker :=
  { tracker with jobIndex :=
      Function.update tracker.jobIndex jobId (if entries = [] then none else some entries) }

def trackStart (tracker : InflightTracker) (requestId : RequestId) (jobId : JobId)
    (task : TaskId) : InflightTracker :=
  let tracked := { tracker with
    inFlight := Function.update tracker.inFlight requestId (some { jobId, task }) }
  tracked.setEntries jobId (insertEntry (tracker.entries jobId) requestId)

def removeRequest (tracker : InflightTracker) (requestId : RequestId) : InflightTracker :=
  match tracker.inFlight requestId with
  | none => tracker
  | some entry =>
      let popped := { tracker with
        inFlight := Function.update tracker.inFlight requestId none }
      popped.setEntries entry.jobId (discardEntry (tracker.entries entry.jobId) requestId)

end InflightTracker

-- Who writes to a connection.
inductive Writer where
  | loop
  | task (id : TaskId)
deriving DecidableEq

-- Where the loop of a connection stands.
inductive Phase where
  | reading
  -- It has refused a request, and waits for the write lock.
  | refusing (outcome : ExecutionOutcome)
  | draining
  | closed

structure Response where
  outcome : ExecutionOutcome
  -- The task of the request that is answered, if it has been accepted.
  answers : Option TaskId := none

structure Connection where
  phase : Phase := .reading
  writeLock : Lock Writer := {}
  connectionRequests : List RequestId := []
  connectionJobs : RequestId → Option JobId := fun _ => none
  -- What has been written while the connection was open.
  responses : List Response := []

structure RunnerRuntime where
  tracker : InflightTracker := {}
  queue : List TrackerEvent := []
  tasks : TaskId → Option Task := fun _ => none
  nextTask : TaskId := 0
  connections : ConnectionId → Connection := fun _ => {}

namespace RunnerRuntime

def modify (st : RunnerRuntime) (connection : ConnectionId)
    (update : Connection → Connection) : RunnerRuntime :=
  { st with
    connections := Function.update st.connections connection (update (st.connections connection)) }

def setLock (st : RunnerRuntime) (connection : ConnectionId) (update : Lock Writer → Lock Writer) :
    RunnerRuntime :=
  st.modify connection fun c => { c with writeLock := update c.writeLock }

def moveTo (st : RunnerRuntime) (connection : ConnectionId) (phase : Phase) : RunnerRuntime :=
  st.modify connection fun c => { c with phase }

def setTask (st : RunnerRuntime) (id : TaskId) (task : Task) : RunnerRuntime :=
  { st with tasks := Function.update st.tasks id (some task) }

def put (st : RunnerRuntime) (event : TrackerEvent) : RunnerRuntime :=
  { st with queue := st.queue ++ [event] }

-- The bytes are handed to the socket, which takes them as long as the connection is open.
def write (st : RunnerRuntime) (connection : ConnectionId) (response : Response) :
    RunnerRuntime :=
  match (st.connections connection).phase with
  | .closed => st
  | _ => st.modify connection fun c => { c with responses := c.responses ++ [response] }

-- The tracker.

-- A waiter for the write lock is woken at once. Another task finds the cancellation when it
-- next runs.
def cancelTask (st : RunnerRuntime) (id : TaskId) : RunnerRuntime :=
  match st.tasks id with
  | none => st
  | some task =>
      match task.stage with
      | .ended => st
      | .waiting _ =>
          (st.setLock task.connection (·.cancel (.task id))).setTask id
            { task with cancelled := true }
      | _ => st.setTask id { task with cancelled := true }

def cancelRequest (st : RunnerRuntime) (requestId : RequestId) : RunnerRuntime :=
  match st.tracker.inFlight requestId with
  | none => st
  | some entry =>
      { st with tracker := st.tracker.removeRequest requestId }.cancelTask entry.task

def track (st : RunnerRuntime) : TrackerEvent → RunnerRuntime
  | .start requestId jobId task =>
      { st with tracker := st.tracker.trackStart requestId jobId task }
  | .finish requestId => { st with tracker := st.tracker.removeRequest requestId }
  | .cancelRequest requestId => st.cancelRequest requestId
  | .cancelJob jobId => (st.tracker.entries jobId).foldl cancelRequest st

-- The loop of a connection.

def accept (st : RunnerRuntime) (connection : ConnectionId) (request : ExecutionRequest) :
    RunnerRuntime :=
  let admitted := st.modify connection fun c => { c with
    connectionRequests := insertEntry c.connectionRequests request.requestId
    connectionJobs := Function.update c.connectionJobs request.requestId (some request.jobId) }
  { admitted.setTask st.nextTask { connection, request } with
    nextTask := st.nextTask + 1 }.put (.start request.requestId request.jobId st.nextTask)

def refuse (st : RunnerRuntime) (connection : ConnectionId) (outcome : ExecutionOutcome) :
    RunnerRuntime :=
  if (st.connections connection).writeLock.Free then
    ((st.setLock connection (·.take .loop)).write connection { outcome }).moveTo
      connection .draining
  else (st.setLock connection (·.wait .loop)).moveTo connection (.refusing outcome)

def teardown (st : RunnerRuntime) (connection : ConnectionId) : RunnerRuntime :=
  let pending := (st.connections connection).connectionRequests
  let closed := st.modify connection fun c => { c with
    phase := .closed
    connectionRequests := []
    connectionJobs := fun requestId =>
      if requestId ∈ pending then none else c.connectionJobs requestId }
  { closed with queue := st.queue ++ pending.map .cancelRequest }

def receive (st : RunnerRuntime) (connection : ConnectionId) : RunnerMessage → RunnerRuntime
  | .Request request =>
      if request.protocolVersion ≠ "2" then
        st.refuse connection
          (failure request .Error { message := "Unsupported protocol version" })
      else if MAX_IN_FLIGHT_PER_CONNECTION ≤
          (st.connections connection).connectionRequests.length then
        st.refuse connection
          (failure request .Error { message := "Runner busy: too many in-flight requests" })
      else st.accept connection request
  | .Cancel payload =>
      if payload.protocolVersion ≠ "2" then st
      else
        match payload.requestId with
        | none => st.put (.cancelJob payload.jobId)
        | some requestId => st.put (.cancelRequest requestId)
  | .Response _ => st.teardown connection

-- A task.

-- What a task does last, however it ends, once it has run at all.
def cleanup (st : RunnerRuntime) (id : TaskId) (task : Task) : RunnerRuntime :=
  let requestId := task.request.requestId
  let released := (st.put (.finish requestId)).modify task.connection fun c => { c with
    connectionRequests := discardEntry c.connectionRequests requestId
    connectionJobs := Function.update c.connectionJobs requestId none }
  released.setTask id { task with stage := .ended, cancelled := false }

-- The task holds the write lock. An outcome that cannot be dumped is only logged.
def respond (st : RunnerRuntime) (id : TaskId) (task : Task) (outcome : ExecutionOutcome) :
    RunnerRuntime :=
  if outcome.Dumps then
    (st.write task.connection { outcome, answers := some id }).setTask id
      { task with stage := .draining, cancelled := false }
  else (st.setLock task.connection Lock.release).cleanup id task

def writeOutcome (st : RunnerRuntime) (id : TaskId) (task : Task) (outcome : ExecutionOutcome) :
    RunnerRuntime :=
  if (st.connections task.connection).writeLock.Free then
    (st.setLock task.connection (·.take (.task id))).respond id task outcome
  else
    (st.setLock task.connection (·.wait (.task id))).setTask id
      { task with stage := .waiting outcome, cancelled := false }

-- A coroutine that is cancelled before its first step never runs.
def begin (st : RunnerRuntime) (id : TaskId) (task : Task) : RunnerRuntime :=
  st.setTask id { task with
    stage := if task.cancelled then .ended else .running
    cancelled := false }

def wake (st : RunnerRuntime) (id : TaskId) (task : Task) (outcome : ExecutionOutcome) :
    RunnerRuntime :=
  if task.cancelled then
    (st.setLock task.connection (·.giveUp (.task id))).cleanup id task
  else (st.setLock task.connection (·.resume (.task id))).respond id task outcome

end RunnerRuntime

inductive Event where
  | receive (connection : ConnectionId) (message : RunnerMessage)
  -- The stream ends, or what it holds cannot be read.
  | endOfStream (connection : ConnectionId)
  | track
  | start (task : TaskId)
  -- A cancellation is thrown into the handler, which goes on.
  | interrupt (task : TaskId)
  | finish (task : TaskId) (ending : Ending)
  | resume (task : TaskId)
  | drained (task : TaskId)
  | resumeLoop (connection : ConnectionId)
  | drainedLoop (connection : ConnectionId)

namespace RunnerRuntime

variable (registered : String → Bool)

def whileReading (st : RunnerRuntime) (connection : ConnectionId) (next : RunnerRuntime) :
    Option RunnerRuntime :=
  match (st.connections connection).phase with
  | .reading => some next
  | _ => none

def step : Event → RunnerRuntime → Option RunnerRuntime
  | .receive connection message, st => st.whileReading connection (st.receive connection message)
  | .endOfStream connection, st => st.whileReading connection (st.teardown connection)
  | .track, st =>
      match st.queue with
      | [] => none
      | event :: rest => some ({ st with queue := rest }.track event)
  | .start id, st =>
      (st.tasks id).bind fun task =>
        match task.stage with
        | .created => some (st.begin id task)
        | _ => none
  | .interrupt id, st =>
      (st.tasks id).bind fun task =>
        match task.stage with
        | .running => if task.cancelled then some (st.setTask id { task with cancelled := false })
            else none
        | _ => none
  | .finish id ending, st =>
      (st.tasks id).bind fun task =>
        match task.stage with
        | .running =>
            if ending.Possible task.request then
              match ending.outcome registered task.request with
              | some outcome => some (st.writeOutcome id task outcome)
              | none => some (st.cleanup id task)
            else none
        | _ => none
  | .resume id, st =>
      (st.tasks id).bind fun task =>
        match task.stage with
        | .waiting outcome =>
            if (st.connections task.connection).writeLock.Resumes (.task id) then
              some (st.wake id task outcome)
            else none
        | _ => none
  | .drained id, st =>
      (st.tasks id).bind fun task =>
        match task.stage with
        | .draining => some ((st.setLock task.connection Lock.release).cleanup id task)
        | _ => none
  | .resumeLoop connection, st =>
      match (st.connections connection).phase with
      | .refusing outcome =>
          if (st.connections connection).writeLock.Resumes .loop then
            some (((st.setLock connection (·.resume .loop)).write connection { outcome }).moveTo
              connection .draining)
          else none
      | _ => none
  | .drainedLoop connection, st =>
      match (st.connections connection).phase with
      | .draining => some ((st.setLock connection Lock.release).moveTo connection .reading)
      | _ => none

def eventLoop : EventSystem RunnerRuntime Event where
  step := step registered

end RunnerRuntime

end Rrq.Runtime.Python
