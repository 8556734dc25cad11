import Mathlib.Logic.Function.Basic
import Mathlib.Tactic.Simps.Basic
import Rrq.Concurrent.Events
import Rrq.Job

-- The runner runtime in TypeScript: what its event loop does with the messages of its
-- connections, with the handlers it runs and with the responses it writes.

namespace Rrq.Runtime.TypeScript

abbrev RequestId := String
abbrev ConnectionId := Nat

def PROTOCOL_VERSION : String := "2"
def MAX_IN_FLIGHT_PER_CONNECTION : Nat := 64

-- A value of a handler, known by what JSON.stringify makes of it.
inductive JsValue where
  | json (value : Json)
  | throws

def JsValue.Stringifies : JsValue → Bool
  | json _ => true
  | throws => false

structure ExecutionError where
  message : String
  type : Option String := none
  details : Option JsValue := none

structure ExecutionOutcome where
  jobId : String
  requestId : Option RequestId
  status : String
  result : Option JsValue := none
  error : Option ExecutionError := none
  retryAfterSeconds : Option ℚ := none

def ExecutionOutcome.Stringifies (outcome : ExecutionOutcome) : Bool :=
  outcome.result.all JsValue.Stringifies &&
    outcome.error.all fun error => error.details.all JsValue.Stringifies

-- The deadline of a request, as it looks when its execution begins.
inductive Deadline where
  | absent
  | invalid
  | passed
  | ahead
deriving DecidableEq

structure ExecutionRequest where
  protocolVersion : String := PROTOCOL_VERSION
  requestId : RequestId
  jobId : JobId
  functionName : String
  deadline : Deadline := .absent

structure CancelRequest where
  protocolVersion : String := PROTOCOL_VERSION
  jobId : JobId
  requestId : Option RequestId := none

inductive RunnerMessage where
  | request (payload : ExecutionRequest)
  | response
  | cancel (payload : CancelRequest)

def errorOutcome (request : ExecutionRequest) (type : Option String) (message : String) :
    ExecutionOutcome :=
  { jobId := request.jobId, requestId := some request.requestId, status := "error"
    error := some { message, type } }

def timeoutOutcome (request : ExecutionRequest) (message : String) : ExecutionOutcome :=
  { jobId := request.jobId, requestId := some request.requestId, status := "timeout"
    error := some { message, type := some "timeout" } }

def cancelledOutcome (payload : CancelRequest) (requestId : RequestId) : ExecutionOutcome :=
  { jobId := payload.jobId, requestId := some requestId, status := "error"
    error := some { message := "Job cancelled", type := some "cancelled" } }

-- How a handler comes to its end: with an outcome of its own, with some other value, with an
-- abort error or with another error.
inductive Settlement where
  | outcome (outcome : ExecutionOutcome)
  | value (value : JsValue)
  | aborts
  | throws (message : String)

def Registry.execute (registered : String → Bool) (request : ExecutionRequest)
    (settlement : Settlement) : ExecutionOutcome :=
  if registered request.functionName = false then
    errorOutcome request (some "handler_not_found") "Handler not found"
  else
    match settlement with
    | .outcome outcome => { outcome with
        jobId := if outcome.jobId = "" then request.jobId else outcome.jobId
        requestId :=
          if outcome.requestId.getD "" = "" then some request.requestId else outcome.requestId }
    | .value value =>
        { jobId := request.jobId, requestId := some request.requestId, status := "success"
          result := some value }
    | .aborts => errorOutcome request (some "cancelled") "Job cancelled"
    | .throws message => errorOutcome request none message

-- The promise of an execution, until what is chained to it has run.
inductive Execution where
  | running (request : ExecutionRequest)
  | settled (request : ExecutionRequest) (outcome : ExecutionOutcome)
  | ended

structure InFlightTask where
  -- The connection that the task responds on, and whose active requests it is among.
  connection : ConnectionId
  jobId : JobId
  completed : Bool := false

structure Write where
  outcome : ExecutionOutcome
  -- The request that this is the response to and its job, if it has been accepted.
  answers : Option (RequestId × JobId) := none

structure Connection where
  activeRequests : List RequestId := []
  destroyed : Bool := false
  closed : Bool := false
  -- The writes that are chained one after the other, and what has become of the earlier ones.
  writeChain : List Write := []
  written : List Write := []
  failed : List Write := []

def Connection.Open (c : Connection) : Prop := c.destroyed = false ∧ c.closed = false

instance (c : Connection) : Decidable c.Open := inferInstanceAs (Decidable (_ ∧ _))

structure RunnerRuntime where
  inFlight : RequestId → Option InFlightTask := fun _ => none
  jobIndex : JobId → Option (List RequestId) := fun _ => none
  executions : RequestId → Option Execution := fun _ => none
  connections : ConnectionId → Connection := fun _ => {}
  -- The responses that are out, and have what is chained to them still to run.
  resuming : List (RequestId × JobId × ConnectionId) := []
  -- The part of the past that the properties speak about.
  seen : RequestId → Bool := fun _ => false
  accepted : RequestId → Option (ConnectionId × JobId) := fun _ => none
  cancelled : RequestId → Bool := fun _ => false
  resumed : RequestId → Bool := fun _ => false

def insertEntry (entries : List RequestId) (requestId : RequestId) : List RequestId :=
  if requestId ∈ entries then entries else entries ++ [requestId]

def deleteEntry (entries : List RequestId) (requestId : RequestId) : List RequestId :=
  entries.filter (· ≠ requestId)

namespace RunnerRuntime

@[simps!] def modify (st : RunnerRuntime) (connection : ConnectionId) (update : Connection → Connection) :
    RunnerRuntime :=
  { st with connections :=
      Function.update st.connections connection (update (st.connections connection)) }

def entries (st : RunnerRuntime) (jobId : JobId) : List RequestId := (st.jobIndex jobId).getD []

@[simps!] def setEntries (st : RunnerRuntime) (jobId : JobId) (entries : List RequestId) : RunnerRuntime :=
  { st with
    jobIndex := Function.update st.jobIndex jobId (if entries = [] then none else some entries) }

@[simps!] def enqueueWrite (st : RunnerRuntime) (connection : ConnectionId) (write : Write) :
    RunnerRuntime :=
  st.modify connection fun c => { c with writeChain := c.writeChain ++ [write] }

@[simps!] def setExecution (st : RunnerRuntime) (requestId : RequestId) (execution : Execution) :
    RunnerRuntime :=
  { st with executions := Function.update st.executions requestId (some execution) }

-- An execution that races a deadline is rejected when its signal is aborted. Another goes on
-- until its handler ends.
def abort (st : RunnerRuntime) (requestId : RequestId) : RunnerRuntime :=
  match st.executions requestId with
  | some (.running request) =>
      if request.deadline = .ahead then
        st.setExecution requestId
          (.settled request (errorOutcome request (some "cancelled") "Job cancelled"))
      else st
  | _ => st

-- Where an execution stands before anything is awaited.
def begin (request : ExecutionRequest) : Execution :=
  match request.deadline with
  | .absent | .ahead => .running request
  | .invalid => .settled request (errorOutcome request none "Invalid deadline timestamp")
  | .passed => .settled request (timeoutOutcome request "Job deadline exceeded")

def accept (st : RunnerRuntime) (connection : ConnectionId) (request : ExecutionRequest) :
    RunnerRuntime :=
  let tracked := { st with
    inFlight := Function.update st.inFlight request.requestId
      (some { connection, jobId := request.jobId })
    accepted := Function.update st.accepted request.requestId (some (connection, request.jobId)) }
  let indexed := tracked.setEntries request.jobId
    (insertEntry (st.entries request.jobId) request.requestId)
  (indexed.modify connection fun c => { c with
    activeRequests := insertEntry c.activeRequests request.requestId }).setExecution
      request.requestId (begin request)

def cleanupRequest (st : RunnerRuntime) (requestId : RequestId) (jobId : JobId)
    (connection : ConnectionId) : RunnerRuntime :=
  let untracked := { st with inFlight := Function.update st.inFlight requestId none }
  (untracked.setEntries jobId (deleteEntry (st.entries jobId) requestId)).modify connection
    fun c => { c with activeRequests := deleteEntry c.activeRequests requestId }

-- The task is marked completed, and its response is put in the chain.
def answer (st : RunnerRuntime) (requestId : RequestId) (task : InFlightTask)
    (outcome : ExecutionOutcome) : RunnerRuntime :=
  let task := { task with completed := true }
  let marked := { st with inFlight := Function.update st.inFlight requestId (some task) }
  marked.enqueueWrite task.connection { outcome, answers := some (requestId, task.jobId) }

def noteCancelled (st : RunnerRuntime) (requestId : RequestId) : RunnerRuntime :=
  { st with
    cancelled := fun other =>
      st.cancelled other || other = requestId && (st.accepted requestId).isSome }

def cancelOne (payload : CancelRequest) (st : RunnerRuntime) (requestId : RequestId) :
    RunnerRuntime :=
  let noted := st.noteCancelled requestId
  match st.inFlight requestId with
  | none => noted
  | some task =>
      if task.completed then noted
      else (noted.abort requestId).answer requestId task (cancelledOutcome payload requestId)

def handleCancel (st : RunnerRuntime) (payload : CancelRequest) : RunnerRuntime :=
  if payload.protocolVersion ≠ PROTOCOL_VERSION then st
  else
    let requestIds := match payload.requestId with
      | some requestId => if requestId = "" then st.entries payload.jobId else [requestId]
      | none => st.entries payload.jobId
    requestIds.foldl (cancelOne payload) st

def refuse (st : RunnerRuntime) (connection : ConnectionId) (request : ExecutionRequest)
    (message : String) : RunnerRuntime :=
  st.enqueueWrite connection { outcome := errorOutcome request none message }

def receive (connection : ConnectionId) (st : RunnerRuntime) : RunnerMessage → RunnerRuntime
  | .request request =>
      let noted := { st with seen := Function.update st.seen request.requestId true }
      if request.protocolVersion ≠ PROTOCOL_VERSION then
        noted.refuse connection request "Unsupported protocol version"
      else if MAX_IN_FLIGHT_PER_CONNECTION ≤ (st.connections connection).activeRequests.length then
        noted.refuse connection request "Runner busy: too many in-flight requests"
      else noted.accept connection request
  | .cancel payload => st.handleCancel payload
  | .response => st.enqueueWrite connection { outcome :=
      { jobId := "unknown", requestId := none, status := "error"
        error := some { message := "Unexpected response message" } } }

-- The close handler, for one of the requests that were active.
def closeOne (st : RunnerRuntime) (requestId : RequestId) : RunnerRuntime :=
  match st.inFlight requestId with
  | none => st
  | some task => (st.abort requestId).cleanupRequest requestId task.jobId task.connection

-- What is chained to an execution. It runs when the execution has settled, either way.
def continueExecution (st : RunnerRuntime) (requestId : RequestId) (outcome : ExecutionOutcome) :
    RunnerRuntime :=
  let ended := st.setExecution requestId .ended
  match st.inFlight requestId with
  | none => ended
  | some task => if task.completed then ended else ended.answer requestId task outcome

-- The next write of a connection takes its turn.
def writeFrame (st : RunnerRuntime) (connection : ConnectionId) (write : Write)
    (rest : List Write) : RunnerRuntime :=
  let c := st.connections connection
  let done := if c.Open ∧ write.outcome.Stringifies then
      { c with writeChain := rest, written := c.written ++ [write] }
    else { c with writeChain := rest, failed := c.failed ++ [write] }
  let resuming := match write.answers with
    | some (requestId, jobId) => st.resuming ++ [(requestId, jobId, connection)]
    | none => st.resuming
  { st with connections := Function.update st.connections connection done, resuming }

def noteResumed (st : RunnerRuntime) (requestId : RequestId) : RunnerRuntime :=
  { st with
    resuming := st.resuming.filter fun entry => entry.1 ≠ requestId
    resumed := Function.update st.resumed requestId true }

end RunnerRuntime

inductive Event where
  | data (connection : ConnectionId) (messages : List RunnerMessage)
  -- A frame cannot be read, or the socket has an error.
  | destroy (connection : ConnectionId)
  | close (connection : ConnectionId)
  | handlerSettles (requestId : RequestId) (settlement : Settlement)
  | deadlineExpires (requestId : RequestId)
  -- The telemetry of an execution throws.
  | executionRejects (requestId : RequestId) (message : String)
  | continueExecution (requestId : RequestId)
  | writeFrame (connection : ConnectionId)
  -- What is chained to a response runs.
  | resume (requestId : RequestId)

namespace RunnerRuntime

variable (registered : String → Bool)

def step : Event → RunnerRuntime → Option RunnerRuntime
  | .data connection messages, st =>
      if (st.connections connection).Open then
        some (messages.foldl (receive connection) st)
      else none
  | .destroy connection, st => some (st.modify connection fun c => { c with destroyed := true })
  | .close connection, st =>
      if (st.connections connection).closed then none
      else
        let closed := st.modify connection fun c => { c with closed := true }
        some ((st.connections connection).activeRequests.foldl closeOne closed)
  | .handlerSettles requestId settlement, st =>
      match st.executions requestId with
      | some (.running request) => some (st.setExecution requestId
          (.settled request (Registry.execute registered request settlement)))
      | _ => none
  | .deadlineExpires requestId, st =>
      match st.executions requestId with
      | some (.running request) =>
          if request.deadline = .ahead then
            some (st.setExecution requestId
              (.settled request (timeoutOutcome request "Job execution timed out")))
          else none
      | _ => none
  | .executionRejects requestId message, st =>
      match st.executions requestId with
      | some (.running request) | some (.settled request _) =>
          some (st.setExecution requestId (.settled request (errorOutcome request none message)))
      | _ => none
  | .continueExecution requestId, st =>
      match st.executions requestId with
      | some (.settled _ outcome) => some (st.continueExecution requestId outcome)
      | _ => none
  | .writeFrame connection, st =>
      match (st.connections connection).writeChain with
      | write :: rest => some (st.writeFrame connection write rest)
      | [] => none
  | .resume requestId, st =>
      (st.resuming.find? fun entry => entry.1 = requestId).map fun entry =>
        (st.cleanupRequest requestId entry.2.1 entry.2.2).noteResumed requestId

def eventLoop : EventSystem RunnerRuntime Event where
  step := step registered

end RunnerRuntime

end Rrq.Runtime.TypeScript
