import Mathlib.Logic.Function.Basic
import Mathlib.Tactic.Simps.Basic
import Rrq.Concurrent.Events
import Rrq.Protocol

-- The runner runtime in Rust: the loops of its connections, the tasks that they spawn and the
-- two maps that all of them share. The threads of the runtime take turns at single accesses
-- to what is shared.

namespace Rrq.Runtime.Rust

abbrev ExecutionRequest := Protocol.ExecutionRequest
abbrev ExecutionOutcome := Protocol.ExecutionOutcome
abbrev CancelRequest := Protocol.CancelRequest
abbrev RunnerMessage := Protocol.RunnerMessage
abbrev RequestId := String
abbrev ConnectionId := Nat
abbrev TaskId := Nat

def RESPONSE_CHANNEL_CAPACITY : Nat := 64

-- How an execution ends: the handler answers or panics, there is none, its time runs out, or
-- the deadline had already passed.
inductive Ending where
  | handled (outcome : ExecutionOutcome)
  | panicked
  | notFound
  | timedOut
  | expired

def Ending.Possible (registered : String → Bool) (request : ExecutionRequest) : Ending → Bool
  | handled _ => registered request.functionName
  | panicked => registered request.functionName
  | notFound => !registered request.functionName
  | timedOut => request.context.deadline.isSome
  | expired => request.context.deadline.isSome

-- A panic unwinds through the task, and there is no outcome.
def executeWithDeadline (request : ExecutionRequest) : Ending → Option ExecutionOutcome
  | .handled outcome => some { outcome with
      jobId := outcome.jobId.or (some request.jobId)
      requestId := outcome.requestId.or (some request.requestId) }
  | .panicked => none
  | .notFound => some (.handlerNotFound request.jobId request.requestId
      ("No handler registered for function '" ++ request.functionName ++ "'"))
  | .timedOut => some (.timeout request.jobId request.requestId "Job execution timed out")
  | .expired => some (.timeout request.jobId request.requestId "Job deadline exceeded")

-- How far a task has come.
inductive Stage where
  | running
  | finished (outcome : ExecutionOutcome)
  -- It has marked itself completed, and holds the outcome that it is to send.
  | marked (outcome : ExecutionOutcome)
  | sent
  | untracked
  | unindexed
  | ended
  -- Its handler has panicked, and it has removed nothing.
  | panicked
  | dropped

namespace Stage

def ofExecution : Option ExecutionOutcome → Stage
  | some outcome => finished outcome
  | none => panicked

-- The task waits for something, and another may be polled in its place.
def Awaits : Stage → Bool
  | running => true
  | marked _ => true
  | sent => true
  | untracked => true
  | unindexed => true
  | _ => false

def Ended : Stage → Bool
  | ended => true
  | panicked => true
  | dropped => true
  | _ => false

end Stage

structure Task where
  connection : ConnectionId
  request : ExecutionRequest
  stage : Stage := .running
  completed : Bool := false
  -- A thread is running it.
  polling : Bool := false
  aborted : Bool := false

structure InFlightTask where
  jobId : JobId
  handle : TaskId
  -- The connection that its responses go to, and whose active requests it is among.
  connection : ConnectionId

-- How far handle_cancel has come with the request at hand.
inductive CancelStage where
  | next
  | taken (requestId : RequestId) (task : InFlightTask)
  | aborted (requestId : RequestId) (task : InFlightTask)
  | deactivated (requestId : RequestId) (task : InFlightTask)
  | answered (requestId : RequestId) (task : InFlightTask)

-- How far the teardown has come with the request at hand.
inductive DrainStage where
  | next
  | taken (requestId : RequestId) (task : InFlightTask)
  | aborted (requestId : RequestId) (task : InFlightTask)

-- Where the loop of a connection stands.
inductive Phase where
  | reading
  | admitting (request : ExecutionRequest)
  | tracking (request : ExecutionRequest) (task : TaskId)
  | indexing (request : ExecutionRequest) (task : TaskId)
  | cancelling (payload : CancelRequest) (rest : List RequestId) (stage : CancelStage)
  | ended
  | draining (rest : List RequestId) (stage : DrainStage)
  | returned

structure Response where
  outcome : ExecutionOutcome
  -- The task of the request that is answered, if it has been accepted.
  answers : Option TaskId := none

structure Connection where
  phase : Phase := .reading
  connectionRequests : List RequestId := []
  -- What has been put into the response channel.
  responses : List Response := []

structure RunnerRuntime where
  inFlight : RequestId → Option InFlightTask := fun _ => none
  jobIndex : JobId → Option (List RequestId) := fun _ => none
  tasks : TaskId → Option Task := fun _ => none
  nextTask : TaskId := 0
  connections : ConnectionId → Connection := fun _ => {}
  -- The part of the past that the properties speak about: the tasks whose entries have been
  -- made, and those that a cancel has taken out and has answered.
  tracked : TaskId → Bool := fun _ => false
  indexed : TaskId → Bool := fun _ => false
  taken : TaskId → Bool := fun _ => false
  told : TaskId → Bool := fun _ => false

def insertEntry (entries : List RequestId) (requestId : RequestId) : List RequestId :=
  if requestId ∈ entries then entries else entries ++ [requestId]

def removeEntry (entries : List RequestId) (requestId : RequestId) : List RequestId :=
  entries.filter (· ≠ requestId)

namespace RunnerRuntime

@[simps!] def modify (st : RunnerRuntime) (connection : ConnectionId)
    (update : Connection → Connection) : RunnerRuntime :=
  { st with
    connections := Function.update st.connections connection (update (st.connections connection)) }

def phase (st : RunnerRuntime) (connection : ConnectionId) : Phase :=
  (st.connections connection).phase

@[simps!] def moveTo (st : RunnerRuntime) (connection : ConnectionId) (phase : Phase) :
    RunnerRuntime :=
  st.modify connection fun c => { c with phase }

@[simps!] def respond (st : RunnerRuntime) (connection : ConnectionId) (response : Response) :
    RunnerRuntime :=
  st.modify connection fun c => { c with responses := c.responses ++ [response] }

@[simps!] def deactivate (st : RunnerRuntime) (connection : ConnectionId)
    (requestId : RequestId) : RunnerRuntime :=
  st.modify connection fun c => { c with
    connectionRequests := removeEntry c.connectionRequests requestId }

@[simps!] def setTask (st : RunnerRuntime) (task : TaskId) (value : Task) : RunnerRuntime :=
  { st with tasks := Function.update st.tasks task (some value) }

def abort (st : RunnerRuntime) (task : TaskId) : RunnerRuntime :=
  match st.tasks task with
  | none => st
  | some value => st.setTask task { value with aborted := true }

@[simps!] def removeInFlight (st : RunnerRuntime) (requestId : RequestId) : RunnerRuntime :=
  { st with inFlight := Function.update st.inFlight requestId none }

def entries (st : RunnerRuntime) (jobId : JobId) : List RequestId := (st.jobIndex jobId).getD []

@[simps!] def setEntries (st : RunnerRuntime) (jobId : JobId) (entries : List RequestId) :
    RunnerRuntime :=
  { st with
    jobIndex := Function.update st.jobIndex jobId (if entries = [] then none else some entries) }

def unindex (st : RunnerRuntime) (jobId : JobId) (requestId : RequestId) : RunnerRuntime :=
  st.setEntries jobId (removeEntry (st.entries jobId) requestId)

-- The loop of a connection.

def receive (st : RunnerRuntime) (connection : ConnectionId) : RunnerMessage → RunnerRuntime
  | .Request payload =>
      if payload.protocolVersion ≠ Protocol.PROTOCOL_VERSION then
        let outcome := .failure payload.jobId payload.requestId "Unsupported protocol version"
        st.respond connection { outcome }
      else st.moveTo connection (.admitting payload)
  | .Cancel payload =>
      if payload.protocolVersion ≠ Protocol.PROTOCOL_VERSION then st
      else
        let requestIds := match payload.requestId with
          | some requestId => [requestId]
          | none => st.entries payload.jobId
        st.moveTo connection (.cancelling payload requestIds .next)
  | .Response _ =>
      let outcome : ExecutionOutcome :=
        { jobId := some "unknown", status := .Error
          error := some { message := "unexpected response message" } }
      st.respond connection { outcome }

-- The request is put among the active ones and its task is spawned.
@[simps!] def spawn (st : RunnerRuntime) (connection : ConnectionId) (request : ExecutionRequest) :
    RunnerRuntime :=
  let active := st.modify connection fun c => { c with
    phase := .tracking request st.nextTask
    connectionRequests := insertEntry c.connectionRequests request.requestId }
  { active.setTask st.nextTask { connection, request } with nextTask := st.nextTask + 1 }

-- When a refusal cannot be sent the loop returns with an error.
def spawnOrRefuse (st : RunnerRuntime) (connection : ConnectionId) (request : ExecutionRequest)
    (sent : Bool) : RunnerRuntime :=
  if RESPONSE_CHANNEL_CAPACITY ≤ (st.connections connection).connectionRequests.length then
    if sent then
      let outcome :=
        .failure request.jobId request.requestId "Runner busy: too many in-flight requests"
      (st.respond connection { outcome }).moveTo connection .reading
    else st.moveTo connection .returned
  else st.spawn connection request

@[simps!] def track (st : RunnerRuntime) (connection : ConnectionId) (request : ExecutionRequest)
    (task : TaskId) : RunnerRuntime :=
  { st.moveTo connection (.indexing request task) with
    inFlight := Function.update st.inFlight request.requestId
      (some { jobId := request.jobId, handle := task, connection })
    tracked := Function.update st.tracked task true }

@[simps!] def index (st : RunnerRuntime) (connection : ConnectionId) (request : ExecutionRequest)
    (task : TaskId) : RunnerRuntime :=
  { (st.setEntries request.jobId
      (insertEntry (st.entries request.jobId) request.requestId)).moveTo connection .reading with
    indexed := Function.update st.indexed task true }

@[simps!] def noteTaken (st : RunnerRuntime) (task : TaskId) : RunnerRuntime :=
  { st with taken := Function.update st.taken task true }

@[simps!] def noteTold (st : RunnerRuntime) (task : TaskId) : RunnerRuntime :=
  { st with told := Function.update st.told task true }

def cancelOutcome (payload : CancelRequest) (requestId : RequestId) : ExecutionOutcome :=
  { jobId := some payload.jobId, requestId := some requestId, status := .Error
    error := some { message := "Job cancelled", errorType := some "cancelled" } }

-- One access of handle_cancel.
def cancelStep (st : RunnerRuntime) (connection : ConnectionId) (payload : CancelRequest)
    (rest : List RequestId) (sent : Bool) : CancelStage → RunnerRuntime
  | .next =>
      match rest with
      | [] => st.moveTo connection .reading
      | requestId :: rest =>
          match st.inFlight requestId with
          | none => st.moveTo connection (.cancelling payload rest .next)
          | some task =>
              if (st.tasks task.handle).any Task.completed then
                st.moveTo connection (.cancelling payload rest .next)
              else
                ((st.removeInFlight requestId).noteTaken task.handle).moveTo connection
                  (.cancelling payload rest (.taken requestId task))
  | .taken requestId task =>
      (st.abort task.handle).moveTo connection (.cancelling payload rest (.aborted requestId task))
  | .aborted requestId task =>
      (st.deactivate task.connection requestId).moveTo connection
        (.cancelling payload rest (.deactivated requestId task))
  | .deactivated requestId task =>
      let answered := if sent then
          (st.respond task.connection
            { outcome := cancelOutcome payload requestId
              answers := some task.handle }).noteTold task.handle
        else st
      answered.moveTo connection (.cancelling payload rest (.answered requestId task))
  | .answered requestId task =>
      (st.unindex task.jobId requestId).moveTo connection (.cancelling payload rest .next)

-- One access of the teardown.
def drainStep (st : RunnerRuntime) (connection : ConnectionId) (rest : List RequestId) :
    DrainStage → RunnerRuntime
  | .next =>
      match rest with
      | [] => st.moveTo connection .returned
      | requestId :: rest =>
          match st.inFlight requestId with
          | none => st.moveTo connection (.draining rest .next)
          | some task => (st.removeInFlight requestId).moveTo connection
              (.draining rest (.taken requestId task))
  | .taken requestId task =>
      (st.abort task.handle).moveTo connection (.draining rest (.aborted requestId task))
  | .aborted requestId task =>
      (st.unindex task.jobId requestId).moveTo connection (.draining rest .next)

-- One access of a task that a thread is running.
def advance (st : RunnerRuntime) (id : TaskId) (task : Task) (sent : Bool) :
    Option RunnerRuntime :=
  match task.stage with
  | .finished outcome =>
      some (st.setTask id { task with stage := .marked outcome, completed := true })
  | .marked outcome =>
      let answered :=
        if sent then st.respond task.connection { outcome, answers := some id } else st
      some (answered.setTask id { task with stage := .sent })
  | .sent => some ((st.removeInFlight task.request.requestId).setTask id
      { task with stage := .untracked })
  | .untracked => some ((st.unindex task.request.jobId task.request.requestId).setTask id
      { task with stage := .unindexed })
  | .unindexed => some ((st.deactivate task.connection task.request.requestId).setTask id
      { task with stage := .ended })
  | _ => none

end RunnerRuntime

inductive Event where
  | receive (connection : ConnectionId) (message : RunnerMessage)
  | endOfStream (connection : ConnectionId)
  | readFails (connection : ConnectionId)
  -- The next access of the loop. A response that it sends on the way is taken or not.
  | act (connection : ConnectionId) (sent : Bool := true)
  -- A thread takes up a task, and leaves it where it waits.
  | poll (task : TaskId)
  | pend (task : TaskId)
  | finish (task : TaskId) (ending : Ending)
  | advance (task : TaskId) (sent : Bool := true)
  -- A task that has been aborted is dropped when no thread runs it.
  | drop (task : TaskId)

namespace RunnerRuntime

variable (registered : String → Bool)

def act (st : RunnerRuntime) (connection : ConnectionId) (sent : Bool) : Option RunnerRuntime :=
  match st.phase connection with
  | .admitting request => some (st.spawnOrRefuse connection request sent)
  | .tracking request task => some (st.track connection request task)
  | .indexing request task => some (st.index connection request task)
  | .cancelling payload rest stage => some (st.cancelStep connection payload rest sent stage)
  | .ended =>
      let drained := st.modify connection fun c => { c with connectionRequests := [] }
      some (drained.moveTo connection
        (.draining (st.connections connection).connectionRequests .next))
  | .draining rest stage => some (st.drainStep connection rest stage)
  | .reading | .returned => none

def whileReading (st : RunnerRuntime) (connection : ConnectionId) (next : RunnerRuntime) :
    Option RunnerRuntime :=
  match st.phase connection with
  | .reading => some next
  | _ => none

def step : Event → RunnerRuntime → Option RunnerRuntime
  | .receive connection message, st => st.whileReading connection (st.receive connection message)
  | .endOfStream connection, st => st.whileReading connection (st.moveTo connection .ended)
  | .readFails connection, st => st.whileReading connection (st.moveTo connection .returned)
  | .act connection sent, st => st.act connection sent
  | .poll id, st =>
      (st.tasks id).bind fun task =>
        if task.polling ∨ task.aborted ∨ task.stage.Ended then none
        else some (st.setTask id { task with polling := true })
  | .pend id, st =>
      (st.tasks id).bind fun task =>
        if task.polling ∧ task.stage.Awaits then
          some (st.setTask id { task with polling := false })
        else none
  | .finish id ending, st =>
      (st.tasks id).bind fun task =>
        match task.stage with
        | .running =>
            if task.polling ∧ ending.Possible registered task.request then
              some (st.setTask id
                { task with stage := .ofExecution (executeWithDeadline task.request ending) })
            else none
        | _ => none
  | .advance id sent, st =>
      (st.tasks id).bind fun task => if task.polling then st.advance id task sent else none
  | .drop id, st =>
      (st.tasks id).bind fun task =>
        if task.aborted ∧ ¬ task.polling ∧ ¬ task.stage.Ended then
          some (st.setTask id { task with stage := .dropped })
        else none

def threads : EventSystem RunnerRuntime Event where
  step := step registered

end RunnerRuntime

end Rrq.Runtime.Rust
