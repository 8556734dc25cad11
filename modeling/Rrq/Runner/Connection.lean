import Mathlib.Logic.Function.Basic
import Mathlib.Logic.Relation
import Rrq.Basic

-- A persistent connection to a runner: the calls that wait for their responses, the task that
-- reads responses and the task that writes requests. Each step is one access to what they share.

namespace Rrq.Runner

abbrev RequestId := String
abbrev CallId := Nat

structure ExecutionRequest where
  requestId : RequestId
  jobId : JobId

structure ExecutionOutcome where
  requestId : Option RequestId
  jobId : Option JobId

-- A response that was read, with its place among all that were.
structure Received where
  number : Nat
  outcome : ExecutionOutcome

inductive CallError where
  | connectionClosed
  | responseTimeout
  | writeFailed
  | readFailed
  | jobIdMismatch (expected : JobId)
  | requestIdMismatch (expected : RequestId)
  | missingRequestId (expected : RequestId)
  | missingAmong (count : Nat)

-- The receiving end of a call's oneshot channel.
inductive Slot where
  | empty
  | sent (message : Except CallError Received)
  | hungUp

-- How far a call has come.
inductive CallState where
  | begun
  | checked
  | registered
  -- It has seen the connection closed, and takes its registration back.
  | refused
  | sending
  | unsent
  | waiting
  | timedOut
  | returned (result : Except CallError Received)
  | dropped

structure Call where
  request : ExecutionRequest
  -- Whether it waits for a limited time only.
  limited : Bool
  state : CallState := .begun
  slot : Slot := .empty

-- How far close_pending_with_error has come: the calls whose senders it took, and those of
-- them that it has yet to send the error to.
inductive CloseState where
  | marking
  | draining
  | failing (drained rest : List CallId)
  | completed (drained : List CallId)

structure Closing where
  error : CallError
  state : CloseState := .marking

-- The two tasks of a connection. Either ends by closing it.
inductive Task where
  | reader
  | writer
deriving DecidableEq

structure PersistentProcessConnection where
  pending : List (RequestId × CallId) := []
  closed : Bool := false
  calls : CallId → Option Call := fun _ => none
  received : List ExecutionOutcome := []
  -- A sender that the reader has taken out of the map, with what it is about to send.
  hand : Option (CallId × Except CallError Received) := none
  closings : Task → Option Closing := fun _ => none

inductive Event where
  | execute (call : CallId) (request : ExecutionRequest) (limited : Bool)
  -- The next step of a call.
  | act (call : CallId)
  | send (call : CallId) (taken : Bool)
  | timeout (call : CallId)
  | drop (call : CallId)
  | removePendingRequest (id : RequestId)
  | response (outcome : ExecutionOutcome)
  -- The reader sends what it has in its hand.
  | deliver
  | readEnds (failed : Bool)
  | writeEnds (failed : Bool)
  -- The next step of close_pending_with_error.
  | close (task : Task)

namespace PersistentProcessConnection

variable (c : PersistentProcessConnection)

def setCall (i : CallId) (call : Call) : PersistentProcessConnection :=
  { c with calls := Function.update c.calls i (some call) }

def modify (i : CallId) (update : Call → Call) : PersistentProcessConnection :=
  { c with calls := Function.update c.calls i ((c.calls i).map update) }

def moveTo (i : CallId) (state : CallState) : PersistentProcessConnection :=
  c.modify i fun call => { call with state }

-- Sending on a oneshot channel, and dropping its sender.

def deliver (i : CallId) (message : Except CallError Received) : PersistentProcessConnection :=
  c.modify i fun call => { call with slot := .sent message }

def hangUp (i : CallId) : PersistentProcessConnection :=
  c.modify i fun call => { call with slot := .hungUp }

def insertPending (id : RequestId) (i : CallId) : PersistentProcessConnection :=
  { c with pending := (id, i) :: c.pending.filter fun entry => entry.1 ≠ id }

def removePending (id : RequestId) : PersistentProcessConnection :=
  { c with pending := c.pending.filter fun entry => entry.1 ≠ id }

def pendingCall (id : RequestId) : Option CallId :=
  (c.pending.find? fun entry => entry.1 = id).map Prod.snd

-- The sender is dropped with its entry.
def dropPending (id : RequestId) : PersistentProcessConnection :=
  match c.pendingCall id with
  | none => c
  | some i => (c.removePending id).hangUp i

-- A call only takes a response that carries both of its ids.
def accept (request : ExecutionRequest) (response : Received) : Except CallError Received :=
  if response.outcome.jobId ≠ some request.jobId then .error (.jobIdMismatch request.jobId)
  else if response.outcome.requestId ≠ some request.requestId then
    .error (.requestIdMismatch request.requestId)
  else .ok response

def act (i : CallId) : Option PersistentProcessConnection :=
  (c.calls i).bind fun call =>
    match call.state with
    | .begun =>
        some (c.moveTo i (if c.closed then .returned (.error .connectionClosed) else .checked))
    | .checked => some ((c.insertPending call.request.requestId i).moveTo i .registered)
    | .registered => some (c.moveTo i (if c.closed then .refused else .sending))
    | .refused | .unsent =>
        some ((c.dropPending call.request.requestId).moveTo i
          (.returned (.error .connectionClosed)))
    | .waiting =>
        match call.slot with
        | .empty => none
        | .sent (.error error) => some (c.moveTo i (.returned (.error error)))
        | .sent (.ok response) => some (c.moveTo i (.returned (accept call.request response)))
        | .hungUp => some (c.moveTo i (.returned (.error .connectionClosed)))
    | .timedOut =>
        some ((c.dropPending call.request.requestId).moveTo i
          (.returned (.error .responseTimeout)))
    | .sending | .returned _ | .dropped => none

-- The channel to the writer is gone once the writer has returned.
def writerGone : Bool :=
  match c.closings .writer with
  | some ⟨_, .completed _⟩ => true
  | _ => false

def send (i : CallId) (taken : Bool) : Option PersistentProcessConnection :=
  (c.calls i).bind fun call =>
    match call.state with
    | .sending =>
        if taken then some (c.moveTo i .waiting)
        else if c.writerGone then some (c.moveTo i .unsent)
        else none
    | _ => none

def timeout (i : CallId) : Option PersistentProcessConnection :=
  (c.calls i).bind fun call =>
    match call.state, call.slot with
    | .waiting, .empty => if call.limited then some (c.moveTo i .timedOut) else none
    | _, _ => none

def drop (i : CallId) : Option PersistentProcessConnection :=
  (c.calls i).bind fun call =>
    match call.state with
    | .returned _ | .dropped => none
    | _ => some (c.moveTo i .dropped)

def startClosing (task : Task) (error : CallError) : PersistentProcessConnection :=
  { c with closings := Function.update c.closings task (some { error }) }

-- A response without an id can only be meant for the call that waits alone.
def missing : PersistentProcessConnection :=
  match c.pending with
  | [] => c
  | [(id, i)] => { c with pending := [], hand := some (i, .error (.missingRequestId id)) }
  | _ => c.startClosing .reader (.missingAmong c.pending.length)

def logged (outcome : ExecutionOutcome) : PersistentProcessConnection :=
  { c with received := c.received ++ [outcome] }

-- The reader waits for the next response.
def Reading : Prop := c.hand.isNone ∧ (c.closings .reader).isNone

instance : Decidable c.Reading := inferInstanceAs (Decidable (_ ∧ _))

def response (outcome : ExecutionOutcome) : Option PersistentProcessConnection :=
  if c.Reading then
    match outcome.requestId with
    | none => some (c.logged outcome).missing
    | some id =>
        match c.pendingCall id with
        | none => some (c.logged outcome)
        | some i => some { (c.logged outcome).removePending id with
            hand := some (i, .ok ⟨c.received.length, outcome⟩) }
  else none

def handOver : Option PersistentProcessConnection :=
  c.hand.map fun (i, message) => { c.deliver i message with hand := none }

def readEnds (failed : Bool) : Option PersistentProcessConnection :=
  if c.Reading then
    some (c.startClosing .reader (if failed then .readFailed else .connectionClosed))
  else none

def writeEnds (failed : Bool) : Option PersistentProcessConnection :=
  if (c.closings .writer).isNone then
    some (c.startClosing .writer (if failed then .writeFailed else .connectionClosed))
  else none

def setClosing (task : Task) (error : CallError) (state : CloseState) :
    PersistentProcessConnection :=
  { c with closings := Function.update c.closings task (some { error, state }) }

def closePendingWithError (task : Task) : Option PersistentProcessConnection :=
  (c.closings task).bind fun closing =>
    match closing.state with
    | .marking => some ({ c with closed := true }.setClosing task closing.error .draining)
    | .draining =>
        let drained := c.pending.map Prod.snd
        some ({ c with pending := [] }.setClosing task closing.error (.failing drained drained))
    | .failing drained (i :: rest) =>
        some ((c.deliver i (.error closing.error)).setClosing task closing.error
          (.failing drained rest))
    | .failing drained [] => some (c.setClosing task closing.error (.completed drained))
    | .completed _ => none

def step : Event → Option PersistentProcessConnection
  | .execute i request limited =>
      if (c.calls i).isSome then none else some (c.setCall i { request, limited })
  | .act i => c.act i
  | .send i taken => c.send i taken
  | .timeout i => c.timeout i
  | .drop i => c.drop i
  | .removePendingRequest id => some (c.dropPending id)
  | .response outcome => c.response outcome
  | .deliver => c.handOver
  | .readEnds failed => c.readEnds failed
  | .writeEnds failed => c.writeEnds failed
  | .close task => c.closePendingWithError task

-- Calls come with request ids of their own.
def Admits : Event → Prop
  | .execute _ request _ => ∀ i call, c.calls i = some call →
      call.request.requestId ≠ request.requestId
  | _ => True

def Steps (c d : PersistentProcessConnection) : Prop :=
  ∃ event, c.Admits event ∧ c.step event = some d

-- From a fresh connection, in any order.
def Reachable (c : PersistentProcessConnection) : Prop := Relation.ReflTransGen Steps {} c

end PersistentProcessConnection

end Rrq.Runner
