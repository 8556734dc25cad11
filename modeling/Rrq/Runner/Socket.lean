import Rrq.Concurrent.Pool
import Rrq.Protocol
import Rrq.Runner.Connection

-- A runner with its processes behind sockets, and the calls that execute requests on them, time
-- out and clean up. Each operation is one access to what the calls share.

namespace Rrq.Runner

def MAX_IN_FLIGHT_PER_CONNECTION_LIMIT : Nat := 64
def REUSE_SOCKET_MAX_ATTEMPTS : Nat := 5
def MAX_PORT : Nat := 65535

-- The port; the host is that of the runner.
abbrev RunnerSocketTarget := Nat
-- The place of a process, of its semaphore and of a connection among all there have been.
abbrev ProcessId := Nat
abbrev SemaphoreId := Nat
abbrev ConnectionId := Nat

structure SocketRunner where
  -- There is no command to start processes with.
  external : Bool
  poolSize : Nat
  maxInFlight : Nat
  tcpPort : Nat
  -- Whether responses are waited for a limited time only.
  responseTimeout : Bool
  sendCancelHints : Bool
  poolSize_pos : 0 < poolSize
  maxInFlight_pos : 0 < maxInFlight
  maxInFlight_le : maxInFlight ≤ MAX_IN_FLIGHT_PER_CONNECTION_LIMIT
  tcpPort_pos : 0 < tcpPort
  range_le : tcpPort + (poolSize - 1) ≤ MAX_PORT

inductive Child where
  | running
  | exited
deriving DecidableEq

-- What comes of one attempt to start a runner on a port.
inductive Attempt where
  -- The port is in use or cannot be bound.
  | busy
  -- The command cannot be run.
  | failed
  -- The runner has been started and is not reached on its port.
  | unreached
  | connected
deriving DecidableEq

structure SocketProcess where
  child : Option Child := none
  socket : RunnerSocketTarget := 0
  permits : SemaphoreId := 0
  connection : Option ConnectionId := none

structure InFlightRequest where
  jobId : JobId
  socket : RunnerSocketTarget
deriving DecidableEq

inductive RunnerError where
  | noProcesses
  | notStarted
  | notConnected
  | cancelFailed
  | execution (error : CallError)

def isResponseTimeoutError : RunnerError → Bool
  | .execution .responseTimeout => true
  | _ => false

def hasTimedOut : Except RunnerError ExecutionOutcome → Bool
  | .ok _ => false
  | .error error => isResponseTimeoutError error

-- What the calls of a runner share. A call holds the permit it has acquired.
structure Shared where
  process : ProcessId → SocketProcess := fun _ => {}
  processCount : Nat := 0
  processes : List ProcessId := []
  cursor : Nat := 0
  tcpPortCursor : Nat := 0
  -- The ports that runners have been told to use. No call reads them.
  assigned : List RunnerSocketTarget := []
  free : SemaphoreId → Nat := fun _ => 0
  semaphoreCount : Nat := 0
  held : CallId → Option SemaphoreId := fun _ => none
  closed : ConnectionId → Bool := fun _ => false
  pending : ConnectionId → List RequestId := fun _ => []
  connectionCount : Nat := 0
  inFlight : List (RequestId × InFlightRequest) := []

inductive SocketOp where
  -- Whether the time of the call is up.
  | elapsed
  | ensureStarted
  | processes
  | advanceCursor
  | needsRespawn (process : ProcessId)
  | respawn (process : ProcessId)
  | permits (process : ProcessId)
  | tryAcquireOwned (permits : SemaphoreId)
  | dropPermit
  | connectionOf (process : ProcessId)
  | isClosed (connection : ConnectionId)
  | connect (socket : RunnerSocketTarget)
  | install (process : ProcessId) (socket : RunnerSocketTarget) (connection : ConnectionId)
  | invalidateConnection (process : ProcessId) (connection : ConnectionId)
  | insertPending (connection : ConnectionId) (id : RequestId)
  | removePendingRequest (connection : ConnectionId) (id : RequestId)
  | send (connection : ConnectionId) (request : ExecutionRequest)
  | receive (connection : ConnectionId) (id : RequestId)
  | insertInFlight (id : RequestId) (info : InFlightRequest)
  | removeInFlight (id : RequestId)
  -- The request, and whether another is in flight on its socket.
  | timeoutTarget (id : RequestId)
  -- The same once it has been taken out.
  | takeTimedOut (id : RequestId)
  | resolve (jobId : JobId) (id : Option RequestId)
  | sendCancel (socket : RunnerSocketTarget) (payload : Protocol.CancelRequest)
  | connectionAt (process : ProcessId) (socket : RunnerSocketTarget)
  | matchesSocket (process : ProcessId) (socket : RunnerSocketTarget)
  | terminate (process : ProcessId) (reason : String)
  | exited (process : ProcessId)
  | clearProcesses

@[reducible] def SocketOp.Reply : SocketOp → Type
  | .elapsed | .needsRespawn _ | .tryAcquireOwned _ | .isClosed _ | .removePendingRequest _ _
  | .send _ _ | .matchesSocket _ _ | .exited _ => Bool
  | .ensureStarted | .respawn _ | .sendCancel _ _ => Except RunnerError Unit
  | .processes => List ProcessId
  | .advanceCursor => Nat
  | .permits _ => SemaphoreId
  | .connectionOf _ => RunnerSocketTarget × Option ConnectionId
  | .connect _ => Except RunnerError ConnectionId
  | .install _ _ _ | .connectionAt _ _ => Option ConnectionId
  | .receive _ _ => Option ExecutionOutcome
  | .timeoutTarget _ | .takeTimedOut _ => Option (InFlightRequest × Bool)
  | .resolve _ _ => Option (RequestId × InFlightRequest)
  | .dropPermit | .invalidateConnection _ _ | .insertPending _ _ | .insertInFlight _ _
  | .removeInFlight _ | .terminate _ _ | .clearProcesses => Unit

-- What the state leaves open about an operation.
structure SocketChance where
  -- Whether what is attempted succeeds, and whether a time is up.
  succeeds : Bool := true
  elapsed : Bool := false
  -- The attempts to start each process that is to be started.
  attempts : Nat → Nat → Attempt := fun _ _ => .connected
  outcome : Option ExecutionOutcome := none
  pick : Nat := 0

abbrev Code (α : Type) := Prog SocketOp SocketOp.Reply α

def perform (op : SocketOp) : Code op.Reply := Prog.perform op

-- A call that is waited for a limited time. It is dropped between two of its operations.
def timeout {α : Type} : Code α → Code (Option α)
  | .ret value => .ret (some value)
  | .call op next => .call .elapsed fun elapsed =>
      if elapsed then .ret none else .call op fun reply => timeout (next reply)

namespace Shared

variable (owner : SocketRunner) (s : Shared)

def modify (i : ProcessId) (update : SocketProcess → SocketProcess) : Shared :=
  { s with process := Function.update s.process i (update (s.process i)) }

def push (process : SocketProcess) : Shared :=
  { s with
    process := Function.update s.process s.processCount process
    processCount := s.processCount + 1
    processes := s.processes ++ [s.processCount] }

def newSemaphore : Shared :=
  { s with
    free := Function.update s.free s.semaphoreCount owner.maxInFlight
    semaphoreCount := s.semaphoreCount + 1 }

-- Each port is given out once.
def nextTcpSocket : Option RunnerSocketTarget × Shared :=
  let port := owner.tcpPort + s.tcpPortCursor
  (if port ≤ MAX_PORT then some port else none, { s with tcpPortCursor := s.tcpPortCursor + 1 })

def socketFor : Option RunnerSocketTarget → Option RunnerSocketTarget × Shared
  | some socket => (some socket, s)
  | none => s.nextTcpSocket owner

def assign (socket : RunnerSocketTarget) : Shared := { s with assigned := socket :: s.assigned }

-- An attempt on a busy port is followed by another. A port that a process has had before is given
-- up when its new runner is not reached there.
def spawnAttempts (reuseSocket : Option RunnerSocketTarget) :
    (Nat → Attempt) → Nat → Shared → Option SocketProcess × Shared
  | _, 0, s => (none, s)
  | attempts, left + 1, s =>
      match s.socketFor owner reuseSocket with
      | (none, s) => (none, s)
      | (some socket, s) =>
          match attempts 0 with
          | .busy => spawnAttempts reuseSocket (fun n => attempts (n + 1)) left s
          | .failed => (none, s)
          | .unreached =>
              if reuseSocket.isSome then (none, s.assign socket)
              else spawnAttempts reuseSocket (fun n => attempts (n + 1)) left (s.assign socket)
          | .connected =>
              (some { child := some .running, socket, permits := s.semaphoreCount },
                (s.assign socket).newSemaphore owner)

def spawnProcess (reuseSocket : Option RunnerSocketTarget) (attempts : Nat → Attempt) :
    Option SocketProcess × Shared :=
  let maxAttempts := if reuseSocket.isSome then REUSE_SOCKET_MAX_ATTEMPTS else max owner.poolSize 1
  spawnAttempts owner reuseSocket attempts maxAttempts s

-- Each connection is closed by its own tasks, once its process is gone.
def terminate (i : ProcessId) : Shared :=
  s.modify i fun process => { process with child := none, connection := none }

def terminateAll : List ProcessId → Shared → Shared
  | [], s => s
  | i :: rest, s => terminateAll rest (s.terminate i)

def startExternal : Nat → Shared → Bool × Shared
  | 0, s => (true, s)
  | n + 1, s =>
      match s.nextTcpSocket owner with
      | (none, s) => (false, s)
      | (some socket, s) =>
          startExternal n
            (((s.assign socket).newSemaphore owner).push { socket, permits := s.semaphoreCount })

def startProcesses (attempts : Nat → Nat → Attempt) : Nat → Shared → Bool × Shared
  | 0, s => (true, s)
  | n + 1, s =>
      match s.spawnProcess owner none (attempts n) with
      | (none, s) => (false, { terminateAll s.processes s with processes := [] })
      | (some process, s) => startProcesses attempts n (s.push process)

def ensureStarted (attempts : Nat → Nat → Attempt) : Bool × Shared :=
  if s.processes ≠ [] then (true, s)
  else if owner.external then startExternal owner owner.poolSize s
  else startProcesses owner attempts owner.poolSize s

-- The socket is kept where it can be.
def respawn (i : ProcessId) (attempts : Nat → Nat → Attempt) : Bool × Shared :=
  if owner.external then (true, s.modify i fun process => { process with connection := none })
  else
    match (s.terminate i).spawnProcess owner (some (s.process i).socket) (attempts 0) with
    | (some process, s) => (true, s.modify i fun _ => process)
    | (none, s) =>
        match s.spawnProcess owner none (attempts 1) with
        | (some process, s) => (true, s.modify i fun _ => process)
        | (none, s) => (false, s)

def tryAcquireOwned (call : CallId) (permits : SemaphoreId) : Bool × Shared :=
  if 0 < s.free permits then
    (true, { s with
      free := Function.update s.free permits (s.free permits - 1)
      held := Function.update s.held call (some permits) })
  else (false, s)

def dropPermit (call : CallId) : Shared :=
  match s.held call with
  | none => s
  | some permits =>
      { s with
        free := Function.update s.free permits (s.free permits + 1)
        held := Function.update s.held call none }

def connect (succeeds : Bool) : Except RunnerError ConnectionId × Shared :=
  if succeeds then
    (.ok s.connectionCount, { s with connectionCount := s.connectionCount + 1 })
  else (.error .notConnected, s)

-- The connection that the process has by now, unless its socket has changed.
def install (i : ProcessId) (socket : RunnerSocketTarget) (connection : ConnectionId) :
    Option ConnectionId × Shared :=
  if (s.process i).socket ≠ socket then (none, s)
  else
    match (s.process i).connection.filter fun existing => ¬ s.closed existing with
    | some existing => (some existing, s)
    | none =>
        (some connection, s.modify i fun process => { process with connection := some connection })

def invalidateConnection (i : ProcessId) (connection : ConnectionId) : Shared :=
  if (s.process i).connection = some connection then
    s.modify i fun process => { process with connection := none }
  else s

def removePending (connection : ConnectionId) (id : RequestId) : Shared :=
  { s with
    pending := Function.update s.pending connection
      ((s.pending connection).filter fun other => other ≠ id) }

def insertPending (connection : ConnectionId) (id : RequestId) : Shared :=
  { s with
    pending := Function.update s.pending connection
      (id :: (s.pending connection).filter fun other => other ≠ id) }

-- A response takes its request out of the map.
def receive (connection : ConnectionId) (id : RequestId) (outcome : Option ExecutionOutcome) :
    Shared :=
  if outcome.isSome then s.removePending connection id else s

def info (id : RequestId) : Option InFlightRequest :=
  (s.inFlight.find? fun entry => entry.1 = id).map Prod.snd

def removeInFlight (id : RequestId) : Shared :=
  { s with inFlight := s.inFlight.filter fun entry => entry.1 ≠ id }

def insertInFlight (id : RequestId) (info : InFlightRequest) : Shared :=
  { s with inFlight := (id, info) :: s.inFlight.filter fun entry => entry.1 ≠ id }

def hasOtherOnSocket (id : RequestId) (socket : RunnerSocketTarget) : Bool :=
  s.inFlight.any fun entry => entry.1 ≠ id ∧ entry.2.socket = socket

def timeoutTarget (id : RequestId) : Option (InFlightRequest × Bool) :=
  (s.info id).map fun info => (info, s.hasOtherOnSocket id info.socket)

-- Without an id any request of the job will do.
def resolve (jobId : JobId) (pick : Nat) : Option RequestId → Option (RequestId × InFlightRequest)
  | some id => (s.info id).map fun info => (id, info)
  | none =>
      let found := s.inFlight.filter fun entry => entry.2.jobId = jobId
      found[pick % found.length]?

def connectionAt (i : ProcessId) (socket : RunnerSocketTarget) : Option ConnectionId :=
  if (s.process i).socket = socket then (s.process i).connection else none

-- A child that cannot be asked counts as one that has exited.
def exited (i : ProcessId) (succeeds : Bool) : Bool :=
  match (s.process i).child with
  | none => false
  | some .exited => true
  | some .running => !succeeds

def needsRespawn (i : ProcessId) (succeeds : Bool) : Bool :=
  (s.process i).child.isNone || s.exited i succeeds

end Shared

namespace SocketRunner

variable (owner : SocketRunner)

def exec (call : CallId) (op : SocketOp) (chance : SocketChance) (s : Shared) :
    op.Reply × Shared :=
  match op with
  | .elapsed => (chance.elapsed, s)
  | .ensureStarted =>
      let (started, s) := s.ensureStarted owner chance.attempts
      (if started then .ok () else .error .notStarted, s)
  | .processes => (s.processes, s)
  | .advanceCursor => (s.cursor, { s with cursor := s.cursor + 1 })
  | .needsRespawn i => (s.needsRespawn i chance.succeeds, s)
  | .respawn i =>
      let (started, s) := s.respawn owner i chance.attempts
      (if started then .ok () else .error .notStarted, s)
  | .permits i => ((s.process i).permits, s)
  | .tryAcquireOwned permits => s.tryAcquireOwned call permits
  | .dropPermit => ((), s.dropPermit call)
  | .connectionOf i => (((s.process i).socket, (s.process i).connection), s)
  | .isClosed connection => (s.closed connection, s)
  | .connect _ => s.connect chance.succeeds
  | .install i socket connection => s.install i socket connection
  | .invalidateConnection i connection => ((), s.invalidateConnection i connection)
  | .insertPending connection id => ((), s.insertPending connection id)
  | .removePendingRequest connection id =>
      (id ∈ s.pending connection, s.removePending connection id)
  | .send _ _ => (chance.succeeds, s)
  | .receive connection id => (chance.outcome, s.receive connection id chance.outcome)
  | .insertInFlight id info => ((), s.insertInFlight id info)
  | .removeInFlight id => ((), s.removeInFlight id)
  | .timeoutTarget id => (s.timeoutTarget id, s)
  | .takeTimedOut id => (s.timeoutTarget id, s.removeInFlight id)
  | .resolve jobId id => (s.resolve jobId chance.pick id, s)
  | .sendCancel _ _ => (if chance.succeeds then .ok () else .error .cancelFailed, s)
  | .connectionAt i socket => (s.connectionAt i socket, s)
  | .matchesSocket i socket => ((s.process i).socket = socket, s)
  | .terminate i _ => ((), s.terminate i)
  | .exited i => (s.exited i chance.succeeds, s)
  | .clearProcesses => ((), { s with processes := [] })

-- What may go on for ever is given a number of turns, and is without an answer after that.

def ensureProcess (i : ProcessId) : Code (Except RunnerError Unit) := do
  if owner.external then pure (.ok ())
  else
    let needsRespawn ← perform (.needsRespawn i)
    if needsRespawn then perform (.respawn i) else pure (.ok ())

def tryProcesses : List ProcessId → Code (Option (Except RunnerError ProcessId))
  | [] => pure none
  | i :: rest => do
      match ← ensureProcess owner i with
      | .error error => pure (some (.error error))
      | .ok () => do
          let permits ← perform (.permits i)
          let acquired ← perform (.tryAcquireOwned permits)
          if acquired then pure (some (.ok i)) else tryProcesses rest

def acquireTurns : Nat → Code (Option (Except RunnerError ProcessId))
  | 0 => pure none
  | turns + 1 => do
      let processes ← perform .processes
      if processes.isEmpty then pure (some (.error .noProcesses))
      else do
        let start ← perform .advanceCursor
        match ← tryProcesses owner (processes.rotate (start % processes.length)) with
        | some result => pure (some result)
        | none => acquireTurns turns

def acquireProcess (turns : Nat) : Code (Option (Except RunnerError ProcessId)) := do
  match ← perform .ensureStarted with
  | .error error => pure (some (.error error))
  | .ok () => acquireTurns owner turns

def isGone : Option ConnectionId → Code Bool
  | none => pure true
  | some connection => perform (.isClosed connection)

def getOrCreateConnection (i : ProcessId) :
    Nat → Code (Option (Except RunnerError (RunnerSocketTarget × ConnectionId)))
  | 0 => pure none
  | turns + 1 => do
      let (socket, existing) ← perform (.connectionOf i)
      let gone ← isGone existing
      match existing, gone with
      | some connection, false => pure (some (.ok (socket, connection)))
      | _, _ => do
          match ← perform (.connect socket) with
          | .error error => pure (some (.error error))
          | .ok connection => do
              match ← perform (.install i socket connection) with
              | none => getOrCreateConnection i turns
              | some connection => pure (some (.ok (socket, connection)))

def giveUp (connection : ConnectionId) (id : RequestId) (error : CallError) :
    Code (Except CallError ExecutionOutcome) := do
  let _ ← perform (.removePendingRequest connection id)
  pure (.error error)

-- An outcome has to carry both ids of its request.
def checkOutcome (request : ExecutionRequest) (outcome : ExecutionOutcome) :
    Except CallError ExecutionOutcome :=
  if outcome.jobId ≠ some request.jobId then .error (.jobIdMismatch request.jobId)
  else if outcome.requestId ≠ some request.requestId then
    .error (.requestIdMismatch request.requestId)
  else .ok outcome

def responseTimedOut : Code Bool :=
  if owner.responseTimeout then perform .elapsed else pure false

-- PersistentProcessConnection::execute.
def executeOn (connection : ConnectionId) (request : ExecutionRequest) :
    Code (Except CallError ExecutionOutcome) := do
  let closed ← perform (.isClosed connection)
  if closed then pure (.error .connectionClosed)
  else do
    perform (.insertPending connection request.requestId)
    let closed ← perform (.isClosed connection)
    if closed then giveUp connection request.requestId .connectionClosed
    else do
      let sent ← perform (.send connection request)
      if !sent then giveUp connection request.requestId .connectionClosed
      else do
        let late ← responseTimedOut owner
        if late then giveUp connection request.requestId .responseTimeout
        else do
          match ← perform (.receive connection request.requestId) with
          | none => pure (.error .connectionClosed)
          | some outcome => pure (checkOutcome request outcome)

def executeWithProcess (turns : Nat) (i : ProcessId) (request : ExecutionRequest) :
    Code (Option (Except RunnerError ExecutionOutcome)) := do
  match ← getOrCreateConnection i turns with
  | none => pure none
  | some (.error error) => pure (some (.error error))
  | some (.ok (socket, connection)) => do
      perform (.insertInFlight request.requestId { jobId := request.jobId, socket })
      match ← executeOn owner connection request with
      | .ok outcome => pure (some (.ok outcome))
      | .error error => do
          perform (.invalidateConnection i connection)
          pure (some (.error (.execution error)))

def sendCancelHint (id : RequestId) (info : InFlightRequest) : Code (Except RunnerError Unit) :=
  perform (.sendCancel info.socket { jobId := info.jobId, requestId := some id })

def removePendingAmong (socket : RunnerSocketTarget) (id : RequestId) : List ProcessId → Code Bool
  | [] => pure false
  | i :: rest => do
      match ← perform (.connectionAt i socket) with
      | some connection => perform (.removePendingRequest connection id)
      | none => removePendingAmong socket id rest

def clearPendingRequestForTimeout (id : RequestId) (socket : RunnerSocketTarget) : Code Unit := do
  let processes ← perform .processes
  let _ ← removePendingAmong socket id processes

def terminateAmong (socket : RunnerSocketTarget) (reason : String) : List ProcessId → Code Unit
  | [] => pure ()
  | i :: rest => do
      let matchesSocket ← perform (.matchesSocket i socket)
      if matchesSocket then perform (.terminate i reason) else terminateAmong socket reason rest

def terminateProcessForSocket (socket : RunnerSocketTarget) (reason : String) : Code Unit := do
  let processes ← perform .processes
  terminateAmong socket reason processes

-- The hint, where it is due, and whether it was sent.
def tryCancel (due : Bool) (id : RequestId) (info : InFlightRequest) : Code Bool := do
  if due then
    let reply ← sendCancelHint id info
    pure reply.toBool
  else pure false

-- A request that shares its socket is always to be cancelled.
def cancelTimedOut (hints : Bool) (id : RequestId) : Option (InFlightRequest × Bool) → Code Bool
  | none => pure false
  | some (info, hasOtherOnSocket) => tryCancel (hasOtherOnSocket || hints) id info

def cleanUpTimedOut (id : RequestId) (reason : String) (timeoutCancelSent : Bool) :
    Option (InFlightRequest × Bool) → Code Unit
  | none => pure ()
  | some (info, hasOtherOnSocket) => do
      clearPendingRequestForTimeout id info.socket
      if hasOtherOnSocket && timeoutCancelSent then pure ()
      else terminateProcessForSocket info.socket reason

def findTimeoutTarget (timedOut : Bool) (id : RequestId) : Code (Option (InFlightRequest × Bool)) :=
  if timedOut then perform (.timeoutTarget id) else pure none

def respawnExited (i : ProcessId) (timedOut : Bool) :
    Except RunnerError ExecutionOutcome → Code (Except RunnerError ExecutionOutcome)
  | .ok outcome => pure (.ok outcome)
  | .error error => do
      let exited ← perform (.exited i)
      if exited && !timedOut then do
        let _ ← perform (.respawn i)
        pure (.error error)
      else pure (.error error)

def finalizeExecuteResult (i : ProcessId) (request : ExecutionRequest)
    (result : Except RunnerError ExecutionOutcome) :
    Code (Except RunnerError ExecutionOutcome) := do
  let timedOut := hasTimedOut result
  let timeoutTarget ← findTimeoutTarget timedOut request.requestId
  let timeoutCancelSent ← cancelTimedOut owner.sendCancelHints request.requestId timeoutTarget
  perform (.removeInFlight request.requestId)
  cleanUpTimedOut request.requestId "response_timeout" timeoutCancelSent timeoutTarget
  respawnExited i timedOut result

def cleanupWorkerTimeoutWithPermitHeld (request : ExecutionRequest) (sendCancelHint : Bool) :
    Code Unit := do
  let timedOut ← perform (.takeTimedOut request.requestId)
  let timeoutCancelSent ← cancelTimedOut (sendCancelHint && owner.sendCancelHints)
    request.requestId timedOut
  cleanUpTimedOut request.requestId "worker_timeout" timeoutCancelSent timedOut

inductive ExecutionResult where
  | completed (result : Except RunnerError ExecutionOutcome)
  | timedOut

def execute (turns : Nat) (request : ExecutionRequest) :
    Code (Option (Except RunnerError ExecutionOutcome)) := do
  match ← acquireProcess owner turns with
  | none => pure none
  | some (.error error) => pure (some (.error error))
  | some (.ok i) => do
      match ← executeWithProcess owner turns i request with
      | none => pure none
      | some result => do
          let result ← finalizeExecuteResult owner i request result
          perform .dropPermit
          pure (some result)

def executeWithTimeout (turns : Nat) (request : ExecutionRequest) (sendCancelHint : Bool) :
    Code ExecutionResult := do
  match (← timeout (acquireProcess owner turns)).join with
  | none => pure .timedOut
  | some (.error error) => pure (.completed (.error error))
  | some (.ok i) => do
      let late ← perform .elapsed
      if late then do
        perform .dropPermit
        pure .timedOut
      else do
        match (← timeout (executeWithProcess owner turns i request)).join with
        | some result => do
            let result ← finalizeExecuteResult owner i request result
            perform .dropPermit
            pure (.completed result)
        | none => do
            cleanupWorkerTimeoutWithPermitHeld owner request sendCancelHint
            perform .dropPermit
            pure .timedOut

def cancel (jobId : JobId) (id : Option RequestId) : Code (Except RunnerError Unit) := do
  match ← perform (.resolve jobId id) with
  | none => pure (.ok ())
  | some (id, info) => do
      match ← sendCancelHint id info with
      | .ok () => do
          perform (.removeInFlight id)
          pure (.ok ())
      | .error error => pure (.error error)

def handleTimeout (jobId : JobId) (id : Option RequestId) (sendCancelHint : Bool) :
    Code (Except RunnerError Unit) := do
  match ← perform (.resolve jobId id) with
  | none => pure (.ok ())
  | some (id, info) => do
      let _ ← tryCancel (sendCancelHint && owner.sendCancelHints) id info
      perform (.removeInFlight id)
      clearPendingRequestForTimeout id info.socket
      terminateProcessForSocket info.socket "worker_timeout"
      pure (.ok ())

def terminateEach : List ProcessId → Code Unit
  | [] => pure ()
  | i :: rest => do
      perform (.terminate i "pool_close")
      terminateEach rest

def close : Code Unit := do
  let processes ← perform .processes
  terminateEach processes
  perform .clearProcesses

end SocketRunner

inductive RunnerCall where
  | execute (request : ExecutionRequest)
  | executeWithTimeout (request : ExecutionRequest) (sendCancelHint : Bool)
  | cancel (jobId : JobId) (id : Option RequestId)
  | handleTimeout (jobId : JobId) (id : Option RequestId) (sendCancelHint : Bool)
  | close

def RunnerCall.code (owner : SocketRunner) (turns : Nat) : RunnerCall → Code Unit
  | execute request => do let _ ← owner.execute turns request
  | executeWithTimeout request sendCancelHint => do
      let _ ← owner.executeWithTimeout turns request sendCancelHint
  | cancel jobId id => do let _ ← SocketRunner.cancel jobId id
  | handleTimeout jobId id sendCancelHint => do
      let _ ← owner.handleTimeout jobId id sendCancelHint
  | close => SocketRunner.close

inductive SocketEvent where
  | call (id : CallId) (call : RunnerCall) (turns : Nat)
  -- A call is dropped where it awaits something, and its permit with it.
  | drop (id : CallId)
  | childExits (process : ProcessId)
  | connectionCloses (connection : ConnectionId)

def Shared.childExits (s : Shared) (i : ProcessId) : Option Shared :=
  if (s.process i).child = some .running then
    some (s.modify i fun process => { process with child := some .exited })
  else none

-- The requests that are pending are told.
def Shared.connectionCloses (s : Shared) (connection : ConnectionId) : Shared :=
  { s with
    closed := Function.update s.closed connection true
    pending := Function.update s.pending connection [] }

abbrev RunnerMachine := Machine SocketOp SocketOp.Reply SocketChance Shared CallId RunnerCall SocketEvent

def SocketRunner.machine (owner : SocketRunner) : RunnerMachine where
  exec call _ op chance s := owner.exec call op chance s
  fork _ _ _ _ := none
  move
    | .call _ _ _, s => some s
    | .drop id, s => some (s.dropPermit id)
    | .childExits process, s => s.childExits process
    | .connectionCloses connection, s => some (s.connectionCloses connection)
  stops
    | .drop id, pid, _ => id = pid
    | _, _, _ => false
  spawn
    | .call id call turns => some (id, call, call.code owner turns)
    | _ => none

end Rrq.Runner
