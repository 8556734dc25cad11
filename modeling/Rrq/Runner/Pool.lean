import Mathlib.Data.Finset.Range
import Mathlib.Logic.Function.Basic
import Mathlib.Logic.Relation

-- The processes of a runner pool, the calls that are after a permit of one of them, and the
-- Notify that tells them when a permit comes back. Each step is one access to what they share.

namespace Rrq.Runner

abbrev AcquireId := Nat

-- The permits of one semaphore. One that is being dropped has told a waiter, and it is yet to
-- be released.
structure Permits where
  free : Nat
  held : Nat := 0
  dropping : Nat := 0

inductive Wake where
  | one
  | all
deriving DecidableEq

structure Notify where
  -- A notification that found nobody waiting.
  stored : Bool := false
  waiters : List AcquireId := []
  -- How often all waiters have been told.
  rounds : Nat := 0

-- One turn of the loop of acquire_process.
structure Scan where
  -- The rounds there had been when it made its Notified.
  seen : Nat
  -- Whether a notification of notify_one has set it going. No step reads it.
  notified : Bool
  start : Nat := 0
  offset : Nat := 0
deriving DecidableEq

inductive AcquireState where
  | idle
  | listing (scan : Scan)
  -- It is to ensure the process at its offset, or to wait if it has tried them all.
  | scanning (scan : Scan)
  | ensured (scan : Scan)
  -- It has the semaphore that the process had at that time.
  | trying (scan : Scan) (era : Nat)
  | waiting
  | told (wake : Wake)
  | returned
deriving DecidableEq

inductive Ensured where
  | running
  | respawned
  | failed
deriving DecidableEq

structure SocketRunnerPool where
  poolSize : Nat
  maxInFlight : Nat
  -- How often a process has been respawned, and the semaphore it has had since.
  era : Nat → Nat := fun _ => 0
  permits : Nat → Nat → Permits := fun _ _ => ⟨maxInFlight, 0, 0⟩
  cursor : Nat := 0
  availability : Notify := {}
  count : Nat := 0
  states : AcquireId → AcquireState := fun _ => .idle

inductive PoolEvent where
  | acquireProcess
  -- The next step of a call.
  | act (id : AcquireId)
  | ensureProcess (id : AcquireId) (outcome : Ensured)
  -- A call is dropped where it awaits something.
  | cancel (id : AcquireId)
  -- The body of the drop of a permit, and the drop of its fields.
  | drop (process era : Nat)
  | release (process era : Nat)

namespace SocketRunnerPool

variable (s : SocketRunnerPool)

def moveTo (id : AcquireId) (state : AcquireState) : SocketRunnerPool :=
  { s with states := Function.update s.states id state }

def setPermits (process era : Nat) (permits : Permits) : SocketRunnerPool :=
  { s with
    permits := Function.update s.permits process
      (Function.update (s.permits process) era permits) }

def notifyOne : SocketRunnerPool :=
  match s.availability.waiters with
  | [] => { s with availability := { s.availability with stored := true } }
  | id :: rest =>
      { s with availability := { s.availability with waiters := rest } }.moveTo id (.told .one)

def notifyWaiters : SocketRunnerPool :=
  { s with
    availability := { s.availability with waiters := [], rounds := s.availability.rounds + 1 }
    states := fun id => if id ∈ s.availability.waiters then .told .all else s.states id }

-- A new Notified, at the top of the loop.
def loop (id : AcquireId) (notified : Bool) : SocketRunnerPool :=
  s.moveTo id (.listing { seen := s.availability.rounds, notified })

def acquireProcess : SocketRunnerPool :=
  { s with count := s.count + 1 }.loop s.count false

-- The process that a scan has come to.
def index (scan : Scan) : Nat := (scan.start + scan.offset) % s.poolSize

-- The first poll of a Notified takes a stored notification, or else is over at once if all
-- waiters have been told since it was made.
def awaitNotified (id : AcquireId) (scan : Scan) : SocketRunnerPool :=
  if s.availability.stored then
    { s with availability := { s.availability with stored := false } }.loop id true
  else if scan.seen ≠ s.availability.rounds then s.loop id false
  else
    { s with availability :=
        { s.availability with waiters := s.availability.waiters ++ [id] } }.moveTo id .waiting

def tryAcquireOwned (id : AcquireId) (scan : Scan) (era : Nat) : SocketRunnerPool :=
  let permits := s.permits (s.index scan) era
  if 0 < permits.free then
    (s.setPermits (s.index scan) era
      { permits with free := permits.free - 1, held := permits.held + 1 }).moveTo id .returned
  else s.moveTo id (.scanning { scan with offset := scan.offset + 1 })

def act (id : AcquireId) : Option SocketRunnerPool :=
  match s.states id with
  | .listing scan =>
      if s.poolSize = 0 then some (s.moveTo id .returned)
      else
        some ({ s with cursor := s.cursor + 1 }.moveTo id
          (.scanning { scan with start := s.cursor, offset := 0 }))
  | .scanning scan => if scan.offset < s.poolSize then none else some (s.awaitNotified id scan)
  | .ensured scan => some (s.moveTo id (.trying scan (s.era (s.index scan))))
  | .trying scan era => some (s.tryAcquireOwned id scan era)
  | .told wake => some (s.loop id (wake = .one))
  | .idle | .waiting | .returned => none

-- A process that is replaced comes with a semaphore of its own.
def respawn (process : Nat) : SocketRunnerPool :=
  let era := s.era process + 1
  ({ s with era := Function.update s.era process era }.setPermits process era
    { free := s.maxInFlight }).notifyWaiters

def ensureProcess (id : AcquireId) (outcome : Ensured) : Option SocketRunnerPool :=
  match s.states id with
  | .scanning scan =>
      if scan.offset < s.poolSize then
        match outcome with
        | .running => some (s.moveTo id (.ensured scan))
        | .respawned => some ((s.respawn (s.index scan)).moveTo id (.ensured scan))
        | .failed => some (s.moveTo id .returned)
      else none
  | _ => none

-- A waiter that is dropped before it has looked at its notification hands it on.
def cancel (id : AcquireId) : Option SocketRunnerPool :=
  match s.states id with
  | .listing _ | .ensured _ | .told .all => some (s.moveTo id .returned)
  | .scanning scan => if scan.offset < s.poolSize then some (s.moveTo id .returned) else none
  | .waiting =>
      some ({ s with availability :=
        { s.availability with waiters := s.availability.waiters.erase id } }.moveTo id .returned)
  | .told .one => some (s.moveTo id .returned).notifyOne
  | .idle | .trying _ _ | .returned => none

def drop (process era : Nat) : Option SocketRunnerPool :=
  let permits := s.permits process era
  if 0 < permits.held then
    some (s.setPermits process era
      { permits with held := permits.held - 1, dropping := permits.dropping + 1 }).notifyOne
  else none

def release (process era : Nat) : Option SocketRunnerPool :=
  let permits := s.permits process era
  if 0 < permits.dropping then
    some (s.setPermits process era
      { permits with dropping := permits.dropping - 1, free := permits.free + 1 })
  else none

def step : PoolEvent → Option SocketRunnerPool
  | .acquireProcess => some s.acquireProcess
  | .act id => s.act id
  | .ensureProcess id outcome => s.ensureProcess id outcome
  | .cancel id => s.cancel id
  | .drop process era => s.drop process era
  | .release process era => s.release process era

-- The states that a pool comes to through events that are admitted where they happen.
def Reachable (admits : SocketRunnerPool → PoolEvent → Prop) (s : SocketRunnerPool) : Prop :=
  ∃ poolSize maxInFlight, Relation.ReflTransGen
    (fun s t => ∃ event, admits s event ∧ s.step event = some t) { poolSize, maxInFlight } s

end SocketRunnerPool

end Rrq.Runner
