import Mathlib.Data.String.Basic
import Mathlib.Algebra.Order.Ring.Rat
import Mathlib.Tactic.Simps.Basic
import Rrq.Redis.SortedSet
import Rrq.Redis.Script
import Rrq.Settings

-- The Redis keyspaces of the queue.

namespace Rrq

-- A value with the time in milliseconds at which it expires, if it does.
structure Volatile (α : Type) where
  value : α
  expireAt : Option Int := none

def Volatile.liveAt {α : Type} (now : Int) (cell : Volatile α) : Bool :=
  match cell.expireAt with
  | none => true
  | some time => now < time

-- A lock cell names its owner. A cell of another type answers every read with WRONGTYPE.
inductive LockCell where
  | owner (name : String)
  | malformed
deriving DecidableEq

structure Event where
  event : String
  jobId : JobId
  status : String
deriving DecidableEq

structure Store where
  now : Int
  jobs : JobId → Option (Volatile JobHash)
  queues : QueueKey → SortedSet JobId ℚ
  active : WorkerId → SortedSet JobId ℚ
  locks : JobId → Option (Volatile LockCell)
  uniqueLocks : String → Option (Volatile JobId)
  health : WorkerId → Option (Volatile Unit)
  dlq : String → List JobId
  events : JobId → Option (Volatile (List Event))
  idempotency : String → Option (Volatile JobId)
  rateLimits : String → Option (Volatile JobId)
  debounces : String → Option (Volatile JobId)

namespace Store

def empty : Store where
  now := 0
  jobs _ := none
  queues _ := .empty
  active _ := .empty
  locks _ := none
  uniqueLocks _ := none
  health _ := none
  dlq _ := []
  events _ := none
  idempotency _ := none
  rateLimits _ := none
  debounces _ := none

-- What the keys of one job say.

def hash (s : Store) (id : JobId) : Option JobHash := (s.jobs id).map Volatile.value

def status (s : Store) (id : JobId) : Option String := (s.hash id).bind JobHash.status

def lock (s : Store) (id : JobId) : Option LockCell := (s.locks id).map Volatile.value

def Queued (s : Store) (id : JobId) : Prop := ∃ queue, id ∈ s.queues queue

-- The status of the job, if it is one that a job can still be executed from.
def Live (s : Store) (id : JobId) : Prop :=
  ∃ status : JobStatus, s.status id = some status.asStr ∧ status.Live

-- Time passes, and what has expired is gone.
def advance (s : Store) (now : Int) : Store :=
  { s with
    now
    jobs := fun id => (s.jobs id).filter (Volatile.liveAt now)
    locks := fun id => (s.locks id).filter (Volatile.liveAt now)
    uniqueLocks := fun key => (s.uniqueLocks key).filter (Volatile.liveAt now)
    health := fun worker => (s.health worker).filter (Volatile.liveAt now)
    events := fun id => (s.events id).filter (Volatile.liveAt now)
    idempotency := fun key => (s.idempotency key).filter (Volatile.liveAt now)
    rateLimits := fun key => (s.rateLimits key).filter (Volatile.liveAt now)
    debounces := fun key => (s.debounces key).filter (Volatile.liveAt now) }

-- Redis takes an expiry only if its time is a 64-bit number of milliseconds.
def ExpiryOk (s : Store) (millis : Int) : Prop := InI64 millis ∧ InI64 (s.now + millis)

instance (s : Store) (millis : Int) : Decidable (s.ExpiryOk millis) :=
  inferInstanceAs (Decidable (_ ∧ _))

-- One key is overwritten.

@[simps] def setJob (s : Store) (id : JobId) (cell : Option (Volatile JobHash)) : Store :=
  { s with jobs := Function.update s.jobs id cell }

@[simps] def setQueue (s : Store) (queue : QueueKey) (set : SortedSet JobId ℚ) : Store :=
  { s with queues := Function.update s.queues queue set }

@[simps] def setActive (s : Store) (worker : WorkerId) (set : SortedSet JobId ℚ) : Store :=
  { s with active := Function.update s.active worker set }

@[simps] def setLock (s : Store) (id : JobId) (cell : Option (Volatile LockCell)) : Store :=
  { s with locks := Function.update s.locks id cell }

@[simps] def setUniqueLock (s : Store) (key : String) (cell : Option (Volatile JobId)) : Store :=
  { s with uniqueLocks := Function.update s.uniqueLocks key cell }

@[simps] def setHealth (s : Store) (worker : WorkerId) (cell : Option (Volatile Unit)) : Store :=
  { s with health := Function.update s.health worker cell }

@[simps] def setDlq (s : Store) (name : String) (ids : List JobId) : Store :=
  { s with dlq := Function.update s.dlq name ids }

@[simps] def setEvents (s : Store) (id : JobId) (cell : Option (Volatile (List Event))) : Store :=
  { s with events := Function.update s.events id cell }

@[simps] def setIdempotency (s : Store) (key : String) (cell : Option (Volatile JobId)) : Store :=
  { s with idempotency := Function.update s.idempotency key cell }

@[simps] def setRateLimit (s : Store) (key : String) (cell : Option (Volatile JobId)) : Store :=
  { s with rateLimits := Function.update s.rateLimits key cell }

@[simps] def setDebounce (s : Store) (key : String) (cell : Option (Volatile JobId)) : Store :=
  { s with debounces := Function.update s.debounces key cell }

end Store

end Rrq
