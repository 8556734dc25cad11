import Rrq.Store
import Rrq.Redis.Double

-- The Redis commands that the scripts and the pipelines are made of.

namespace Rrq.Store

def hset (s : Store) (id : JobId) (fields : JobHash → JobHash) : Store :=
  match s.jobs id with
  | none => s.setJob id (some { value := fields {} })
  | some cell => s.setJob id (some { cell with value := fields cell.value })

-- Fields are only deleted from hashes that keep others, so the key stays.
def hdel (s : Store) (id : JobId) (fields : JobHash → JobHash) : Store :=
  match s.jobs id with
  | none => s
  | some cell => s.setJob id (some { cell with value := fields cell.value })

-- The counter after HINCRBY, which refuses a text that is no integer and an overflow.
def nextRetries (s : Store) (id : JobId) : Option Int :=
  match (s.hash id).bind JobHash.currentRetries with
  | none => some 1
  | some text => text.parse.bind fun n => checkedAdd n 1

def hincrby (s : Store) (id : JobId) : Option (Int × Store) :=
  (s.nextRetries id).map fun n => (n, s.hset id fun h => { h with currentRetries := some (.int n) })

def expireJob (s : Store) (id : JobId) (seconds : Int) : Store :=
  match s.jobs id with
  | none => s
  | some cell => s.setJob id (some { cell with expireAt := some (s.now + seconds * 1000) })

def persistJob (s : Store) (id : JobId) : Store :=
  match s.jobs id with
  | none => s
  | some cell => s.setJob id (some { cell with expireAt := none })

def zadd (s : Store) (queue : QueueKey) (id : JobId) (score : ℚ) : Store :=
  s.setQueue queue ((s.queues queue).insert id score)

def zrem (s : Store) (queue : QueueKey) (id : JobId) : Store :=
  s.setQueue queue ((s.queues queue).erase id)

def zaddActive (s : Store) (worker : WorkerId) (id : JobId) (score : ℚ) : Store :=
  s.setActive worker ((s.active worker).insert id score)

def zremActive (s : Store) (worker : WorkerId) (id : JobId) : Store :=
  s.setActive worker ((s.active worker).erase id)

def lpush (s : Store) (name : String) (id : JobId) : Store :=
  s.setDlq name (id :: s.dlq name)

def xadd (s : Store) (id : JobId) (event : Event) : Store :=
  match s.events id with
  | none => s.setEvents id (some { value := [event] })
  | some cell => s.setEvents id (some { cell with value := cell.value ++ [event] })

def expireEvents (s : Store) (id : JobId) (seconds : Int) : Store :=
  match s.events id with
  | none => s
  | some cell => s.setEvents id (some { cell with expireAt := some (s.now + seconds * 1000) })

def persistEvents (s : Store) (id : JobId) : Store :=
  match s.events id with
  | none => s
  | some cell => s.setEvents id (some { cell with expireAt := none })

-- GET of a lock, which fails on a cell of another type.
def getLock (s : Store) (id : JobId) : Option (Option String × Store) :=
  match s.lock id with
  | none => some (none, s)
  | some (.owner name) => some (some name, s)
  | some .malformed => none

-- An expiry that SET takes: a positive integer whose time is a 64-bit number.
def PxOk (s : Store) (px : ℚ) : Prop := px.den = 1 ∧ 0 < px ∧ InI64 (s.now + px.num)

instance (s : Store) (px : ℚ) : Decidable (s.PxOk px) := inferInstanceAs (Decidable (_ ∧ _))

-- SET NX PX of a lock. The expiry is checked before the key is looked at.
def setLockNx (s : Store) (id : JobId) (owner : String) (px : ℚ) : Option (Bool × Store) :=
  if s.PxOk px then
    if (s.locks id).isSome then some (false, s)
    else some (true, s.setLock id (some { value := .owner owner, expireAt := some (s.now + px.num) }))
  else none

def delLock (s : Store) (id : JobId) : Store := s.setLock id none

end Rrq.Store
