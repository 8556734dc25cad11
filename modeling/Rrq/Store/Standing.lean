import Rrq.Store.Atomic
import Rrq.Store.Claim
import Rrq.Store.Outcome

-- Where a job stands: its hash, and the one place that the store has for it.

namespace Rrq.Store

open Script Scripts

-- The queue that a job is in, the worker that has it active, who may hold its lock, and the
-- dead letter queue that it is listed in once.
structure Standing where
  queue : Option QueueKey := none
  worker : Option WorkerId := none
  holder : Option String := none
  dlq : Option String := none

structure Stands (s : Store) (id : JobId) (h : JobHash) (p : Standing) : Prop where
  hash : s.hash id = some h
  queued : ∀ queue, id ∈ s.queues queue ↔ p.queue = some queue
  active : ∀ worker, id ∈ s.active worker ↔ p.worker = some worker
  lock : ∀ cell, s.lock id = some cell → ∃ owner, p.holder = some owner ∧ cell = .owner owner
  listed : ∀ name, (s.dlq name).count id = if p.dlq = some name then 1 else 0

-- What happens to other jobs, and the expiry of a lock.
structure Untouched (id : JobId) (s t : Store) : Prop where
  hash : t.hash id = s.hash id
  queued : ∀ queue, id ∈ t.queues queue ↔ id ∈ s.queues queue
  active : ∀ worker, id ∈ t.active worker ↔ id ∈ s.active worker
  lock : ∀ cell, t.lock id = some cell → s.lock id = some cell
  listed : ∀ name, (t.dlq name).count id = (s.dlq name).count id

-- Writes that are not to a dead letter queue leave the dead letter queues alone.
theorem frame_sameDlq : Frame (· ≠ .dlq) (fun _ => True) fun s t => t.dlq = s.dlq where
  refl _ := rfl
  trans _ _ _ hst htu := htu.trans hst
  define _ s id _ _ := dlq_hset s id _
  hset _ s id _ _ _ := dlq_hset s id _
  hdel _ s id _ _ _ := by unfold hdel; split <;> rfl
  expireJob _ s id seconds _ := (sameStatus_expireJob s id seconds).dlq
  persistJob _ s id _ := (sameStatus_persistJob s id).dlq
  zadd _ _ _ _ _ _ := rfl
  zrem _ _ _ _ _ := rfl
  zaddActive _ _ _ _ _ _ := rfl
  zremActive _ _ _ _ _ := rfl
  setLock _ _ _ _ _ _ := rfl
  lpush h := absurd rfl h
  setHealth _ _ _ _ := rfl
  setEvents _ _ _ := rfl
  setUniqueLock _ _ _ _ := rfl
  setIdempotency _ _ _ := rfl
  setRateLimit _ _ _ := rfl
  setDebounce _ _ _ := rfl

namespace Stands

variable {s t : Store} {id : JobId} {h later : JobHash} {p : Standing}

theorem untouched (hs : s.Stands id h p) (hu : Untouched id s t) : t.Stands id h p where
  hash := hu.hash.trans hs.hash
  queued queue := (hu.queued queue).trans (hs.queued queue)
  active worker := (hu.active worker).trans (hs.active worker)
  lock cell hcell := hs.lock cell (hu.lock cell hcell)
  listed name := (hu.listed name).trans (hs.listed name)

theorem status (hs : s.Stands id h p) : s.status id = h.status := by
  simp [Store.status, hs.hash]

theorem live (hs : s.Stands id h p) {status : JobStatus} (hstatus : h.status = some status.asStr) :
    s.Live id ↔ status.Live :=
  live_iff (hs.status.trans hstatus)

theorem present (hs : s.Stands id h p) : (s.hash id).isSome := by
  rw [hs.hash]
  rfl

theorem notMalformed (hs : s.Stands id h p) : s.lock id ≠ some .malformed := by
  intro hlock
  obtain ⟨owner, -, howner⟩ := hs.lock _ hlock
  cases howner

-- The lock is free, or that of the one who may hold it.
theorem lock_cases (hs : s.Stands id h p) {owner : String} (hp : p.holder = some owner) :
    s.lock id = none ∨ s.lock id = some (.owner owner) := by
  cases hlock : s.lock id with
  | none => exact .inl rfl
  | some cell =>
      obtain ⟨name, hname, rfl⟩ := hs.lock cell hlock
      obtain rfl := Option.some.inj (hp.symm.trans hname)
      exact .inr rfl

-- The hash is written, and all else is as it was.
theorem written (hs : s.Stands id h p) (hplaces : SamePlaces s t)
    (hlocks : t.locks id = s.locks id) (hdlq : t.dlq = s.dlq) (hhash : t.hash id = some later) :
    t.Stands id later p where
  hash := hhash
  queued queue := by rw [hplaces.queues, hs.queued]
  active worker := by rw [hplaces.active, hs.active]
  lock cell hcell := hs.lock cell (lock_congr hlocks ▸ hcell)
  listed name := by rw [hdlq, hs.listed]

theorem hset (hs : s.Stands id h p) (fields : JobHash → JobHash) :
    (s.hset id fields).Stands id (fields h) p := by
  refine hs.written (samePlaces_hset s id fields) (congrFun (locks_hset s id fields) id)
    (dlq_hset s id fields) ?_
  rw [hash_hset, hs.hash]
  rfl

theorem hdel (hs : s.Stands id h p) (fields : JobHash → JobHash) :
    (s.hdel id fields).Stands id (fields h) p := by
  have hdlq : (s.hdel id fields).dlq = s.dlq := by
    have hrest := sameRest_hdel (s := s) id fields
    rw [hrest]
  refine hs.written (samePlaces_hdel s id fields) (congrFun (locks_hdel s id fields) id) hdlq ?_
  rw [hash_hdel, hs.hash]
  rfl

theorem of_sameStatus (hs : s.Stands id h p) (hsame : SameStatus id s t)
    (hlocks : t.locks id = s.locks id) (hhash : t.hash id = s.hash id) : t.Stands id h p :=
  hs.written hsame.places hlocks hsame.dlq (hhash.trans hs.hash)

theorem setEvents (hs : s.Stands id h p) (cell : Option (Volatile (List Event))) :
    (s.setEvents id cell).Stands id h p :=
  hs.of_sameStatus (sameStatus_setEvents s id id cell) rfl rfl

theorem setUniqueLock (hs : s.Stands id h p) (key : String) (cell : Option (Volatile JobId)) :
    (s.setUniqueLock key cell).Stands id h p :=
  ⟨hs.hash, hs.queued, hs.active, hs.lock, hs.listed⟩

theorem xadd (hs : s.Stands id h p) (event : Event) : (s.xadd id event).Stands id h p := by
  unfold Store.xadd
  split <;> exact hs.setEvents _

theorem expireJob (hs : s.Stands id h p) (seconds : Int) : (s.expireJob id seconds).Stands id h p :=
  hs.of_sameStatus (sameStatus_expireJob s id seconds)
    (congrFun (locks_expireJob s id seconds) id) (hash_expireJob s id id seconds)

theorem persistJob (hs : s.Stands id h p) : (s.persistJob id).Stands id h p :=
  hs.of_sameStatus (sameStatus_persistJob s id) (congrFun (locks_persistJob s id) id)
    (hash_persistJob s id id)

theorem expireEvents (hs : s.Stands id h p) (seconds : Int) :
    (s.expireEvents id seconds).Stands id h p := by
  unfold Store.expireEvents
  split
  · exact hs
  · exact hs.setEvents _

theorem persistEvents (hs : s.Stands id h p) : (s.persistEvents id).Stands id h p := by
  unfold Store.persistEvents
  split
  · exact hs
  · exact hs.setEvents _

theorem zadd (hs : s.Stands id h p) (hp : p.queue = none) (queue : QueueKey) (score : ℚ) :
    (s.zadd queue id score).Stands id h { p with queue := some queue } where
  hash := hs.hash
  queued other := by
    by_cases ho : other = queue
    · subst ho
      simp [Store.zadd]
    · have hnot : id ∉ s.queues other := by simp [hs.queued, hp]
      simp [Store.zadd, ho, hnot, Ne.symm ho]
  active := hs.active
  lock := hs.lock
  listed := hs.listed

theorem zremActive (hs : s.Stands id h p) {worker : WorkerId} (hp : ∀ w, p.worker = some w → w = worker) :
    (s.zremActive worker id).Stands id h { p with worker := none } where
  hash := hs.hash
  queued := hs.queued
  active other := by
    by_cases ho : other = worker
    · subst ho
      simp [Store.zremActive]
    · have hnot : id ∉ s.active other := fun hm => ho (hp other ((hs.active other).mp hm))
      simp [Store.zremActive, ho, hnot]
  lock := hs.lock
  listed := hs.listed

theorem delLock (hs : s.Stands id h p) (holder : Option String) :
    (s.delLock id).Stands id h { p with holder } where
  hash := hs.hash
  queued := hs.queued
  active := hs.active
  lock cell hcell := by simp [Store.lock, Store.delLock] at hcell
  listed := hs.listed

theorem setLock (hs : s.Stands id h p) (owner : String) (expireAt : Option Int) :
    (s.setLock id (some { value := .owner owner, expireAt })).Stands id h
      { p with holder := some owner } where
  hash := hs.hash
  queued := hs.queued
  active := hs.active
  lock cell hcell := by
    simp only [Store.lock, setLock_locks, Function.update_self, Option.map_some,
      Option.some.injEq] at hcell
    exact ⟨owner, rfl, hcell.symm⟩
  listed := hs.listed

theorem free (hs : s.Stands id h p) (hlock : s.lock id = none) (holder : Option String) :
    s.Stands id h { p with holder } where
  hash := hs.hash
  queued := hs.queued
  active := hs.active
  lock cell hcell := by
    rw [hlock] at hcell
    cases hcell
  listed := hs.listed

theorem lpush (hs : s.Stands id h p) (hp : p.dlq = none) (name : String) :
    (s.lpush name id).Stands id h { p with dlq := some name } where
  hash := hs.hash
  queued := hs.queued
  active := hs.active
  lock := hs.lock
  listed other := by
    have hnone := hs.listed other
    rw [hp] at hnone
    by_cases ho : other = name
    · subst ho
      simpa [Store.lpush] using hnone
    · simpa [Store.lpush, ho, Ne.symm ho] using hnone

-- The scripts.

theorem taken {args : ClaimArgs} (hs : s.Stands id h p) (ht : Taken args id s t)
    (hdlq : t.dlq = s.dlq) (hworker : p.worker = none) :
    p.queue = some args.queueKey ∧ t.Stands id (claimHash args h)
      { p with queue := none, worker := some args.workerId, holder := some args.workerId } := by
  have hqueue : p.queue = some args.queueKey := (hs.queued _).mp ht.queued
  refine ⟨hqueue, ⟨?_, fun queue => ?_, fun worker => ?_, fun cell hcell => ?_, fun name => ?_⟩⟩
  · obtain ⟨found, hfound, hhash⟩ := ht.hash
    obtain rfl := Option.some.inj (hs.hash.symm.trans hfound)
    exact hhash
  · rw [ht.queues, hs.queued, hqueue]
    simp [eq_comm]
  · rw [ht.active, hs.active, hworker]
    simp [eq_comm]
  · exact ⟨args.workerId, rfl, Option.some.inj (hcell.symm.trans ht.lock)⟩
  · rw [hdlq, hs.listed]

theorem requeued {args : RequeueArgs} (hs : s.Stands args.id h p) (hqueue : p.queue = none)
    (hworker : ∀ worker, p.worker = some worker → args.activeWorkerId = some worker) :
    (Store.requeued args s).Stands args.id (requeuedHash args false h)
      { p with queue := some args.queueKey, worker := none } := by
  have hput := putBack_requeued (s := s) hs.present
  have hnot : args.id ∉ s.queues args.queueKey := by simp [hs.queued, hqueue]
  refine ⟨?_, fun queue => ?_, fun worker => ?_, fun cell hcell => ?_, fun name => ?_⟩
  · rw [hput.hash, hs.hash, decide_eq_false hnot]
    rfl
  · rw [hput.queues, hs.queued, hqueue]
    simp [eq_comm]
  · rw [hput.active, hs.active]
    refine iff_of_false (fun hboth => hboth.1 (hworker worker hboth.2)) (by simp)
  · refine hs.lock cell ?_
    have hlock := hput.lock
    split_ifs at hlock
    · simp [Store.lock, hlock] at hcell
    · exact lock_congr hlock ▸ hcell
  · have hdlq : (Store.requeued args s).dlq = s.dlq := by
      have hrest : SameRest s (Store.requeued args s) := sameRest_requeued
      rw [hrest]
    rw [hdlq, hs.listed]

-- What an attempt that has failed makes of the hash.
def retriedHash (count : Int) (message : String) (status : JobStatus) (h : JobHash) : JobHash :=
  { h with
    currentRetries := some (.int count)
    status := some status.asStr
    lastError := some message }

theorem hincrby (hs : s.Stands id h p) {n count : Int} (hn : h.currentRetries = some (.int n))
    (hcount : checkedAdd n 1 = some count) (hin : InI64 n) :
    s.hincrby id = some (count, s.hset id fun h => { h with currentRetries := some (.int count) }) := by
  have hparse : IntText.parse (.int n) = some n := if_pos hin
  simp [Store.hincrby, nextRetries, hs.hash, hn, hparse, hcount]

theorem retried (hs : s.Stands id h p) (hqueue : p.queue = none) {n count : Int}
    (hn : h.currentRetries = some (.int n)) (hcount : checkedAdd n 1 = some count) (hin : InI64 n)
    (queue : QueueKey) (score : ℚ) (message : String) (status : JobStatus) :
    ∃ t, (retry id queue score message status).run none s = (some count, t) ∧
      t.Stands id (retriedHash count message status h) { p with queue := some queue } := by
  unfold retry
  rw [run_call_bind, hs.hincrby hn hcount hin]
  dsimp only
  rw [run_write_bind, run_write_bind, pure_eq, run_pure]
  exact ⟨_, rfl, ((hs.hset _).hset _).zadd hqueue queue score⟩

def buriedHash (count : Int) (message : String) (time : DateTime) (h : JobHash) : JobHash :=
  { h with
    currentRetries := some (.int count)
    status := some JobStatus.Failed.asStr
    lastError := some message
    completionTime := some (.val time) }

theorem moveJobToDlq (hs : s.Stands id h p) (hdlq : p.dlq = none) (name message : String)
    (time : DateTime) :
    (Pipelines.moveJobToDlq id name message time s).Stands id
      { h with
        status := some JobStatus.Failed.asStr
        lastError := some message
        completionTime := some (.val time) } { p with dlq := some name } := by
  have hfailed := ((hs.hset fun h => { h with
    status := some JobStatus.Failed.asStr
    lastError := some message
    completionTime := some (.val time) }).xadd (failedEvent id)).lpush hdlq name
  exact (hfailed.expireJob _).expireEvents _

def savedHash (value : Json) (time : DateTime) (h : JobHash) : JobHash :=
  { h with
    result := some (.val value)
    completionTime := some (.val time)
    status := some JobStatus.Completed.asStr }

-- A result is saved even if its expiry is refused.
theorem saved (hs : s.Stands id h p) (value : Json) (ttlSeconds : Int) (time : DateTime) :
    (Pipelines.saveJobResult id value ttlSeconds time s).2.Stands id (savedHash value time h) p := by
  have hrecord : (Pipelines.recordResult id value time s).Stands id (savedHash value time h) p :=
    (hs.hset (savedHash value time)).xadd _
  simp only [Pipelines.saveJobResult]
  split_ifs
  · exact (hrecord.expireJob ttlSeconds).expireEvents ttlSeconds
  · exact hrecord
  · exact hrecord.persistJob.persistEvents
  · exact hrecord

theorem buried (hs : s.Stands id h p) (hdlq : p.dlq = none) {n count : Int}
    (hn : h.currentRetries = some (.int n)) (hcount : checkedAdd n 1 = some count) (hin : InI64 n)
    (name message : String) (time : DateTime) (uniqueKey : Option String) :
    ∃ t, (moveToDlq id name message time DEFAULT_DLQ_RESULT_TTL_SECONDS uniqueKey).run none s =
        (some count, t) ∧
      t.Stands id (buriedHash count message time h) { p with dlq := some name } := by
  have hmoved := (hs.hset fun h => { h with currentRetries := some (.int count) }).moveJobToDlq hdlq
    name message time
  refine ⟨_, Cmd.run_moveToDlq (hs.hincrby hn hcount hin) uniqueKey, ?_⟩
  cases uniqueKey with
  | none => exact hmoved
  | some key => exact hmoved.setUniqueLock key none

-- The worker that may hold the lock gives it back, if it has not expired.
theorem released (hs : s.Stands id h p) {owner : String} (hp : p.holder = some owner) :
    ∃ n t, (releaseLockIfOwner id owner).run none s = (some n, t) ∧
      t.Stands id h { p with holder := none } := by
  unfold releaseLockIfOwner
  rw [run_call_bind]
  rcases hs.lock_cases hp with hlock | hlock
  · simp only [getLock, hlock]
    exact ⟨0, s, rfl, hs.free hlock none⟩
  · simp only [getLock, hlock]
    exact ⟨1, _, rfl, hs.delLock none⟩

end Stands

end Rrq.Store
