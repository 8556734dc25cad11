import Rrq.Store.Frame

-- What the commands about one job leave alone: everything about the other jobs.

namespace Rrq.Store

-- Two stores agree on a job: on its hash, its lock and its places.
structure SameJob (id : JobId) (s t : Store) : Prop where
  cell : t.jobs id = s.jobs id
  queues : ∀ queue, id ∈ t.queues queue ↔ id ∈ s.queues queue
  active : ∀ worker, id ∈ t.active worker ↔ id ∈ s.active worker
  lock : t.locks id = s.locks id

namespace SameJob

variable {id : JobId} {s t u : Store}

theorem refl (id : JobId) (s : Store) : SameJob id s s := ⟨rfl, fun _ => .rfl, fun _ => .rfl, rfl⟩

theorem trans (hst : SameJob id s t) (htu : SameJob id t u) : SameJob id s u where
  cell := htu.cell.trans hst.cell
  queues queue := (htu.queues queue).trans (hst.queues queue)
  active worker := (htu.active worker).trans (hst.active worker)
  lock := htu.lock.trans hst.lock

theorem hash (h : SameJob id s t) : t.hash id = s.hash id := by
  unfold Store.hash
  rw [h.cell]

theorem status (h : SameJob id s t) : t.status id = s.status id := by
  unfold Store.status
  rw [h.hash]

theorem live (h : SameJob id s t) : t.Live id ↔ s.Live id := by
  unfold Store.Live
  rw [h.status]

theorem queued (h : SameJob id s t) : t.Queued id ↔ s.Queued id :=
  exists_congr h.queues

end SameJob

-- Each primitive about another job.

section Primitives

variable {id other : JobId} (hne : id ≠ other) (s : Store)

include hne

theorem sameJob_setJob (cell : Option (Volatile JobHash)) :
    SameJob id s (s.setJob other cell) :=
  ⟨by simp [hne], fun _ => by simp, fun _ => by simp, by simp⟩

theorem sameJob_setLock (cell : Option (Volatile LockCell)) :
    SameJob id s (s.setLock other cell) :=
  ⟨by simp, fun _ => by simp, fun _ => by simp, by simp [hne]⟩

theorem sameJob_hset (fields : JobHash → JobHash) : SameJob id s (s.hset other fields) := by
  unfold hset
  split <;> exact sameJob_setJob hne s _

theorem sameJob_hdel (fields : JobHash → JobHash) : SameJob id s (s.hdel other fields) := by
  unfold hdel
  split
  · exact .refl id s
  · exact sameJob_setJob hne s _

theorem sameJob_expireJob (seconds : Int) : SameJob id s (s.expireJob other seconds) := by
  unfold expireJob
  split
  · exact .refl id s
  · exact sameJob_setJob hne s _

theorem sameJob_persistJob : SameJob id s (s.persistJob other) := by
  unfold persistJob
  split
  · exact .refl id s
  · exact sameJob_setJob hne s _

theorem sameJob_zadd (queue : QueueKey) (score : ℚ) :
    SameJob id s (s.zadd queue other score) := by
  refine ⟨by simp [zadd], fun q => ?_, fun _ => by simp [zadd], by simp [zadd]⟩
  by_cases hq : q = queue
  · subst hq
    simp [zadd, hne]
  · simp [zadd, hq]

theorem sameJob_zrem (queue : QueueKey) : SameJob id s (s.zrem queue other) := by
  refine ⟨by simp [zrem], fun q => ?_, fun _ => by simp [zrem], by simp [zrem]⟩
  by_cases hq : q = queue
  · subst hq
    simp [zrem, hne]
  · simp [zrem, hq]

theorem sameJob_zaddActive (worker : WorkerId) (score : ℚ) :
    SameJob id s (s.zaddActive worker other score) := by
  refine ⟨by simp [zaddActive], fun _ => by simp [zaddActive], fun w => ?_, by simp [zaddActive]⟩
  by_cases hw : w = worker
  · subst hw
    simp [zaddActive, hne]
  · simp [zaddActive, hw]

theorem sameJob_zremActive (worker : WorkerId) : SameJob id s (s.zremActive worker other) := by
  refine ⟨by simp [zremActive], fun _ => by simp [zremActive], fun w => ?_, by simp [zremActive]⟩
  by_cases hw : w = worker
  · subst hw
    simp [zremActive, hne]
  · simp [zremActive, hw]

end Primitives

-- Primitives that touch no job at all.

section Others

variable (id : JobId) (s : Store)

theorem sameJob_lpush (name : String) (other : JobId) : SameJob id s (s.lpush name other) :=
  ⟨by simp [lpush], fun _ => by simp [lpush], fun _ => by simp [lpush], by simp [lpush]⟩

theorem sameJob_setEvents (other : JobId) (cell : Option (Volatile (List Event))) :
    SameJob id s (s.setEvents other cell) :=
  ⟨by simp, fun _ => by simp, fun _ => by simp, by simp⟩

theorem sameJob_setUniqueLock (key : String) (cell : Option (Volatile JobId)) :
    SameJob id s (s.setUniqueLock key cell) :=
  ⟨by simp, fun _ => by simp, fun _ => by simp, by simp⟩

theorem sameJob_setHealth (worker : WorkerId) (cell : Option (Volatile Unit)) :
    SameJob id s (s.setHealth worker cell) :=
  ⟨by simp, fun _ => by simp, fun _ => by simp, by simp⟩

end Others

-- What is about the other jobs is nothing to this one.
theorem frame_sameJob (id : JobId) : Frame (fun _ => True) (id ≠ ·) (SameJob id) where
  refl := .refl id
  trans _ _ _ := SameJob.trans
  define _ s _ fields hne := sameJob_hset hne s fields
  hset _ s _ fields hne _ := sameJob_hset hne s fields
  hdel _ s _ fields hne _ := sameJob_hdel hne s fields
  expireJob _ s _ seconds hne := sameJob_expireJob hne s seconds
  persistJob _ s _ hne := sameJob_persistJob hne s
  zadd _ s queue _ score hne := sameJob_zadd hne s queue score
  zrem _ s queue _ hne := sameJob_zrem hne s queue
  zaddActive _ s worker _ score hne := sameJob_zaddActive hne s worker score
  zremActive _ s worker _ hne := sameJob_zremActive hne s worker
  setLock _ s _ cell hne _ := sameJob_setLock hne s cell
  lpush _ s name other _ := sameJob_lpush id s name other
  setHealth _ s worker cell := sameJob_setHealth id s worker cell
  setEvents s other cell := sameJob_setEvents id s other cell
  setUniqueLock _ s key cell := sameJob_setUniqueLock id s key cell
  setIdempotency _ _ _ := ⟨rfl, fun _ => .rfl, fun _ => .rfl, rfl⟩
  setRateLimit _ _ _ := ⟨rfl, fun _ => .rfl, fun _ => .rfl, rfl⟩
  setDebounce _ _ _ := ⟨rfl, fun _ => .rfl, fun _ => .rfl, rfl⟩

end Rrq.Store

namespace Rrq.Cmd

open Store

-- A command is nothing to the jobs that it does not concern, whatever befalls it.
theorem sameJob_exec {c : Cmd} (id : JobId) (hc : ∀ other, c.concerns other → id ≠ other)
    (fault : Fault) (page : Nat × List String) (s : Store) :
    SameJob id s (c.exec fault page s).2 :=
  frame_exec (frame_sameJob id) (fun _ _ => trivial) hc fault page s

end Rrq.Cmd

namespace Rrq.Store

open Script Scripts

-- Two stores that differ at most in their job locks.
structure SameButLocks (s t : Store) : Prop where
  eq : t = { s with locks := t.locks }

namespace SameButLocks

variable {s t u : Store}

theorem refl (s : Store) : SameButLocks s s := ⟨rfl⟩

theorem trans (hst : SameButLocks s t) (htu : SameButLocks t u) : SameButLocks s u := by
  constructor
  rw [htu.eq, hst.eq]

theorem now (h : SameButLocks s t) : t.now = s.now := by rw [h.eq]

theorem jobs (h : SameButLocks s t) : t.jobs = s.jobs := by rw [h.eq]

theorem queues (h : SameButLocks s t) : t.queues = s.queues := by rw [h.eq]

theorem active (h : SameButLocks s t) : t.active = s.active := by rw [h.eq]

theorem dlq (h : SameButLocks s t) : t.dlq = s.dlq := by rw [h.eq]

theorem hash (h : SameButLocks s t) (id : JobId) : t.hash id = s.hash id := by
  simp only [Store.hash, h.jobs]

theorem status (h : SameButLocks s t) (id : JobId) : t.status id = s.status id := by
  simp only [Store.status, h.hash]

theorem live (h : SameButLocks s t) (id : JobId) : t.Live id ↔ s.Live id := by
  simp only [Store.Live, h.status]

theorem queued (h : SameButLocks s t) (id : JobId) : t.Queued id ↔ s.Queued id := by
  simp only [Store.Queued, h.queues]

end SameButLocks

theorem sameButLocks_setLock (s : Store) (id : JobId) (cell : Option (Volatile LockCell)) :
    SameButLocks s (s.setLock id cell) := ⟨rfl⟩

theorem keeps_sameButLocks_releaseLockIfOwner (s : Store) (id : JobId) (owner : String) :
    Keeps (SameButLocks s) (releaseLockIfOwner id owner) := by
  refine .bind (keeps_getLock _ id) fun owner => .ite ?_ (.pure _)
  exact .bind (.write fun t ht => ht.trans (sameButLocks_setLock t id none)) fun _ => .pure _

theorem keeps_sameButLocks_refreshLock (s : Store) (id : JobId) (workerId : String)
    (lockTimeoutMs : Int) : Keeps (SameButLocks s) (refreshLock id workerId lockTimeoutMs) := by
  refine .bind (keeps_getLock _ id) fun owner => .ite ?_ (.pure _)
  refine Keeps.call fun t value after heq ht => ?_
  split at heq
  · obtain ⟨rfl, rfl⟩ := Prod.mk.injEq .. ▸ Option.some.inj heq
    exact ht.trans (sameButLocks_setLock t id _)
  · cases heq

end Rrq.Store

namespace Rrq.Cmd

open Store

variable {fault : Fault} {page : Nat × List String} {s t : Store}

theorem releaseJobLockIfOwner_inv {id : JobId} {owner : String} {answer : Except RedisError Bool}
    (h : (releaseJobLockIfOwner id owner).exec fault page s = (answer, t)) : SameButLocks s t := by
  have hk := keeps_script fault (lockError s id) (decide <| · ≠ 0)
    (keeps_sameButLocks_releaseLockIfOwner s id owner) (.refl s)
  have ht := congrArg Prod.snd h
  dsimp only at ht
  rw [← ht]
  exact hk

theorem refreshJobLockTimeout_inv {id : JobId} {workerId : WorkerId} {ms : Int}
    {answer : Except RedisError Bool}
    (h : (refreshJobLockTimeout id workerId ms).exec fault page s = (answer, t)) :
    SameButLocks s t := by
  have hk := keeps_script fault (lockError s id) (decide <| · ≠ 0)
    (keeps_sameButLocks_refreshLock s id workerId ms) (.refl s)
  have ht := congrArg Prod.snd h
  dsimp only at ht
  rw [← ht]
  exact hk

-- The command that takes a job out of an active set does only that, unless it fails.
theorem removeActiveJob_inv {workerId : WorkerId} {id : JobId} {answer : Except RedisError Unit}
    (h : (removeActiveJob workerId id).exec fault page s = (answer, t)) :
    t = (if fault = .none then s.zremActive workerId id else s) ∧
      (answer = if fault = .none then .ok () else .error .failed) := by
  simp only [exec, single, reply] at h
  cases fault <;> obtain ⟨rfl, rfl⟩ := Prod.mk.injEq .. ▸ h <;> simp

theorem getJobDataMap_inv {id : JobId} {answer : Except RedisError (Option JobHash)}
    (h : (getJobDataMap id).exec fault page s = (answer, t)) :
    t = s ∧ answer = if fault = .none then .ok (s.hash id) else .error .failed := by
  simp only [exec, single, reply] at h
  cases fault <;> obtain ⟨rfl, rfl⟩ := Prod.mk.injEq .. ▸ h <;> simp

theorem isJobQueued_inv {queue : QueueKey} {id : JobId} {answer : Except RedisError Bool}
    (h : (isJobQueued queue id).exec fault page s = (answer, t)) :
    t = s ∧ ∀ queued, answer = .ok queued → (queued = true ↔ id ∈ s.queues queue) := by
  simp only [exec, single, reply] at h
  cases fault <;> obtain ⟨rfl, rfl⟩ := Prod.mk.injEq .. ▸ h <;> refine ⟨rfl, ?_⟩
  · rintro queued ⟨⟩
    simp
  · rintro _ ⟨⟩
  · rintro _ ⟨⟩

-- The owner that is read is the one that the lock names.
theorem getJobLockOwner_inv {id : JobId} {answer : Except RedisError (Option String)}
    (h : (getJobLockOwner id).exec fault page s = (answer, t)) :
    t = s ∧ ∀ owner, answer = .ok owner → s.lock id = owner.map .owner := by
  cases fault with
  | none =>
      simp only [exec, single, getLock, reply] at h
      cases hlock : s.lock id with
      | none =>
          simp only [hlock, Prod.mk.injEq] at h
          obtain ⟨rfl, rfl⟩ := h
          exact ⟨rfl, by rintro _ ⟨⟩; rfl⟩
      | some cell =>
      cases cell <;> simp only [hlock, Prod.mk.injEq] at h <;> obtain ⟨rfl, rfl⟩ := h
      · exact ⟨rfl, by rintro _ ⟨⟩; rfl⟩
      · exact ⟨rfl, by rintro _ ⟨⟩⟩
  | _ =>
      obtain ⟨rfl, rfl⟩ := Prod.mk.injEq .. ▸ h
      exact ⟨rfl, by rintro _ ⟨⟩⟩

-- A plain command that answers has not failed.
theorem single_ok {α : Type} {command : Store → Result α} {value : α}
    (h : single fault s command = (.ok value, t)) : command s = (.ok value, t) := by
  cases fault with
  | none => exact h
  | _ => cases h

end Rrq.Cmd
