import Rrq.JobStore

-- Relations between stores that every write about certain jobs respects.

namespace Rrq

-- The fields of a hash that only its creator writes.
def JobHash.definition (h : JobHash) : JobHash :=
  { h with
    startTime := none
    status := none
    currentRetries := none
    nextScheduledRunTime := none
    completionTime := none
    result := none
    lastError := none
    workerId := none }

namespace Store

-- The kinds of writes. A definition is what only the creator of a hash writes.
inductive Kind where
  | definition
  | hash
  | queue
  | active
  | lock
  | dlq
  | health
  | unique
deriving DecidableEq

structure Frame (kinds : Kind → Prop) (about : JobId → Prop) (R : Store → Store → Prop) :
    Prop where
  refl : ∀ s, R s s
  trans : ∀ s t u, R s t → R t u → R s u
  define : kinds .definition → ∀ s id fields, about id → R s (s.hset id fields)
  hset : kinds .hash → ∀ s id fields, about id → (∀ h, (fields h).definition = h.definition) →
    R s (s.hset id fields)
  hdel : kinds .hash → ∀ s id fields, about id → (∀ h, (fields h).definition = h.definition) →
    R s (s.hdel id fields)
  expireJob : kinds .hash → ∀ s id seconds, about id → R s (s.expireJob id seconds)
  persistJob : kinds .hash → ∀ s id, about id → R s (s.persistJob id)
  zadd : kinds .queue → ∀ s queue id score, about id → R s (s.zadd queue id score)
  zrem : kinds .queue → ∀ s queue id, about id → R s (s.zrem queue id)
  zaddActive : kinds .active → ∀ s worker id score, about id → R s (s.zaddActive worker id score)
  zremActive : kinds .active → ∀ s worker id, about id → R s (s.zremActive worker id)
  setLock : kinds .lock → ∀ s id cell, about id →
    cell.map Volatile.value ≠ some LockCell.malformed → R s (s.setLock id cell)
  lpush : kinds .dlq → ∀ s name id, about id → R s (s.lpush name id)
  setHealth : kinds .health → ∀ s worker cell, R s (s.setHealth worker cell)
  setEvents : ∀ s id cell, R s (s.setEvents id cell)
  setUniqueLock : kinds .unique → ∀ s key cell, R s (s.setUniqueLock key cell)
  setIdempotency : ∀ s key cell, R s (s.setIdempotency key cell)
  setRateLimit : ∀ s key cell, R s (s.setRateLimit key cell)
  setDebounce : ∀ s key cell, R s (s.setDebounce key cell)

open Script Scripts

variable {kinds : Kind → Prop} {about : JobId → Prop} {R : Store → Store → Prop}
  (hf : Frame kinds about R) {id : JobId} (ha : about id) (s : Store)

include hf in
theorem Frame.keeps_write {update : Store → Store} (hu : ∀ t, R t (update t)) :
    Keeps (R s) (write update) := Keeps.write fun t ht => hf.trans s t _ ht (hu t)

theorem keeps_getLock (holds : Store → Prop) (target : JobId) :
    Keeps holds (call fun s => s.getLock target) := by
  refine Keeps.call fun t value after heq ht => ?_
  unfold getLock at heq
  split at heq <;> simp_all

namespace Frame

include hf

theorem xadd (event : Event) : R s (s.xadd id event) := by
  unfold Store.xadd
  split <;> exact hf.setEvents s id _

theorem expireEvents (seconds : Int) : R s (s.expireEvents id seconds) := by
  unfold Store.expireEvents
  split
  · exact hf.refl s
  · exact hf.setEvents s id _

theorem persistEvents : R s (s.persistEvents id) := by
  unfold Store.persistEvents
  split
  · exact hf.refl s
  · exact hf.setEvents s id _

include ha

theorem delLock (hl : kinds .lock) : R s (s.delLock id) := hf.setLock hl s id none ha (by simp)

theorem setLockNx (hl : kinds .lock) {owner : String} {px : ℚ} {taken : Bool} {t : Store}
    (h : s.setLockNx id owner px = some (taken, t)) : R s t := by
  unfold Store.setLockNx at h
  split_ifs at h
  · obtain ⟨-, rfl⟩ := Prod.mk.injEq .. ▸ Option.some.inj h
    exact hf.refl s
  · obtain ⟨-, rfl⟩ := Prod.mk.injEq .. ▸ Option.some.inj h
    exact hf.setLock hl s id _ ha (by simp)

-- Each script about one job.

theorem keeps_hincrby (hh : kinds .hash) : Keeps (R s) (call fun s => s.hincrby id) := by
  refine Keeps.call fun t value after heq ht => ?_
  obtain ⟨n, _, hn⟩ := Option.map_eq_some_iff.mp heq
  obtain ⟨rfl, rfl⟩ := Prod.mk.injEq .. ▸ hn
  exact hf.trans _ _ _ ht (hf.hset hh t id _ ha (by intro; rfl))

theorem keeps_claimOne (hh : kinds .hash) (hq : kinds .queue) (hac : kinds .active)
    (hl : kinds .lock) (args : ClaimArgs) : Keeps (R s) (claimOne args id) := by
  refine .bind (.ask _) fun present => .ite ?_ ?_
  · refine .bind (.ask _) fun seconds => .bind ?_ fun lockOk => .ite (.bind ?_ ?_) (.pure _)
    · exact Keeps.call fun t taken after heq ht => hf.trans _ _ _ ht (hf.setLockNx ha t hl heq)
    · refine Keeps.call fun t removed after heq ht => ?_
      obtain ⟨rfl, rfl⟩ := Prod.mk.injEq .. ▸ Option.some.inj heq
      exact hf.trans _ _ _ ht (hf.zrem hq t _ id ha)
    · refine fun removed => .ite ?_ ?_
      · exact .bind (hf.keeps_write s fun t => hf.hset hh t id _ ha (by intro; rfl)) fun _ =>
          .bind (hf.keeps_write s fun t => hf.zaddActive hac t _ id _ ha) fun _ => .pure _
      · exact .bind (hf.keeps_write s fun t => hf.delLock ha t hl) fun _ => .pure _
  · exact .bind (hf.keeps_write s fun t => hf.zrem hq t _ id ha) fun _ => .pure _

theorem keeps_enqueue (hd : kinds .definition) (hq : kinds .queue) (queueKey : QueueKey)
    (mapping : JobHash) (score : ℚ) : Keeps (R s) (Scripts.enqueue id queueKey mapping score) := by
  refine .bind (.ask _) fun present => .ite (.pure _) ?_
  exact .bind (hf.keeps_write s fun t => hf.define hd t id _ ha) fun _ =>
    .bind (hf.keeps_write s fun t => hf.zadd hq t _ id _ ha) fun _ => .pure _

theorem keeps_refreshLock (hl : kinds .lock) (workerId : String) (lockTimeoutMs : Int) :
    Keeps (R s) (refreshLock id workerId lockTimeoutMs) := by
  refine .bind (keeps_getLock _ id) fun owner => .ite ?_ (.pure _)
  refine Keeps.call fun t value after heq ht => ?_
  split at heq
  · obtain ⟨rfl, rfl⟩ := Prod.mk.injEq .. ▸ Option.some.inj heq
    exact hf.trans _ _ _ ht (hf.setLock hl t id _ ha (by simp))
  · cases heq

theorem keeps_releaseLockIfOwner (hl : kinds .lock) (workerId : String) :
    Keeps (R s) (releaseLockIfOwner id workerId) := by
  refine .bind (keeps_getLock _ id) fun owner => .ite ?_ (.pure _)
  exact .bind (hf.keeps_write s fun t => hf.delLock ha t hl) fun _ => .pure _

theorem keeps_retry (hh : kinds .hash) (hq : kinds .queue) (queueKey : QueueKey) (score : ℚ)
    (errorMessage : String) (status : JobStatus) :
    Keeps (R s) (retry id queueKey score errorMessage status) := by
  refine .bind (hf.keeps_hincrby ha s hh) fun n => ?_
  exact .bind (hf.keeps_write s fun t => hf.hset hh t id _ ha (by intro; rfl)) fun _ =>
    .bind (hf.keeps_write s fun t => hf.zadd hq t _ id _ ha) fun _ => .pure _

theorem keeps_expireDlq (hh : kinds .hash) (dlqTtl : Int) : Keeps (R s) (expireDlq id dlqTtl) :=
  .ite (.bind (hf.keeps_write s fun t => hf.expireJob hh t id _ ha) fun _ =>
    hf.keeps_write s fun t => hf.expireEvents t _) (.pure _)

omit ha in
theorem keeps_releaseUnique (hu : kinds .unique) (uniqueLockKey : Option String) :
    Keeps (R s) (releaseUnique uniqueLockKey) := by
  cases uniqueLockKey with
  | none => exact .pure _
  | some key => exact hf.keeps_write s fun t => hf.setUniqueLock hu t key none

theorem keeps_moveToDlq (hh : kinds .hash) (hd : kinds .dlq) (hu : kinds .unique)
    (dlqKey errorMessage : String) (completionTime : DateTime) (dlqTtl : Int)
    (uniqueLockKey : Option String) :
    Keeps (R s) (moveToDlq id dlqKey errorMessage completionTime dlqTtl uniqueLockKey) := by
  refine .bind (.pcall ?_) fun _ => .pure _
  refine .bind (hf.keeps_hincrby ha s hh) fun n => ?_
  refine .bind (hf.keeps_write s fun t => hf.hset hh t id _ ha (by intro; rfl)) fun _ => ?_
  refine .bind (hf.keeps_write s fun t => hf.xadd t _) fun _ => ?_
  refine .bind (hf.keeps_write s fun t => hf.lpush hd t _ id ha) fun _ => ?_
  exact .bind (hf.keeps_expireDlq ha s hh dlqTtl) fun _ =>
    .bind (hf.keeps_releaseUnique s hu uniqueLockKey) fun _ => .pure _

theorem keeps_requeueJob (hh : kinds .hash) (hq : kinds .queue) (hac : kinds .active)
    (hl : kinds .lock) {args : RequeueArgs} (hargs : args.id = id) :
    Keeps (R s) (requeueJob args) := by
  subst hargs
  have huntrack : Keeps (R s) (untrack args) := by
    unfold untrack
    split
    · exact hf.keeps_write s fun t => hf.zremActive hac t _ _ ha
    · exact .pure _
  have hrelease : Keeps (R s) (releaseOwned args) := by
    refine .ite (.pure _) (.bind (keeps_getLock _ _) fun owner => .ite ?_ (.pure _))
    exact hf.keeps_write s fun t => hf.delLock ha t hl
  have hschedule : Keeps (R s) (restoreSchedule args) := by
    unfold restoreSchedule
    split
    · exact hf.keeps_write s fun t => hf.hset hh t _ _ ha (by intro; rfl)
    · exact .pure _
  have hdemote : Keeps (R s) (demote args) := by
    refine .bind (.ask _) fun current => .ite ?_ (.ite (.pure _) ?_)
    · exact .bind (hf.keeps_write s fun t => hf.hset hh t _ _ ha (by intro; rfl)) fun _ =>
        hf.keeps_write s fun t => hf.hdel hh t _ _ ha (by intro; rfl)
    · exact hf.keeps_write s fun t => hf.hset hh t _ _ ha (by intro; rfl)
  refine .bind (.pcall ?_) fun _ => .pure _
  refine .bind (.ask _) fun present => .ite (.bind hdemote fun _ => ?_) (.pure _)
  refine .bind (.ask _) fun queued => .ite ?_ ?_
  · exact .bind huntrack fun _ => .bind hrelease fun _ => .pure _
  · exact .bind (hf.keeps_write s fun t => hf.zadd hq t _ _ _ ha) fun _ =>
      .bind huntrack fun _ => .bind hschedule fun _ => .bind hrelease fun _ => .pure _

-- Each pipeline about one job.

theorem markJobPending (hh : kinds .hash) (lastError : Option String) :
    R s (Pipelines.markJobPending id lastError s) :=
  hf.trans _ _ _ (hf.hset hh s id _ ha (by intro; rfl)) (hf.hdel hh _ id _ ha (by intro; rfl))

theorem moveJobToDlq (hh : kinds .hash) (hd : kinds .dlq) (dlqKey errorMessage : String)
    (completionTime : DateTime) :
    R s (Pipelines.moveJobToDlq id dlqKey errorMessage completionTime s) := by
  refine hf.trans _ _ _ ?_ (hf.expireEvents _ _)
  refine hf.trans _ _ _ ?_ (hf.expireJob hh _ id _ ha)
  refine hf.trans _ _ _ ?_ (hf.lpush hd _ dlqKey id ha)
  refine hf.trans _ _ _ ?_ (hf.xadd _ _)
  exact hf.hset hh s id _ ha (by intro; rfl)

theorem saveJobResult (hh : kinds .hash) (result : Json) (ttlSeconds : Int)
    (completionTime : DateTime) :
    R s (Pipelines.saveJobResult id result ttlSeconds completionTime s).2 := by
  have hrecord : R s (Pipelines.recordResult id result completionTime s) :=
    hf.trans _ _ _ (hf.hset hh s id _ ha (by intro; rfl)) (hf.xadd _ _)
  simp only [Pipelines.saveJobResult]
  split_ifs
  · exact hf.trans _ _ _ hrecord
      (hf.trans _ _ _ (hf.expireJob hh _ id _ ha) (hf.expireEvents _ _))
  · exact hrecord
  · exact hf.trans _ _ _ hrecord
      (hf.trans _ _ _ (hf.persistJob hh _ id ha) (hf.persistEvents _))
  · exact hrecord

end Frame

-- What holds through every candidate holds through the loop.
theorem keeps_claimEach {holds : Store → Prop} {args : ClaimArgs} {candidates : List JobId}
    (h : ∀ id ∈ candidates, Keeps holds (claimOne args id)) (claimed : List JobId) :
    Keeps holds (claimEach args candidates claimed) := by
  induction candidates generalizing claimed with
  | nil => exact .pure _
  | cons id candidates ih =>
      have hid := h id List.mem_cons_self
      have hrest := ih fun other ho => h other (List.mem_cons_of_mem _ ho)
      exact .ite (.pure _) (.bind hid fun taken => hrest _)

theorem Frame.keeps_claimEach (hf : Frame kinds about R) (hh : kinds .hash) (hq : kinds .queue)
    (hac : kinds .active) (hl : kinds .lock) (s : Store) (args : ClaimArgs)
    {candidates : List JobId} (ha : ∀ id ∈ candidates, about id) (claimed : List JobId) :
    Keeps (R s) (claimEach args candidates claimed) :=
  Store.keeps_claimEach (fun _ hid => hf.keeps_claimOne (ha _ hid) s hh hq hac hl args) claimed

theorem Frame.keeps_claimReady (hf : Frame kinds about R) (ha : ∀ id, about id)
    (hh : kinds .hash) (hq : kinds .queue) (hac : kinds .active) (hl : kinds .lock) (s : Store)
    (args : ClaimArgs) : Keeps (R s) (claimReady args) := by
  refine .ite (.pure _) (.ite (.pure _) (.bind (.ask _) fun candidates => ?_))
  exact hf.keeps_claimEach hh hq hac hl s args (fun id _ => ha id) []

-- The scripts of the producer.

section Producer

open Producer

-- What the scripts of the producer keep, if it survives the writes to their keys.

section Keys

variable {args : JobArgs} {holds : Store → Prop}

theorem keeps_setKeyNx {cell : Store → Option (Volatile JobId)}
    {put : Store → Option (Volatile JobId) → Store} (hput : ∀ t c, holds t → holds (put t c))
    (id : JobId) (seconds : Option Int) :
    Keeps holds (call fun s => s.setKeyNx (cell s) (put s) id seconds) := by
  refine Keeps.call fun t value after heq ht => ?_
  unfold setKeyNx at heq
  split at heq
  · split_ifs at heq
    · obtain ⟨-, rfl⟩ := Prod.mk.injEq .. ▸ Option.some.inj heq
      exact ht
    · obtain ⟨-, rfl⟩ := Prod.mk.injEq .. ▸ Option.some.inj heq
      exact hput t _ ht
  · split_ifs at heq
    · obtain ⟨-, rfl⟩ := Prod.mk.injEq .. ▸ Option.some.inj heq
      exact ht
    · obtain ⟨-, rfl⟩ := Prod.mk.injEq .. ▸ Option.some.inj heq
      exact hput t _ ht

theorem keeps_findKeyed (hkey : ∀ t key c, holds t → holds (t.setIdempotency key c))
    (idempotencyKey : Option String) : Keeps holds (findKeyed idempotencyKey) := by
  cases idempotencyKey with
  | none => exact .pure _
  | some idemKey =>
      refine .bind (.ask _) fun existing => ?_
      cases existing with
      | none => exact .pure _
      | some existing =>
          exact .bind (.ask _) fun present => .ite (.pure _)
            (.bind (.write fun t ht => hkey t _ _ ht) fun _ => .pure _)

theorem keeps_createWithKey (hkey : ∀ t key c, holds t → holds (t.setIdempotency key c))
    (hcreate : Keeps holds (create args)) (idemKey : String) (ttlSeconds : Int) :
    Keeps holds (createWithKey args idemKey ttlSeconds) := by
  refine .bind (keeps_setKeyNx (fun t c => hkey t idemKey c) _ _) fun setOk => .ite hcreate ?_
  refine .bind (.ask _) fun winner => ?_
  cases winner with
  | none => exact hcreate
  | some winner => exact .pure _

theorem keeps_enqueueScript (hkey : ∀ t key c, holds t → holds (t.setIdempotency key c))
    (hcreate : Keeps holds (create args)) (idempotencyKey : Option String) (ttlSeconds : Int) :
    Keeps holds (enqueueScript args idempotencyKey ttlSeconds) := by
  refine .bind (keeps_findKeyed hkey idempotencyKey) fun existing => ?_
  cases existing with
  | some existing => exact .pure _
  | none =>
      refine .bind (.ask _) fun present => .ite (.pure _) ?_
      cases idempotencyKey with
      | none => exact hcreate
      | some idemKey => exact keeps_createWithKey hkey hcreate idemKey ttlSeconds

theorem keeps_rateLimitScript (hkey : ∀ t key c, holds t → holds (t.setRateLimit key c))
    (hcreate : Keeps holds (create args)) (rateKey : String) (ttlSeconds : Int) :
    Keeps holds (rateLimitScript args rateKey ttlSeconds) := by
  refine .ite (.pure _) ?_
  refine .bind (keeps_setKeyNx (fun t c => hkey t rateKey c) _ _) fun ok => .ite ?_ (.pure _)
  refine .bind (.ask _) fun present => .ite ?_ hcreate
  exact .bind (.write fun t ht => hkey t _ _ ht) fun _ => .pure _

theorem keeps_createDebounced (hkey : ∀ t key c, holds t → holds (t.setDebounce key c))
    (hcreate : Keeps holds (create args)) (debounceKey : String) (ttlSeconds : Int) :
    Keeps holds (createDebounced args debounceKey ttlSeconds) := by
  refine .bind (.ask _) fun present => .ite (.pure _) ?_
  refine .bind (keeps_setKeyNx (fun t c => hkey t debounceKey c) _ _) fun ok => ?_
  refine .ite hcreate (.bind (.ask _) fun other => ?_)
  cases other with
  | none => exact .pure _
  | some other => exact .pure _

theorem keeps_extendDebounce (hkey : ∀ t key c, holds t → holds (t.setDebounce key c))
    (debounceKey : String) (ttlSeconds : Int) :
    Keeps holds (extendDebounce debounceKey ttlSeconds) := by
  refine .ite (.call fun t value after heq ht => ?_) (.pure _)
  unfold expireDebounce at heq
  split_ifs at heq
  split at heq
  · obtain ⟨-, rfl⟩ := Prod.mk.injEq .. ▸ Option.some.inj heq
    exact ht
  · obtain ⟨-, rfl⟩ := Prod.mk.injEq .. ▸ Option.some.inj heq
    exact hkey t _ _ ht

theorem keeps_reschedule {existing : JobId}
    (hkey : ∀ t key c, holds t → holds (t.setDebounce key c))
    (hupdate : ∀ t, holds t → holds (t.hset existing args.update))
    (hzadd : ∀ t, holds t → holds (t.zadd args.queueName existing args.score))
    (debounceKey : String) (ttlSeconds : Int) :
    Keeps holds (reschedule args existing debounceKey ttlSeconds) :=
  .bind (.write hupdate) fun _ => .bind (.write hzadd) fun _ =>
    .bind (keeps_extendDebounce hkey debounceKey ttlSeconds) fun _ => .pure _

theorem keeps_debounceScript (hkey : ∀ t key c, holds t → holds (t.setDebounce key c))
    {debounceKey : String} {ttlSeconds : Int}
    (hcreate : Keeps holds (createDebounced args debounceKey ttlSeconds))
    (hreschedule : ∀ existing, Keeps holds (reschedule args existing debounceKey ttlSeconds)) :
    Keeps holds (debounceScript args debounceKey ttlSeconds) := by
  refine .bind (.ask _) fun existing => ?_
  cases existing with
  | none => exact hcreate
  | some existing =>
      refine .bind (.ask _) fun present => .bind (.ask _) fun status => ?_
      refine .ite (hreschedule existing) ?_
      exact .bind (.write fun t ht => hkey t _ _ ht) fun _ => hcreate

end Keys

variable (hd : kinds .definition) (hq : kinds .queue) {args : JobArgs}

include hf hd hq

theorem Frame.keeps_create (ha : about args.id) : Keeps (R s) (create args) :=
  .bind (hf.keeps_write s fun t => hf.define hd t _ _ ha) fun _ =>
    .bind (hf.keeps_write s fun t => hf.zadd hq t _ _ _ ha) fun _ => .pure _

theorem Frame.keeps_enqueueScript (ha : about args.id) (idempotencyKey : Option String)
    (ttlSeconds : Int) : Keeps (R s) (enqueueScript args idempotencyKey ttlSeconds) :=
  Store.keeps_enqueueScript (fun t _ _ ht => hf.trans _ _ _ ht (hf.setIdempotency t _ _))
    (hf.keeps_create s hd hq ha) idempotencyKey ttlSeconds

theorem Frame.keeps_rateLimitScript (ha : about args.id) (rateKey : String) (ttlSeconds : Int) :
    Keeps (R s) (rateLimitScript args rateKey ttlSeconds) :=
  Store.keeps_rateLimitScript (fun t _ _ ht => hf.trans _ _ _ ht (hf.setRateLimit t _ _))
    (hf.keeps_create s hd hq ha) rateKey ttlSeconds

theorem Frame.keeps_createDebounced (ha : about args.id) (debounceKey : String)
    (ttlSeconds : Int) : Keeps (R s) (createDebounced args debounceKey ttlSeconds) :=
  Store.keeps_createDebounced (fun t _ _ ht => hf.trans _ _ _ ht (hf.setDebounce t _ _))
    (hf.keeps_create s hd hq ha) debounceKey ttlSeconds

theorem Frame.keeps_reschedule {existing : JobId} (ha : about existing) (debounceKey : String)
    (ttlSeconds : Int) : Keeps (R s) (reschedule args existing debounceKey ttlSeconds) :=
  Store.keeps_reschedule (fun t _ _ ht => hf.trans _ _ _ ht (hf.setDebounce t _ _))
    (fun t ht => hf.trans _ _ _ ht (hf.define hd t _ _ ha))
    (fun t ht => hf.trans _ _ _ ht (hf.zadd hq t _ _ _ ha)) debounceKey ttlSeconds

theorem Frame.keeps_debounceScript (ha : ∀ id, about id) (debounceKey : String)
    (ttlSeconds : Int) : Keeps (R s) (debounceScript args debounceKey ttlSeconds) :=
  Store.keeps_debounceScript (fun t _ _ ht => hf.trans _ _ _ ht (hf.setDebounce t _ _))
    (hf.keeps_createDebounced s hd hq (ha args.id) debounceKey ttlSeconds)
    fun existing => hf.keeps_reschedule s hd hq (ha existing) debounceKey ttlSeconds

end Producer

end Store

namespace Cmd

open Store

-- The jobs that a command may write about. A claim may be about any, and so may a debounce.
def concerns : Cmd → JobId → Prop
  | getJobDataMap _ => fun _ => False
  | isJobQueued _ _ => fun _ => False
  | addJobToQueue _ id _ => (· = id)
  | removeJobFromQueue _ id => (· = id)
  | atomicEnqueueJob id _ _ _ => (· = id)
  | atomicClaimReadyJobs _ => fun _ => True
  | refreshJobLockTimeout id _ _ => (· = id)
  | releaseJobLock id => (· = id)
  | releaseJobLockIfOwner id _ => (· = id)
  | tryLockJob id _ _ => (· = id)
  | getJobLockOwner _ => fun _ => False
  | markJobPending id _ => (· = id)
  | updateJobNextScheduledRunTime id _ => (· = id)
  | updateJobStatus id _ => (· = id)
  | atomicRetryJob id _ _ _ _ => (· = id)
  | atomicMoveJobToDlq id _ _ _ _ _ => (· = id)
  | moveJobToDlq id _ _ _ => (· = id)
  | atomicRequeueJob args => (· = args.id)
  | saveJobResult id _ _ _ => (· = id)
  | removeActiveJob _ id => (· = id)
  | acquireUniqueJobLock _ _ _ => fun _ => False
  | releaseUniqueJobLock _ => fun _ => False
  | getLockTtl _ => fun _ => False
  | setWorkerHealth _ _ => fun _ => False
  | getWorkerHealth _ => fun _ => False
  | scanActiveJobKeys _ => fun _ => False
  | getActiveJobIds _ => fun _ => False
  | producerEnqueue args _ _ => (· = args.id)
  | producerRateLimit args _ _ => (· = args.id)
  | producerDebounce _ _ _ => fun _ => True

-- The kinds of writes that a command makes.
def kinds : Cmd → List Kind
  | addJobToQueue _ _ _ => [.queue]
  | removeJobFromQueue _ _ => [.queue]
  | atomicEnqueueJob _ _ _ _ => [.definition, .queue]
  | atomicClaimReadyJobs _ => [.hash, .queue, .active, .lock]
  | refreshJobLockTimeout _ _ _ => [.lock]
  | releaseJobLock _ => [.lock]
  | releaseJobLockIfOwner _ _ => [.lock]
  | tryLockJob _ _ _ => [.lock]
  | markJobPending _ _ => [.hash]
  | updateJobNextScheduledRunTime _ _ => [.hash]
  | updateJobStatus _ _ => [.hash]
  | atomicRetryJob _ _ _ _ _ => [.hash, .queue]
  | atomicMoveJobToDlq _ _ _ _ _ _ => [.hash, .dlq, .unique]
  | moveJobToDlq _ _ _ _ => [.hash, .dlq]
  | atomicRequeueJob _ => [.hash, .queue, .active, .lock]
  | saveJobResult _ _ _ _ => [.hash]
  | removeActiveJob _ _ => [.active]
  | acquireUniqueJobLock _ _ _ => [.unique]
  | releaseUniqueJobLock _ => [.unique]
  | setWorkerHealth _ _ => [.health]
  | producerEnqueue _ _ _ => [.definition, .queue]
  | producerRateLimit _ _ _ => [.definition, .queue]
  | producerDebounce _ _ _ => [.definition, .queue]
  | _ => []

theorem keeps_single {α : Type} {holds : Store → Prop} (fault : Fault) {s : Store}
    {command : Store → Result α} (hs : holds s) (hc : holds (command s).2) :
    holds (single fault s command).2 := by
  unfold single
  split
  · exact hc
  · exact hs

theorem keeps_script {α β : Type} {holds : Store → Prop} (fault : Fault) {s : Store}
    (error : RedisError) {body : Script Store α} (answer : α → β) (hb : body.Keeps holds)
    (hs : holds s) : holds (script fault s error body answer).2 := by
  unfold script
  split
  · exact hs
  · exact hb.run none hs
  · exact hb.run _ hs

-- A command moves the store as every frame for its kinds and its jobs allows, whatever
-- befalls it.
theorem frame_exec {kinds : Kind → Prop} {about : JobId → Prop} {R : Store → Store → Prop}
    (hf : Frame kinds about R) {c : Cmd} (hk : ∀ kind ∈ c.kinds, kinds kind)
    (ha : ∀ id, c.concerns id → about id) (fault : Fault) (page : Nat × List String) (s : Store) :
    R s (c.exec fault page s).2 := by
  have hs := hf.refl s
  cases c <;> simp only [Cmd.kinds, List.forall_mem_cons, List.not_mem_nil, false_implies,
    implies_true, and_true] at hk <;> simp only [exec, reply]
  case getJobDataMap => exact keeps_single fault hs hs
  case isJobQueued => exact keeps_single fault hs hs
  case addJobToQueue queue id score => exact keeps_single fault hs (hf.zadd hk s _ _ _ (ha id rfl))
  case removeJobFromQueue queue id => exact keeps_single fault hs (hf.zrem hk s _ _ (ha id rfl))
  case atomicEnqueueJob id queue mapping score =>
    exact keeps_script fault _ _ (hf.keeps_enqueue (ha id rfl) s hk.1 hk.2 _ _ _) hs
  case atomicClaimReadyJobs args =>
    obtain ⟨hh, hq, hac, hl⟩ := hk
    exact keeps_script fault _ _
      (hf.keeps_claimReady (fun id => ha id trivial) hh hq hac hl s args) hs
  case refreshJobLockTimeout id worker ms =>
    exact keeps_script fault _ _ (hf.keeps_refreshLock (ha id rfl) s hk _ _) hs
  case releaseJobLock id => exact keeps_single fault hs (hf.delLock (ha id rfl) s hk)
  case releaseJobLockIfOwner id owner =>
    exact keeps_script fault _ _ (hf.keeps_releaseLockIfOwner (ha id rfl) s hk _) hs
  case tryLockJob id owner ms =>
    refine keeps_single fault hs ?_
    split
    · exact hf.setLockNx (ha id rfl) s hk ‹_›
    · exact hs
  case getJobLockOwner =>
    refine keeps_single fault hs ?_
    unfold getLock
    split <;> rename_i heq <;> split at heq <;> cases heq <;> exact hs
  case markJobPending id error => exact keeps_single fault hs (hf.markJobPending (ha id rfl) s hk _)
  case updateJobNextScheduledRunTime id time =>
    refine keeps_single fault hs ?_
    dsimp only
    exact hf.hset hk s id _ (ha id rfl) (by intro; rfl)
  case updateJobStatus id status =>
    refine keeps_single fault hs ?_
    dsimp only
    exact hf.hset hk s id _ (ha id rfl) (by intro; rfl)
  case atomicRetryJob id queue score message status =>
    exact keeps_script fault _ _ (hf.keeps_retry (ha id rfl) s hk.1 hk.2 _ _ _ _) hs
  case atomicMoveJobToDlq id dlq message time ttl unique =>
    exact keeps_script fault _ _ (hf.keeps_moveToDlq (ha id rfl) s hk.1 hk.2.1 hk.2.2 _ _ _ _ _) hs
  case moveJobToDlq id dlq message time =>
    exact keeps_single fault hs (hf.moveJobToDlq (ha id rfl) s hk.1 hk.2 _ _ _)
  case atomicRequeueJob args =>
    obtain ⟨hh, hq, hac, hl⟩ := hk
    exact keeps_script fault _ _ (hf.keeps_requeueJob (ha args.id rfl) s hh hq hac hl rfl) hs
  case saveJobResult id result ttl time =>
    have hsave := hf.saveJobResult (ha id rfl) s hk result ttl time
    refine keeps_single fault hs ?_
    split <;> rename_i heq <;> rw [heq] at hsave <;> exact hsave
  case removeActiveJob worker id =>
    exact keeps_single fault hs (hf.zremActive hk s _ _ (ha id rfl))
  case acquireUniqueJobLock =>
    refine keeps_single fault hs ?_
    split_ifs
    · exact hs
    · exact hf.setUniqueLock hk s _ _
    · exact hs
  case releaseUniqueJobLock => exact keeps_single fault hs (hf.setUniqueLock hk s _ _)
  case getLockTtl => exact keeps_single fault hs hs
  case setWorkerHealth =>
    refine keeps_single fault hs ?_
    split_ifs
    · exact hf.setHealth hk s _ _
    · exact hs
  case getWorkerHealth => exact keeps_single fault hs hs
  case scanActiveJobKeys => exact keeps_single fault hs hs
  case getActiveJobIds => exact keeps_single fault hs hs
  case producerEnqueue args key ttl =>
    exact keeps_script fault _ _ (hf.keeps_enqueueScript s hk.1 hk.2 (ha args.id rfl) key ttl) hs
  case producerRateLimit args key ttl =>
    exact keeps_script fault _ _ (hf.keeps_rateLimitScript s hk.1 hk.2 (ha args.id rfl) key ttl) hs
  case producerDebounce args key ttl =>
    exact keeps_script fault _ _
      (hf.keeps_debounceScript s hk.1 hk.2 (fun id => ha id trivial) key ttl) hs

theorem frame_of_exec {kinds : Kind → Prop} {R : Store → Store → Prop}
    (hf : Frame kinds (fun _ => True) R) {c : Cmd} (hk : ∀ kind ∈ c.kinds, kinds kind)
    {fault : Fault} {page : Nat × List String} {s t : Store} {answer : Except RedisError c.Answer}
    (h : c.exec fault page s = (answer, t)) : R s t := by
  have hr := frame_exec hf hk (fun _ _ => trivial) fault page s
  rwa [h] at hr

end Cmd

end Rrq
