import Rrq.Store.Definition

-- What requeue_job.lua does to a job when nothing befalls it.

namespace Rrq.Store

open Script Scripts

def demotedHash (args : RequeueArgs) (h : JobHash) : JobHash :=
  if h.status = some JobStatus.Active.asStr then
    { h with
      status := some JobStatus.Pending.asStr
      lastError := some args.requeueMessage
      startTime := none
      workerId := none }
  else if args.requeueMessage = "" then h
  else { h with lastError := some args.requeueMessage }

-- A job that was queued already keeps its schedule.
def requeuedHash (args : RequeueArgs) (queued : Bool) (h : JobHash) : JobHash :=
  match args.nextScheduled with
  | some time =>
      if queued then demotedHash args h
      else { demotedHash args h with nextScheduledRunTime := some (.val time) }
  | none => demotedHash args h

structure PutBack (args : RequeueArgs) (s t : Store) : Prop where
  present : (s.hash args.id).isSome
  hash : t.hash args.id =
    (s.hash args.id).map (requeuedHash args (decide (args.id ∈ s.queues args.queueKey)))
  queues : ∀ queue, args.id ∈ t.queues queue ↔ queue = args.queueKey ∨ args.id ∈ s.queues queue
  active : ∀ worker, args.id ∈ t.active worker ↔
    args.activeWorkerId ≠ some worker ∧ args.id ∈ s.active worker
  lock : t.locks args.id =
    if args.releasingOwner ≠ "" ∧ s.lock args.id = some (.owner args.releasingOwner) then none
    else s.locks args.id

-- The parts of the script, each as a function of the store.

def demoted (args : RequeueArgs) (s : Store) : Store :=
  if s.status args.id = some JobStatus.Active.asStr then
    (s.hset args.id fun h =>
      { h with status := some JobStatus.Pending.asStr, lastError := some args.requeueMessage }).hdel
        args.id fun h => { h with startTime := none, workerId := none }
  else if args.requeueMessage = "" then s
  else s.hset args.id fun h => { h with lastError := some args.requeueMessage }

def untracked (args : RequeueArgs) (s : Store) : Store :=
  match args.activeWorkerId with
  | some worker => s.zremActive worker args.id
  | none => s

def scheduled (args : RequeueArgs) (s : Store) : Store :=
  match args.nextScheduled with
  | some time => s.hset args.id fun h => { h with nextScheduledRunTime := some (.val time) }
  | none => s

def unlocked (args : RequeueArgs) (s : Store) : Store :=
  if args.releasingOwner ≠ "" ∧ s.lock args.id = some (.owner args.releasingOwner) then
    s.delLock args.id
  else s

variable {args : RequeueArgs} {s : Store}

section Runs

theorem steady_demote : Steady (demote args) :=
  .bind (.call _) fun _ => .ite (.bind (.call _) fun _ => .call _) (.ite (.pure _) (.call _))

theorem run_demote : (demote args).run none s = (some (), demoted args s) := by
  unfold demote demoted
  rw [run_ask_bind]
  split_ifs <;> rfl

theorem steady_untrack : Steady (untrack args) := by
  unfold untrack
  split
  · exact .call _
  · exact .pure _

theorem run_untrack : (untrack args).run none s = (some (), untracked args s) := by
  unfold untrack untracked
  cases args.activeWorkerId <;> rfl

theorem steady_restoreSchedule : Steady (restoreSchedule args) := by
  unfold restoreSchedule
  split
  · exact .call _
  · exact .pure _

theorem run_restoreSchedule : (restoreSchedule args).run none s = (some (), scheduled args s) := by
  unfold restoreSchedule scheduled
  cases args.nextScheduled <;> rfl

theorem steady_releaseOwned : Steady (releaseOwned args) :=
  .ite (.pure _) (.bind (.call _) fun _ => .ite (.call _) (.pure _))

theorem run_releaseOwned (h : s.lock args.id ≠ some .malformed) :
    (releaseOwned args).run none s = (some (), unlocked args s) := by
  unfold releaseOwned unlocked
  by_cases hr : args.releasingOwner = ""
  · simp [hr]
  rw [if_neg hr, run_call_bind]
  unfold getLock
  cases hlock : s.lock args.id with
  | none => simp
  | some cell =>
      cases cell with
      | malformed => exact absurd hlock h
      | owner name =>
          by_cases hname : name = args.releasingOwner
          · simp [hname, hr]
          · simp [hname]

end Runs

section Fields

theorem untracked_lock (id : JobId) : (untracked args s).locks id = s.locks id := by
  unfold untracked
  split <;> rfl

theorem untracked_hash : (untracked args s).hash args.id = s.hash args.id := by
  unfold untracked
  split <;> rfl

theorem untracked_queues : (untracked args s).queues = s.queues := by
  unfold untracked
  split <;> rfl

theorem mem_untracked_active (worker : WorkerId) : args.id ∈ (untracked args s).active worker ↔
    args.activeWorkerId ≠ some worker ∧ args.id ∈ s.active worker := by
  unfold untracked
  split
  · rename_i owner howner
    by_cases hw : worker = owner
    · subst hw
      simp [zremActive, howner]
    · simp [zremActive, hw, howner, Ne.symm hw]
  · rename_i hnone
    simp [hnone]

theorem samePlaces_demoted : SamePlaces s (demoted args s) := by
  unfold demoted
  split_ifs
  · exact (samePlaces_hset s _ _).trans (samePlaces_hdel _ _ _)
  · exact .refl s
  · exact samePlaces_hset s _ _

theorem demoted_locks : (demoted args s).locks = s.locks := by
  unfold demoted
  split_ifs
  · rw [locks_hdel, locks_hset]
  · rfl
  · exact locks_hset s _ _

theorem demoted_hash (hp : (s.hash args.id).isSome) :
    (demoted args s).hash args.id = (s.hash args.id).map (demotedHash args) := by
  obtain ⟨h, hh⟩ := Option.isSome_iff_exists.mp hp
  have hs : s.status args.id = h.status := by simp [status, hh]
  unfold demoted demotedHash
  rw [hs]
  by_cases hactive : h.status = some JobStatus.Active.asStr
  · simp [hh, hactive]
  · by_cases hmessage : args.requeueMessage = "" <;> simp [hh, hactive, hmessage]

theorem samePlaces_scheduled : SamePlaces s (scheduled args s) := by
  unfold scheduled
  split
  · exact samePlaces_hset s _ _
  · exact .refl s

theorem scheduled_locks : (scheduled args s).locks = s.locks := by
  unfold scheduled
  split
  · exact locks_hset s _ _
  · rfl

theorem unlocked_hash (id : JobId) : (unlocked args s).hash id = s.hash id := by
  unfold unlocked
  split_ifs <;> rfl

theorem unlocked_queues : (unlocked args s).queues = s.queues := by
  unfold unlocked
  split_ifs <;> rfl

theorem unlocked_active : (unlocked args s).active = s.active := by
  unfold unlocked
  split_ifs <;> rfl

theorem unlocked_lock : (unlocked args s).locks args.id =
    if args.releasingOwner ≠ "" ∧ s.lock args.id = some (.owner args.releasingOwner) then none
    else s.locks args.id := by
  unfold unlocked
  split_ifs <;> simp [delLock]

-- A lock read through writes that leave the locks alone.
theorem lock_congr {t : Store} {id : JobId} (h : t.locks id = s.locks id) :
    t.lock id = s.lock id := by
  unfold lock
  rw [h]

end Fields

theorem putBack_queued (hp : (s.hash args.id).isSome) (hq : args.id ∈ s.queues args.queueKey) :
    PutBack args s (unlocked args (untracked args (demoted args s))) where
  present := hp
  hash := by
    rw [unlocked_hash, untracked_hash, demoted_hash hp]
    unfold requeuedHash
    split <;> simp [hq]
  queues queue := by
    rw [unlocked_queues, untracked_queues, samePlaces_demoted.queues]
    constructor
    · exact .inr
    · rintro (rfl | h)
      · exact hq
      · exact h
  active worker := by rw [unlocked_active, mem_untracked_active, samePlaces_demoted.active]
  lock := by
    have hsame : (untracked args (demoted args s)).locks args.id = s.locks args.id := by
      rw [untracked_lock, demoted_locks]
    rw [unlocked_lock, hsame, lock_congr hsame]

theorem putBack_entered (hp : (s.hash args.id).isSome) (hq : args.id ∉ s.queues args.queueKey) :
    PutBack args s (unlocked args (scheduled args (untracked args
      ((demoted args s).zadd args.queueKey args.id args.score)))) where
  present := hp
  hash := by
    have hsame : (untracked args ((demoted args s).zadd args.queueKey args.id args.score)).hash
        args.id = (s.hash args.id).map (demotedHash args) := by
      rw [untracked_hash]
      exact demoted_hash hp
    obtain ⟨h, hh⟩ := Option.isSome_iff_exists.mp hp
    rw [unlocked_hash]
    unfold scheduled requeuedHash
    cases args.nextScheduled with
    | none => exact hsame
    | some time => simp [hsame, hh, hq]
  queues queue := by
    rw [unlocked_queues, samePlaces_scheduled.queues, untracked_queues]
    by_cases heq : queue = args.queueKey
    · subst heq
      simp [zadd]
    · simp [zadd, heq, samePlaces_demoted.queues]
  active worker := by
    rw [unlocked_active, samePlaces_scheduled.active, mem_untracked_active]
    simp [zadd, samePlaces_demoted.active]
  lock := by
    have hsame : (scheduled args (untracked args ((demoted args s).zadd args.queueKey args.id
        args.score))).locks args.id = s.locks args.id := by
      rw [scheduled_locks, untracked_lock, zadd, setQueue_locks, demoted_locks]
    rw [unlocked_lock, hsame, lock_congr hsame]

-- The store after the script, for a job that exists.
def requeued (args : RequeueArgs) (s : Store) : Store :=
  if args.id ∈ s.queues args.queueKey then unlocked args (untracked args (demoted args s))
  else unlocked args (scheduled args (untracked args
    ((demoted args s).zadd args.queueKey args.id args.score)))

theorem run_requeueJob_present (hp : (s.hash args.id).isSome)
    (hlock : s.lock args.id ≠ some .malformed) :
    (requeueJob args).run none s =
      (some (if args.id ∈ s.queues args.queueKey then 2 else 1), requeued args s) := by
  have hjob : (s.jobs args.id).isSome := by simpa [Store.hash] using hp
  rw [run_requeueJob, requeueJobBody_eq, run_ask_bind, hjob, if_pos rfl, run_bind steady_demote,
    run_demote]
  unfold enterQueue requeued
  dsimp only
  rw [run_ask_bind, samePlaces_demoted.queues]
  by_cases hq : args.id ∈ s.queues args.queueKey
  · have hl : (untracked args (demoted args s)).lock args.id ≠ some .malformed := by
      rwa [lock_congr (untracked_lock _), lock_congr (congrFun demoted_locks _)]
    simp only [hq, decide_true, if_true, run_bind steady_untrack, run_untrack,
      run_bind steady_releaseOwned, run_releaseOwned hl]
    rfl
  · have hl : (scheduled args (untracked args
        ((demoted args s).zadd args.queueKey args.id args.score))).lock args.id ≠
          some .malformed := by
      rw [lock_congr (congrFun scheduled_locks _), lock_congr (untracked_lock _)]
      have hsame : ((demoted args s).zadd args.queueKey args.id args.score).lock args.id =
          s.lock args.id := lock_congr (congrFun demoted_locks _)
      rwa [hsame]
    simp only [hq, decide_false, Bool.false_eq_true, if_false, run_write_bind,
      run_bind steady_untrack, run_untrack, run_bind steady_restoreSchedule, run_restoreSchedule,
      run_bind steady_releaseOwned, run_releaseOwned hl]
    rfl

theorem putBack_requeued (hp : (s.hash args.id).isSome) : PutBack args s (requeued args s) := by
  unfold requeued
  split_ifs with hq
  · exact putBack_queued hp hq
  · exact putBack_entered hp hq

theorem requeueJob_putBack (hp : (s.hash args.id).isSome)
    (hlock : s.lock args.id ≠ some .malformed) :
    PutBack args s ((requeueJob args).run none s).2 ∧
      ∃ n, ((requeueJob args).run none s).1 = some n ∧ (n = 1 ∨ n = 2) := by
  rw [run_requeueJob_present hp hlock]
  refine ⟨putBack_requeued hp, _, rfl, ?_⟩
  split_ifs
  · exact .inr rfl
  · exact .inl rfl

end Rrq.Store

namespace Rrq.Cmd

open Store

theorem atomicRequeueJob_putBack {args : Scripts.RequeueArgs} {page : Nat × List String}
    {s t : Store} {answer : Except RedisError Int} (hp : (s.hash args.id).isSome)
    (hlock : s.lock args.id ≠ some .malformed)
    (h : (atomicRequeueJob args).exec .none page s = (answer, t)) :
    PutBack args s t ∧ ∃ n, answer = .ok n ∧ (n = 1 ∨ n = 2) := by
  simp only [exec, script, Prod.mk.injEq] at h
  obtain ⟨rfl, rfl⟩ := h
  obtain ⟨hput, n, hn, hcases⟩ := requeueJob_putBack hp hlock
  exact ⟨hput, n, by rw [hn]; rfl, hcases⟩

-- The script puts the job back and says so, or it does nothing.
theorem atomicRequeueJob_inv {args : Scripts.RequeueArgs} {fault : Fault}
    {page : Nat × List String} {s t : Store} {answer : Except RedisError Int}
    (hlock : s.lock args.id ≠ some .malformed) (hf : fault = .none ∨ fault = .refused)
    (h : (atomicRequeueJob args).exec fault page s = (answer, t)) :
    (PutBack args s t ∧ ∃ n, answer = .ok n ∧ 0 < n) ∨
      (t = s ∧ ∀ n, answer = .ok n → n ≤ 0) := by
  rcases hf with rfl | rfl
  · by_cases hp : (s.hash args.id).isSome
    · obtain ⟨hput, n, hn, hcases⟩ := atomicRequeueJob_putBack hp hlock h
      exact .inl ⟨hput, n, hn, by omega⟩
    · simp only [exec, script, Prod.mk.injEq] at h
      obtain ⟨ha, rfl⟩ := h
      have hmissing : s.hash args.id = none := by simpa using hp
      refine .inr ⟨requeueJob_missing none hmissing, fun n hn => ?_⟩
      have hjob : (s.jobs args.id).isSome = false := by simpa [Store.hash] using hmissing
      rw [run_requeueJob, requeueJobBody_eq, Script.run_ask_bind, hjob] at ha
      exact (Except.ok.inj (ha.trans hn)).symm.le
  · obtain ⟨rfl, rfl⟩ := Prod.mk.injEq .. ▸ h
    exact .inr ⟨rfl, by rintro _ ⟨⟩⟩

end Rrq.Cmd
