import Rrq.Client
import Rrq.Store.Atomic
import Rrq.Worker.Release

-- Releasing a claimed job command by command, and by the script.

namespace Rrq.RRQWorker

open Prog Store

variable {self : RRQWorker} {pid : Pid} {role : Role} {oracle : Nat → Op → Chance} {n : Nat}
  {w : World} {α : Type} {post : α → World → Prop}

-- The script call that does what the release does.
def releaseArgs (self : RRQWorker) (queueName : QueueKey) (id : JobId) (message : String)
    (time : DateTime) : Scripts.RequeueArgs where
  id
  queueKey := normalizeQueueName queueName
  activeWorkerId := some self.workerId
  score := time.timestampMillis
  requeueMessage := message
  releasingOwner := self.workerId
  nextScheduled := none

-- A command that nothing befalls, of a program run alone.
theorem ends_calm (hcalm : ∀ n op, (oracle n op).fault = .none) {c : Cmd}
    {next : Except RedisError c.Answer → Proc α} {answer : Except RedisError c.Answer}
    {store : Store} (hexec : ∀ page, c.exec .none page w.store = (answer, store))
    (h : ∀ n w', w'.store = store →
      Prog.Ends (World.exec pid role) oracle post (next answer) n w') :
    Prog.Ends (World.exec pid role) oracle post (redis c >>= next) n w := by
  apply ends_redis
  intro found after w' hfound hstore _
  rw [hcalm, hexec] at hfound
  obtain ⟨rfl, rfl⟩ := Prod.mk.injEq .. ▸ hfound
  exact h _ _ hstore

-- Of the lock that it owns, the worker is rid in the end.
theorem cleanupClaimedJobState_ends (hcalm : ∀ n op, (oracle n op).fault = .none) {id : JobId}
    (hlock : w.store.lock id = some (.owner self.workerId)) :
    Prog.Ends (World.exec pid role) oracle
      (fun _ w' => w'.store = (w.store.zremActive self.workerId id).delLock id)
      (self.cleanupClaimedJobState id) n w := by
  refine ends_calm hcalm (fun page => rfl) fun n₁ w₁ h₁ => ?_
  have hrelease : ∀ page, (Cmd.releaseJobLockIfOwner id self.workerId).exec .none page w₁.store =
      (.ok true, w₁.store.delLock id) := by
    intro page
    have hheld : w₁.store.lock id = some (.owner self.workerId) := by
      rw [h₁]
      exact hlock
    have hrun : (Scripts.releaseLockIfOwner id self.workerId).run none w₁.store =
        (some 1, w₁.store.delLock id) := by
      unfold Scripts.releaseLockIfOwner
      rw [Script.run_call_bind]
      simp only [getLock, hheld]
      rfl
    simp only [Cmd.exec, Cmd.script, hrun]
    rfl
  refine ends_calm hcalm hrelease fun n₂ w₂ h₂ => ?_
  apply ends_ret
  rw [h₂, h₁]

theorem addUnlessQueued_ends (hcalm : ∀ n op, (oracle n op).fault = .none) {time : DateTime}
    (htime : ∀ n, (oracle n .utcNow).now = time) (queueName : QueueKey) (id : JobId) :
    Prog.Ends (World.exec pid role) oracle
      (fun added w' => added = true ∧ w'.store =
        if id ∈ w.store.queues (normalizeQueueName queueName) then w.store
        else w.store.zadd (normalizeQueueName queueName) id time.timestampMillis)
      (addUnlessQueued queueName id) n w := by
  refine ends_calm hcalm (fun page => rfl) fun n₁ w₁ h₁ => ?_
  by_cases hq : id ∈ w.store.queues (normalizeQueueName queueName)
  · simp only [hq, decide_true, if_true]
    exact ends_ret ⟨rfl, h₁⟩
  · simp only [hq, decide_false, if_false]
    apply Prog.ends_call
    have hnow : (World.exec pid role .utcNow (oracle n₁ .utcNow) w₁).1 = time := htime n₁
    rw [hnow]
    refine ends_calm hcalm (fun page => rfl) fun n₂ w₂ h₂ => ?_
    have hstore : w₂.store = w.store.zadd (normalizeQueueName queueName) id time.timestampMillis :=
      h₂.trans (congrArg (zadd · _ _ _) h₁)
    exact ends_ret ⟨rfl, hstore⟩

theorem lockOwnedByOther_ends (hcalm : ∀ n op, (oracle n op).fault = .none) {id : JobId}
    (hlock : w.store.lock id = some (.owner self.workerId)) :
    Prog.Ends (World.exec pid role) oracle
      (fun other w' => other = some false ∧ w'.store = w.store)
      (self.lockOwnedByOther id 2) n w := by
  have howned : ∀ page, (Cmd.getJobLockOwner id).exec .none page w.store =
      (.ok (some self.workerId), w.store) := by
    intro page
    simp [Cmd.exec, Cmd.single, getLock, hlock, Cmd.reply]
  refine ends_calm hcalm howned fun n₁ w₁ h₁ => ?_
  exact ends_ret ⟨by simp, h₁⟩

-- The job is pending, and in the queue.
def shown (queueName : QueueKey) (id : JobId) (message : String) (time : DateTime) (s : Store) :
    Store :=
  let pending := Pipelines.markJobPending id (some message) s
  if id ∈ pending.queues (normalizeQueueName queueName) then pending
  else pending.zadd (normalizeQueueName queueName) id time.timestampMillis

theorem requeueClaimedJobWithoutDefinition_ends (hcalm : ∀ n op, (oracle n op).fault = .none)
    {time : DateTime} (htime : ∀ n, (oracle n .utcNow).now = time) (queueName : QueueKey)
    (id : JobId) (message : String) :
    Prog.Ends (World.exec pid role) oracle
      (fun added w' => added = true ∧ w'.store = shown queueName id message time w.store)
      (requeueClaimedJobWithoutDefinition queueName id (some message)) n w := by
  refine ends_calm hcalm (fun page => rfl) fun n₁ w₁ h₁ => ?_
  refine Prog.ends_mono (addUnlessQueued_ends hcalm htime queueName id) fun added w₂ h₂ => ?_
  rw [h₁] at h₂
  exact h₂

theorem locks_shown (queueName : QueueKey) (id : JobId) (message : String) (time : DateTime)
    (s : Store) : (shown queueName id message time s).locks = s.locks := by
  have hpending : (Pipelines.markJobPending id (some message) s).locks = s.locks :=
    (locks_hdel _ id _).trans (locks_hset s id _)
  unfold shown
  dsimp only
  split_ifs
  · exact hpending
  · exact hpending

-- What the script makes of a job that the owner has active.
theorem requeued_releaseArgs (hworker : self.workerId ≠ "") {s : Store} {id : JobId}
    (hactive : s.status id = some JobStatus.Active.asStr)
    (hlock : s.lock id = some (.owner self.workerId)) (queueName : QueueKey) (message : String)
    (time : DateTime) :
    requeued (self.releaseArgs queueName id message time) s =
      ((shown queueName id message time s).zremActive self.workerId id).delLock id := by
  have hplaces : SamePlaces s (Pipelines.markJobPending id (some message) s) :=
    (samePlaces_hset s id _).trans (samePlaces_hdel _ id _)
  have hdemoted : demoted (self.releaseArgs queueName id message time) s =
      Pipelines.markJobPending id (some message) s := if_pos hactive
  have hlocks : (Pipelines.markJobPending id (some message) s).locks = s.locks :=
    (locks_hdel _ id _).trans (locks_hset s id _)
  have hunlocked : ∀ t : Store, t.locks id = s.locks id →
      unlocked (self.releaseArgs queueName id message time) t = t.delLock id := by
    intro t ht
    have howned : t.lock id = some (.owner self.workerId) := (lock_congr ht).trans hlock
    exact if_pos ⟨hworker, howned⟩
  have hsame : (Pipelines.markJobPending id (some message) s).locks id = s.locks id :=
    congrFun hlocks id
  unfold requeued shown
  dsimp only
  rw [hdemoted, hplaces.queues]
  by_cases hq : id ∈ s.queues (normalizeQueueName queueName)
  · rw [if_pos hq]
    exact (if_pos hq).trans (hunlocked _ hsame)
  · rw [if_neg hq]
    exact (if_neg hq).trans (hunlocked _ hsame)

-- The release of a job that the worker has active ends where the script ends, whatever the
-- definition that it was claimed with says besides.
theorem releaseClaimedJob_requeues (hworker : self.workerId ≠ "") (pid : Pid) (role : Role)
    (hcalm : ∀ n op, (oracle n op).fault = .none) {time : DateTime}
    (htime : ∀ n, (oracle n .utcNow).now = time) (n : Nat) (queueName : QueueKey) {id : JobId}
    {job : Job} (hstatus : job.status = .Active) (howner : job.workerId = some self.workerId)
    (message : String) (page : Nat × List String)
    (hactive : w.store.status id = some JobStatus.Active.asStr)
    (hlock : w.store.lock id = some (.owner self.workerId)) :
    (Prog.run (World.exec pid role) oracle
      (self.releaseClaimedJob queueName id job (some message)) n w).2.2.store =
    ((Cmd.atomicRequeueJob (self.releaseArgs queueName id message time)).exec .none page
      w.store).2 := by
  have hp : (w.store.hash (self.releaseArgs queueName id message time).id).isSome := by
    show (w.store.hash id).isSome
    cases hhash : w.store.hash id with
    | none => simp [Store.status, hhash] at hactive
    | some h => rfl
  have hscript : ((Cmd.atomicRequeueJob (self.releaseArgs queueName id message time)).exec .none
      page w.store).2 = requeued (self.releaseArgs queueName id message time) w.store := by
    have hwell : w.store.lock (self.releaseArgs queueName id message time).id ≠ some .malformed := by
      show w.store.lock id ≠ _
      rw [hlock]
      simp
    simp only [Cmd.exec, Cmd.script, run_requeueJob_present hp hwell]
  rw [hscript, requeued_releaseArgs hworker hactive hlock]
  show Prog.Ends (World.exec pid role) oracle (fun _ w' => w'.store = _) _ n w
  apply Prog.ends_bind (lockOwnedByOther_ends hcalm hlock)
  rintro _ n₁ w₁ ⟨rfl, h₁⟩
  have hrequeue : some false ≠ some true ∧ job.workerId = some self.workerId :=
    ⟨by decide, howner⟩
  dsimp only
  rw [if_pos hrequeue]
  unfold requeueClaimedJobIfNeeded
  rw [if_pos (show job.status.Live from .inl hstatus), if_pos hstatus]
  apply Prog.ends_bind (requeueClaimedJobWithoutDefinition_ends hcalm htime queueName id message)
  rintro _ n₂ w₂ ⟨rfl, h₂⟩
  rw [if_pos rfl]
  refine Prog.ends_mono (cleanupClaimedJobState_ends hcalm ?_) fun _ w₃ h₃ => ?_
  · rw [h₂, h₁, lock_congr (congrFun (locks_shown queueName id message time w.store) id)]
    exact hlock
  · rw [h₃, h₂, h₁]

-- A job that a worker has active under its lock.

def activeJob (worker : WorkerId) : Job :=
  { RRQClient.buildJob {} "f" [] {} "j" "rrq:queue:default" ⟨0⟩ ⟨0⟩ 300 with
    status := .Active
    workerId := some worker }

def activeWorld (worker : WorkerId) : World :=
  .ofStore ((Store.empty.hset "j" fun _ => buildJobMapping (activeJob worker)).setLock "j"
    (some { value := .owner worker }))

def releasedStore (worker : WorkerId) : Store :=
  (Prog.run (World.exec 0 (.main worker)) (fun _ _ => {})
    ((ofDefaults worker).releaseClaimedJob "default" "j" (activeJob worker) (some "why")) 0
    (activeWorld worker)).2.2.store

def requeuedStore (worker : WorkerId) : Store :=
  ((Cmd.atomicRequeueJob ((ofDefaults worker).releaseArgs "default" "j" "why" ⟨0⟩)).exec .none
    (0, []) (activeWorld worker).store).2

theorem releaseClaimedJob_requeues_active : releasedStore "w" = requeuedStore "w" :=
  releaseClaimedJob_requeues (by decide) 0 (.main "w") (fun _ _ => rfl) (fun _ => rfl) 0 "default"
    rfl rfl "why" (0, []) (by decide) (by decide)

-- A worker without a name releases its lock, and the script leaves it.
theorem releaseClaimedJob_nameless :
    ¬ ∀ (self : RRQWorker) (pid : Pid) (role : Role) (oracle : Nat → Op → Chance) (time : DateTime)
      (n : Nat) (queueName : QueueKey) (id : JobId) (job : Job) (message : String)
      (page : Nat × List String) (w : World), (∀ n op, (oracle n op).fault = .none) →
      (∀ n, (oracle n .utcNow).now = time) → job.status = .Active →
      job.workerId = some self.workerId → w.store.status id = some JobStatus.Active.asStr →
      w.store.lock id = some (.owner self.workerId) →
      (Prog.run (World.exec pid role) oracle
        (self.releaseClaimedJob queueName id job (some message)) n w).2.2.store =
      ((Cmd.atomicRequeueJob (self.releaseArgs queueName id message time)).exec .none page
        w.store).2 := by
  intro h
  have hsame : releasedStore "" = requeuedStore "" :=
    h (ofDefaults "") 0 (.main "") (fun _ _ => {}) ⟨0⟩ 0 "default" "j" (activeJob "") "why" (0, [])
      (activeWorld "") (fun _ _ => rfl) (fun _ => rfl) rfl rfl (by decide) (by decide)
  have hfree : (releasedStore "").lock "j" = none := by decide
  have hheld : (requeuedStore "").lock "j" = some (.owner "") := by decide
  rw [hsame, hheld] at hfree
  cases hfree

end Rrq.RRQWorker
