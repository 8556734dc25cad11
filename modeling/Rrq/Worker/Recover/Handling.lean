import Rrq.Concurrent.Outlook
import Rrq.Store.Ownership
import Rrq.System.Permits

-- The recovery of one orphan, and what it is to the other orphans.

namespace Rrq

open Store

namespace Store

-- The worker shows no sign of life.
def Lifeless (s : Store) (worker : WorkerId) : Prop :=
  ∀ cell, s.health worker = some cell → Cmd.ttl s cell ≤ 0

-- The hashes that name a job are its own.
def NamedAlone (s : Store) (id : JobId) : Prop :=
  ∀ other h, s.hash other = some h → (h.id.getD other = id ↔ other = id)

theorem SameDefinitions.namedAlone {s t : Store} {id : JobId} (h : SameDefinitions s t)
    (hs : s.NamedAlone id) : t.NamedAlone id := by
  intro other after hafter
  have hd := congrArg JobHash.id (h.definition other)
  simp only [hafter, Option.getD_some, JobHash.definition] at hd
  rw [hd]
  cases hbefore : s.hash other with
  | none => simp
  | some before => exact hs other before hbefore

-- Writes that are not about the health of a worker leave the health and the time alone.
structure SameClock (s t : Store) : Prop where
  now : t.now = s.now
  health : t.health = s.health

theorem SameClock.lifeless {s t : Store} (h : SameClock s t) {worker : WorkerId} :
    t.Lifeless worker ↔ s.Lifeless worker := by
  unfold Lifeless Cmd.ttl
  rw [h.health, h.now]

theorem SameClock.dead {s t : Store} (h : SameClock s t) {worker : WorkerId}
    (hs : s.Lifeless worker) : t.Lifeless worker := h.lifeless.mpr hs

theorem SameClock.pxOk {s t : Store} (h : SameClock s t) (px : ℚ) : t.PxOk px ↔ s.PxOk px := by
  unfold PxOk
  rw [h.now]

section Clock

variable (s : Store) (id : JobId)

theorem sameClock_hset (fields : JobHash → JobHash) : SameClock s (s.hset id fields) := by
  unfold hset
  split <;> exact ⟨rfl, rfl⟩

theorem sameClock_hdel (fields : JobHash → JobHash) : SameClock s (s.hdel id fields) := by
  unfold hdel
  split <;> exact ⟨rfl, rfl⟩

theorem sameClock_expireJob (seconds : Int) : SameClock s (s.expireJob id seconds) := by
  unfold expireJob
  split <;> exact ⟨rfl, rfl⟩

theorem sameClock_persistJob : SameClock s (s.persistJob id) := by
  unfold persistJob
  split <;> exact ⟨rfl, rfl⟩

theorem frame_sameClock : Frame (· ≠ .health) (fun _ => True) SameClock where
  refl _ := ⟨rfl, rfl⟩
  trans _ _ _ hst htu := ⟨htu.now.trans hst.now, htu.health.trans hst.health⟩
  define _ s id _ _ := sameClock_hset s id _
  hset _ s id _ _ _ := sameClock_hset s id _
  hdel _ s id _ _ _ := sameClock_hdel s id _
  expireJob _ s id _ _ := sameClock_expireJob s id _
  persistJob _ s id _ := sameClock_persistJob s id
  zadd _ _ _ _ _ _ := ⟨rfl, rfl⟩
  zrem _ _ _ _ _ := ⟨rfl, rfl⟩
  zaddActive _ _ _ _ _ _ := ⟨rfl, rfl⟩
  zremActive _ _ _ _ _ := ⟨rfl, rfl⟩
  setLock _ _ _ _ _ _ := ⟨rfl, rfl⟩
  lpush _ _ _ _ _ := ⟨rfl, rfl⟩
  setHealth h := absurd rfl h
  setEvents _ _ _ := ⟨rfl, rfl⟩
  setUniqueLock _ _ _ _ := ⟨rfl, rfl⟩
  setIdempotency _ _ _ := ⟨rfl, rfl⟩
  setRateLimit _ _ _ := ⟨rfl, rfl⟩
  setDebounce _ _ _ := ⟨rfl, rfl⟩

end Clock

-- A job that is in its queue and that the worker no longer tracks.
structure Back (s : Store) (queue : QueueKey) (worker : WorkerId) (id : JobId) : Prop where
  queued : id ∈ s.queues queue
  untracked : id ∉ s.active worker

-- What no step of a recovery takes back.
structure Settling (s t : Store) : Prop where
  queues : ∀ queue id, id ∈ s.queues queue → id ∈ t.queues queue
  active : ∀ worker id, id ∈ t.active worker → id ∈ s.active worker

namespace Settling

variable {s t u : Store}

theorem of_places (hq : t.queues = s.queues) (ha : t.active = s.active) : Settling s t where
  queues queue id h := by rwa [hq]
  active worker id h := by rwa [← ha]

theorem refl (s : Store) : Settling s s := .of_places rfl rfl

theorem trans (hst : Settling s t) (htu : Settling t u) : Settling s u where
  queues queue id h := htu.queues queue id (hst.queues queue id h)
  active worker id h := hst.active worker id (htu.active worker id h)

theorem back (h : Settling s t) {queue : QueueKey} {worker : WorkerId} {id : JobId}
    (hs : s.Back queue worker id) : t.Back queue worker id where
  queued := h.queues queue id hs.queued
  untracked hmem := hs.untracked (h.active worker id hmem)

end Settling

theorem frame_samePlaces :
    Frame (fun kind => kind ≠ .queue ∧ kind ≠ .active) (fun _ => True) SamePlaces where
  refl := .refl
  trans _ _ _ := SamePlaces.trans
  define _ s id fields _ := samePlaces_hset s id fields
  hset _ s id fields _ _ := samePlaces_hset s id fields
  hdel _ s id fields _ _ := samePlaces_hdel s id fields
  expireJob _ s id _ _ := by
    unfold expireJob
    split
    · exact .refl s
    · exact samePlaces_setJob s id _
  persistJob _ s id _ := by
    unfold persistJob
    split
    · exact .refl s
    · exact samePlaces_setJob s id _
  zadd h := absurd rfl h.1
  zrem h := absurd rfl h.1
  zaddActive h := absurd rfl h.2
  zremActive h := absurd rfl h.2
  setLock _ _ _ _ _ _ := ⟨rfl, rfl⟩
  lpush _ _ _ _ _ := ⟨rfl, rfl⟩
  setHealth _ _ _ _ := ⟨rfl, rfl⟩
  setEvents _ _ _ := ⟨rfl, rfl⟩
  setUniqueLock _ _ _ _ := ⟨rfl, rfl⟩
  setIdempotency _ _ _ := ⟨rfl, rfl⟩
  setRateLimit _ _ _ := ⟨rfl, rfl⟩
  setDebounce _ _ _ := ⟨rfl, rfl⟩

section Settles

open Script Scripts

variable (s : Store)

theorem settling_hset (id : JobId) (fields : JobHash → JobHash) :
    Settling s (s.hset id fields) :=
  .of_places (samePlaces_hset s id fields).queues (samePlaces_hset s id fields).active

theorem settling_hdel (id : JobId) (fields : JobHash → JobHash) :
    Settling s (s.hdel id fields) :=
  .of_places (samePlaces_hdel s id fields).queues (samePlaces_hdel s id fields).active

theorem settling_zadd (queue : QueueKey) (id : JobId) (score : ℚ) :
    Settling s (s.zadd queue id score) where
  queues other member h := by
    by_cases ho : other = queue
    · subst ho
      simp [zadd, h]
    · simpa [zadd, ho] using h
  active worker member h := h

theorem settling_zremActive (worker : WorkerId) (id : JobId) :
    Settling s (s.zremActive worker id) where
  queues _ _ h := h
  active other member h := by
    by_cases ho : other = worker
    · subst ho
      simp only [zremActive, setActive_active, Function.update_self, SortedSet.mem_erase] at h
      exact h.2
    · simpa [zremActive, ho] using h

theorem keeps_settling_demote (args : RequeueArgs) : Keeps (Settling s) (demote args) := by
  unfold demote
  refine .bind (.ask _) fun current => .ite ?_ (.ite (.pure _) ?_)
  · exact .bind (.write fun t ht => ht.trans (settling_hset t _ _)) fun _ =>
      .write fun t ht => ht.trans (settling_hdel t _ _)
  · exact .write fun t ht => ht.trans (settling_hset t _ _)

theorem keeps_settling_untrack (args : RequeueArgs) : Keeps (Settling s) (untrack args) := by
  unfold untrack
  split
  · exact .write fun t ht => ht.trans (settling_zremActive t _ _)
  · exact .pure _

theorem keeps_settling_restoreSchedule (args : RequeueArgs) :
    Keeps (Settling s) (restoreSchedule args) := by
  unfold restoreSchedule
  split
  · exact .write fun t ht => ht.trans (settling_hset t _ _)
  · exact .pure _

theorem keeps_settling_releaseOwned (args : RequeueArgs) :
    Keeps (Settling s) (releaseOwned args) := by
  unfold releaseOwned
  refine .ite (.pure _) (.bind (keeps_getLock _ _) fun owner => .ite ?_ (.pure _))
  exact .write fun t ht => ht.trans (.of_places rfl rfl)

theorem keeps_settling_requeueJob (args : RequeueArgs) :
    Keeps (Settling s) (requeueJob args) := by
  unfold requeueJob requeueJobBody
  refine .bind (.pcall (.bind (.ask _) fun present => .ite ?_ (.pure _))) fun _ => .pure _
  refine .bind (keeps_settling_demote s args) fun _ => .bind (.ask _) fun queued => .ite ?_ ?_
  · exact .bind (keeps_settling_untrack s args) fun _ =>
      .bind (keeps_settling_releaseOwned s args) fun _ => .pure _
  · refine .bind (.write fun t ht => ht.trans (settling_zadd t _ _ _)) fun _ => ?_
    exact .bind (keeps_settling_untrack s args) fun _ =>
      .bind (keeps_settling_restoreSchedule s args) fun _ =>
        .bind (keeps_settling_releaseOwned s args) fun _ => .pure _

-- The script puts a job that exists into its queue, even if it cannot read its lock.
theorem requeueJob_queues {args : RequeueArgs} (hp : (s.hash args.id).isSome) :
    args.id ∈ ((requeueJob args).run none s).2.queues args.queueKey := by
  have hjob : (s.jobs args.id).isSome := by simpa [Store.hash] using hp
  rw [run_requeueJob, requeueJobBody_eq, run_ask_bind, hjob, if_pos rfl, run_bind steady_demote,
    run_demote]
  unfold enterQueue
  dsimp only
  rw [run_ask_bind, samePlaces_demoted.queues]
  by_cases hq : args.id ∈ s.queues args.queueKey
  · simp only [hq, decide_true, if_true]
    have hkeeps : Keeps (Settling (demoted args s)) (untrack args >>= fun _ =>
        releaseOwned args >>= fun _ => (pure 2 : Script Store Int)) :=
      .bind (keeps_settling_untrack _ args) fun _ =>
        .bind (keeps_settling_releaseOwned _ args) fun _ => .pure _
    refine (hkeeps.run none (.refl _)).queues _ _ ?_
    rwa [samePlaces_demoted.queues]
  · simp only [hq, decide_false, Bool.false_eq_true, if_false, run_write_bind]
    have hkeeps : Keeps (Settling ((demoted args s).zadd args.queueKey args.id args.score))
        (untrack args >>= fun _ => restoreSchedule args >>= fun _ =>
          releaseOwned args >>= fun _ => (pure 1 : Script Store Int)) :=
      .bind (keeps_settling_untrack _ args) fun _ =>
        .bind (keeps_settling_restoreSchedule _ args) fun _ =>
          .bind (keeps_settling_releaseOwned _ args) fun _ => .pure _
    refine (hkeeps.run none (.refl _)).queues _ _ ?_
    simp [zadd]

end Settles

end Store

namespace Cmd

theorem kinds_byHeartbeat {c : Cmd} {worker : WorkerId} (hc : c.ByHeartbeat worker) :
    (∃ args, c = .atomicRequeueJob args) ∨ (∃ owner id, c = .removeActiveJob owner id) ∨
      ∀ kind ∈ c.kinds, kind ≠ Kind.queue ∧ kind ≠ Kind.active := by
  cases c <;> simp_all [ByHeartbeat, kinds]

-- No command of a heartbeat takes a job out of a queue or tracks one.
theorem settling_exec {c : Cmd} {worker : WorkerId} (hc : c.ByHeartbeat worker)
    {fault : Fault} {page : Nat × List String} {s t : Store} {answer : Except RedisError c.Answer}
    (h : c.exec fault page s = (answer, t)) : Settling s t := by
  have ht : t = (c.exec fault page s).2 := (congrArg Prod.snd h).symm
  rw [ht]
  rcases kinds_byHeartbeat hc with ⟨args, rfl⟩ | ⟨owner, id, rfl⟩ | hkinds
  · exact keeps_script fault _ _ (keeps_settling_requeueJob s args) (.refl s)
  · exact keeps_single fault (.refl s) (settling_zremActive s owner id)
  · have hsame := frame_exec frame_samePlaces hkinds (fun _ _ => trivial) fault page s
    exact Settling.of_places hsame.queues hsame.active

end Cmd

namespace Recover

open Prog

-- The job that a command of a sweep is about.
def about : Cmd → Option JobId
  | .getJobLockOwner id => some id
  | .getJobDataMap id => some id
  | .tryLockJob id _ _ => some id
  | .isJobQueued _ id => some id
  | .markJobPending id _ => some id
  | .atomicRequeueJob args => some args.id
  | .removeActiveJob _ id => some id
  | .releaseJobLockIfOwner id _ => some id
  | _ => none

-- A sweep in which errors befall commands about any jobs but one, and no other commands.
structure Trial where
  chances : Nat → Chance
  pages : Nat → Nat × List String
  spared : JobId

namespace Trial

variable (trial : Trial)

def fault (n : Nat) (id : JobId) : Fault :=
  if id = trial.spared then .none else (trial.chances n).fault

def oracle (n : Nat) : Op → Chance
  | .redis (.scanActiveJobKeys cursor) =>
      { trial.chances n with fault := .none, page := trial.pages cursor }
  | .redis c => { trial.chances n with fault := ((about c).map (trial.fault n)).getD .none }
  | _ => trial.chances n

-- The lock of the job can be asked for, and the queue if the lock is taken.
def canLock (self : RRQWorker) (n : Nat) (s : Store) (id : JobId) (job : Job) : Bool :=
  match RRQWorker.jobLockTimeoutMs self.settings job with
  | none => false
  | some ms =>
      decide (ms ≤ 0) || (decide (trial.fault n job.id = .none ∧ s.PxOk ms) &&
        ((s.locks job.id).isSome || decide (trial.fault (n + 1) id = .none)))

-- The sweep can handle the job without giving up, its first command being the given one.
def canHandle (self : RRQWorker) (n : Nat) (s : Store) (id : JobId) : Bool :=
  decide (trial.fault n id = .none) &&
    match s.lock id with
    | some .malformed => false
    | some (.owner _) => true
    | none => decide (trial.fault (n + 1) id = .none) &&
        match s.hash id with
        | none => true
        | some h =>
            match parseJobMap h id self.settings.defaultMaxRetries with
            | .error _ => false
            | .ok job => trial.canLock self (n + 2) s id job

-- The sweep is watched until it drops the spared job from the active set of a worker. Up to
-- there each job that it comes to must be one that it can handle.
def watch (self : RRQWorker) (pid : Pid) (worker : WorkerId) : Watch Op Op.Reply Chance World where
  exec := World.exec pid (.heartbeat self.workerId)
  oracle := trial.oracle
  here := fun
    | .redis (.removeActiveJob owner id) => decide (owner = worker ∧ id = trial.spared)
    | _ => false
  passes n := fun
    | .redis (.getJobLockOwner id) => fun w => trial.canHandle self n w.store id
    | _ => fun _ => true

end Trial

-- A job whose hash says that it can still be executed, and from which queue.
def Restorable (self : RRQWorker) (queue : QueueKey) (id : JobId) (s : Store) : Prop :=
  ∃ h job ms, s.hash id = some h ∧
    parseJobMap h id self.settings.defaultMaxRetries = .ok job ∧ job.status.Live ∧
    normalizeQueueName (job.queueName.getD self.settings.defaultQueueName) = queue ∧
    RRQWorker.jobLockTimeoutMs self.settings job = some ms ∧ s.PxOk ms

-- Such a job that nobody holds.
structure Orphan (sweeper : RRQWorker) (queue : QueueKey) (id : JobId) (s : Store) : Prop where
  free : s.locks id = none
  restorable : Restorable sweeper queue id s

-- An orphan of a dead worker, during a sweep.
structure Waiting (sweeper : RRQWorker) (queue : QueueKey) (worker : WorkerId) (id : JobId)
    (w : World) : Prop where
  orphan : Orphan sweeper queue id w.store
  alone : w.store.NamedAlone id
  tracked : id ∈ w.store.active worker
  dead : w.store.Lifeless worker
  running : (w.mem sweeper.workerId).shutdown = false

-- How a part of a sweep comes out: it goes on, it has dropped the spared job, or it has met a
-- job that it cannot handle and gives up.
def Course {α : Type} (waiting back : World → Prop) (goes : α → Prop) :
    Outlook → Except RecoverError α → World → Prop
  | .clear, answer, w => waiting w ∧ ∃ value, answer = .ok value ∧ goes value
  | .met, _, w => back w
  | .failed, answer, w => waiting w ∧ ∃ error, answer = .error error

-- The answers to the questions of a sweep.

section Answers

variable {fault : Fault} {page : Nat × List String} {s : Store} {id : JobId}

theorem getJobLockOwner_exec : (Cmd.getJobLockOwner id).exec fault page s =
    (if fault = .none then
      match s.lock id with
      | none => .ok none
      | some (.owner name) => .ok (some name)
      | some .malformed => .error .wrongType
    else .error .failed, s) := by
  cases fault with
  | none =>
      simp only [Cmd.exec, Cmd.single, getLock, if_true]
      cases hlock : s.lock id with
      | none => rfl
      | some cell => cases cell <;> rfl
  | _ => rfl

theorem getJobDataMap_exec : (Cmd.getJobDataMap id).exec fault page s =
    (if fault = .none then .ok (s.hash id) else .error .failed, s) := by
  cases fault <;> rfl

theorem tryLockJob_exec {owner : String} {ms : Int} :
    ((Cmd.tryLockJob id owner ms).exec fault page s).1 =
      if fault = .none ∧ s.PxOk ms then .ok (s.locks id).isNone else .error .failed := by
  cases fault with
  | none =>
      simp only [Cmd.exec, Cmd.single, setLockNx, Cmd.reply, true_and]
      split_ifs with hpx hlock
      · simp [hlock]
      · have hfree : s.locks id = none := by simpa using hlock
        simp [hfree]
      · rfl
  | _ => simp [Cmd.exec, Cmd.single]

theorem isJobQueued_exec {queue : QueueKey} : (Cmd.isJobQueued queue id).exec fault page s =
    (if fault = .none then .ok (decide (id ∈ s.queues queue)) else .error .failed, s) := by
  cases fault <;> rfl

end Answers

section Handled

variable {self : RRQWorker} {trial : Trial} {role : Role} {pid : Pid} {worker : WorkerId}
  {id : JobId} {n : Nat} {w : World}

-- The answer of the recovery of a job, according to whether it could be handled.
def Handled (handles : Bool) (answer : Except RecoverError Verdict) : Prop :=
  if handles then answer = .ok .skipped ∨ answer = .ok .recovered
  else ∃ error, answer = .error error

abbrev Answers (role : Role) (pid : Pid) (trial : Trial) (handles : Bool) (n : Nat) (w : World)
    (prog : Proc (Except RecoverError Verdict)) : Prop :=
  Prog.Ends (World.exec pid role) trial.oracle (fun answer _ => Handled handles answer) prog n w

theorem dropTracking_yields (entry named : JobId) (verdict : Verdict)
    (h : verdict = .skipped ∨ verdict = .recovered) :
    (dropTracking worker entry named >>= fun _ =>
      (pure (.ok verdict) : Proc (Except RecoverError Verdict))).Yields (Handled true) := by
  refine yields_bind (yields_true _) fun _ _ => ?_
  rcases h with rfl | rfl
  · exact .inl rfl
  · exact .inr rfl

theorem afterRequeue_yields (job : Job) (reply : Except RedisError Int) :
    (afterRequeue worker job reply).Yields (Handled true) := by
  unfold afterRequeue
  split
  · exact yields_call fun _ => .inl rfl
  · split
    · exact yields_call fun _ => .inl rfl
    · exact dropTracking_yields _ _ _ (.inl rfl)
    · exact dropTracking_yields _ _ _ (.inr rfl)

theorem settleOrphan_answers (job : Job) (queueName : QueueKey) :
    Answers role pid trial (decide (trial.fault n id = .none)) n w
      (settleOrphan worker id job queueName) := by
  refine ends_redis fun answer store w₁ hexec _ _ => ?_
  rw [isJobQueued_exec] at hexec
  obtain ⟨rfl, -⟩ := Prod.mk.injEq .. ▸ hexec
  have hfault : (trial.oracle n (.redis (.isJobQueued queueName id))).fault = trial.fault n id :=
    rfl
  rw [hfault]
  by_cases hf : trial.fault n id = .none
  · rw [if_pos hf, decide_eq_true hf]
    cases decide (id ∈ w.store.queues queueName) with
    | true =>
        dsimp only
        refine ends_yields ?_
        split_ifs
        · exact yields_call fun _ => dropTracking_yields _ _ _ (.inl rfl)
        · exact dropTracking_yields _ _ _ (.inl rfl)
    | false =>
        dsimp only
        refine ends_yields ?_
        split_ifs
        · exact yields_bind (yields_true _) fun _ _ =>
            yields_call fun reply => afterRequeue_yields job reply
        · exact dropTracking_yields _ _ _ (.inl rfl)
  · rw [if_neg hf, decide_eq_false hf]
    exact ends_ret ⟨_, rfl⟩

theorem recoverFound_answers (job : Job) :
    Answers role pid trial (trial.canLock self n w.store id job) n w
      (recoverFound self.settings worker id job) := by
  unfold recoverFound Trial.canLock
  dsimp only
  cases hms : RRQWorker.jobLockTimeoutMs self.settings job with
  | none => exact ends_ret ⟨_, rfl⟩
  | some ms =>
      dsimp only
      by_cases hpos : ms ≤ 0
      · rw [if_pos hpos, decide_eq_true hpos]
        exact ends_ret (.inl rfl)
      rw [if_neg hpos, decide_eq_false hpos, Bool.false_or]
      refine ends_redis fun answer store w₁ hexec hs₁ _ => ?_
      have hanswer := congrArg Prod.fst hexec
      rw [tryLockJob_exec] at hanswer
      have hfault : (trial.oracle n (.redis (.tryLockJob job.id (lockOwner worker) ms))).fault =
          trial.fault n job.id := rfl
      rw [hfault] at hanswer
      obtain rfl := hanswer
      by_cases htry : trial.fault n job.id = .none ∧ w.store.PxOk ms
      · rw [if_pos htry, decide_eq_true htry, Bool.true_and]
        cases hlock : w.store.locks job.id with
        | none => simpa [hlock] using settleOrphan_answers job _
        | some cell => exact ends_ret (.inl rfl)
      · rw [if_neg htry, decide_eq_false htry]
        exact ends_ret ⟨_, rfl⟩

theorem recoverJob_answers (hrunning : (w.mem self.workerId).shutdown = false) :
    Answers role pid trial (trial.canHandle self (n + 1) w.store id) n w
      (recoverJob self worker id) := by
  refine ends_call ?_
  change Answers role pid trial _ (n + 1) w (if (w.mem self.workerId).shutdown = true then _ else _)
  rw [hrunning, if_neg Bool.false_ne_true]
  refine ends_redis fun answer store w₁ hexec hs₁ _ => ?_
  rw [getJobLockOwner_exec] at hexec
  obtain ⟨rfl, rfl⟩ := Prod.mk.injEq .. ▸ hexec
  have hfault : (trial.oracle (n + 1) (.redis (.getJobLockOwner id))).fault =
    trial.fault (n + 1) id := rfl
  rw [hfault]
  unfold Trial.canHandle
  by_cases hf : trial.fault (n + 1) id = .none
  swap
  · rw [if_neg hf, decide_eq_false hf]
    exact ends_ret ⟨_, rfl⟩
  rw [if_pos hf, decide_eq_true hf, Bool.true_and]
  match hlock : w.store.lock id with
  | some .malformed => exact ends_ret ⟨_, rfl⟩
  | some (.owner _) => exact ends_ret (.inl rfl)
  | none =>
  dsimp only
  unfold JobStore.getJobDefinition
  rw [bind_assoc]
  refine ends_redis fun answer store w₂ hexec hs₂ _ => ?_
  rw [getJobDataMap_exec, hs₁] at hexec
  obtain ⟨rfl, rfl⟩ := Prod.mk.injEq .. ▸ hexec
  have hfault : (trial.oracle (n + 1 + 1) (.redis (.getJobDataMap id))).fault =
    trial.fault (n + 1 + 1) id := rfl
  rw [hfault]
  by_cases hload : trial.fault (n + 1 + 1) id = .none
  swap
  · rw [if_neg hload, decide_eq_false hload]
    exact ends_ret ⟨_, rfl⟩
  rw [if_pos hload, decide_eq_true hload, Bool.true_and]
  cases hraw : w.store.hash id with
  | none => exact ends_yields (yields_call fun _ => .inl rfl)
  | some h =>
      dsimp only
      cases hparse : parseJobMap h id self.settings.defaultMaxRetries with
      | error error => exact ends_ret ⟨_, rfl⟩
      | ok job =>
          simp only [pure_eq_ret, ret_bind]
          rw [← hs₂]
          exact recoverFound_answers job

end Handled

-- What a sweep does that is about other jobs.
def Aside (self : RRQWorker) (id : JobId) : Op → Prop
  | .redis c => c.ByHeartbeat self.workerId ∧ (∀ other, c.concerns other → id ≠ other) ∧
      (∀ kind ∈ c.kinds, kind ≠ .definition ∧ kind ≠ .health) ∧
      ∀ other, c ≠ .getJobLockOwner other
  | .utcNow => True
  | _ => False

-- The hash that is read for another job names another job.
def NamesOther (id : JobId) : (op : Op) → op.Reply → Prop
  | .redis (.getJobDataMap other), reply =>
      other ≠ id → ∀ h, reply = .ok (some h) → h.id.getD other ≠ id
  | _, _ => True

section Other

variable {self : RRQWorker} {trial : Trial} {pid : Pid} {queue : QueueKey}
  {worker owner : WorkerId} {id other named : JobId} {n : Nat} {w : World} {op : Op}

theorem Handles.aside (h : Handles owner other named op) (hother : id ≠ other)
    (hnamed : id ≠ named) : Aside self id op := by
  cases h with
  | utcNow => trivial
  | tryLock ms =>
      exact ⟨isRecovery_lockOwner owner, by rintro _ rfl; exact hnamed, by simp [Cmd.kinds],
        by rintro _ ⟨⟩⟩
  | isQueued queue => exact ⟨trivial, by rintro _ ⟨⟩, by simp [Cmd.kinds], by rintro _ ⟨⟩⟩
  | markPending =>
      exact ⟨trivial, by rintro _ rfl; exact hother, by simp [Cmd.kinds], by rintro _ ⟨⟩⟩
  | requeue args hid howner =>
      have hrecovery := isRecovery_lockOwner owner
      rw [← howner] at hrecovery
      exact ⟨hrecovery, by rintro _ rfl; exact hid ▸ hnamed, by simp [Cmd.kinds], by rintro _ ⟨⟩⟩
  | dropEntry =>
      exact ⟨trivial, by rintro _ rfl; exact hother, by simp [Cmd.kinds], by rintro _ ⟨⟩⟩
  | dropNamed =>
      exact ⟨trivial, by rintro _ rfl; exact hnamed, by simp [Cmd.kinds], by rintro _ ⟨⟩⟩
  | release =>
      exact ⟨isRecovery_lockOwner owner, by rintro _ rfl; exact hnamed, by simp [Cmd.kinds],
        by rintro _ ⟨⟩⟩

theorem Aside.quiet (h : Aside self trial.spared op) (n : Nat) (w : World) :
    (trial.watch self pid worker).passes n op w = true ∧
      (trial.watch self pid worker).here op = false := by
  cases op with
  | redis c =>
      obtain ⟨-, hconcerns, -, howner⟩ := h
      cases c with
      | removeActiveJob owner id =>
          refine ⟨rfl, decide_eq_false fun heq => hconcerns id rfl heq.2.symm⟩
      | getJobLockOwner id => exact absurd rfl (howner id)
      | _ => exact ⟨rfl, rfl⟩
  | _ => exact ⟨rfl, rfl⟩

theorem Restorable.congr {s t : Store} (h : Restorable self queue id s)
    (hhash : t.hash id = s.hash id) (hclock : SameClock s t) : Restorable self queue id t := by
  obtain ⟨raw, job, ms, hraw, hparse, hlive, hqueue, hms, hpx⟩ := h
  exact ⟨raw, job, ms, hhash.trans hraw, hparse, hlive, hqueue, hms, (hclock.pxOk _).mpr hpx⟩

theorem Orphan.congr {s t : Store} (h : Orphan self queue id s) (hjob : SameJob id s t)
    (hclock : SameClock s t) : Orphan self queue id t where
  free := by rw [hjob.lock, h.free]
  restorable := h.restorable.congr hjob.hash hclock

theorem Waiting.aside (hw : Waiting self queue worker id w) (h : Aside self id op) {role : Role}
    (chance : Chance) : Waiting self queue worker id (World.exec pid role op chance w).2 := by
  cases op with
  | redis c =>
      obtain ⟨-, hconcerns, hkinds, -⟩ := h
      have hjob := Cmd.sameJob_exec id hconcerns chance.fault chance.page w.store
      have hclock := Cmd.frame_exec frame_sameClock (fun kind hk => (hkinds kind hk).2)
        (fun _ _ => trivial) chance.fault chance.page w.store
      have hdefinitions := Cmd.frame_exec frame_sameDefinitions (fun kind hk => (hkinds kind hk).1)
        (fun _ _ => trivial) chance.fault chance.page w.store
      exact ⟨hw.orphan.congr hjob hclock, hdefinitions.namedAlone hw.alone,
        (hjob.active worker).mpr hw.tracked, hclock.dead hw.dead, hw.running⟩
  | utcNow => exact hw
  | _ => exact h.elim

theorem Waiting.namesOther (hw : Waiting self queue worker id w) (h : Aside self id op)
    {role : Role} (chance : Chance) : NamesOther id op (World.exec pid role op chance w).1 := by
  cases op with
  | redis c =>
      cases c with
      | getJobDataMap other =>
          intro hne raw hreply
          simp only [World.exec, getJobDataMap_exec] at hreply
          split_ifs at hreply
          have hraw := Except.ok.inj hreply
          exact fun heq => hne ((hw.alone other raw hraw).mp heq)
      | _ => trivial
  | _ => trivial

theorem afterOwner_aside (hother : other ≠ id) :
    ((JobStore.getJobDefinition self.settings.defaultMaxRetries other) >>= fun answer =>
      match answer with
      | .error error => pure (.error (.ofLoad error))
      | .ok none => do
          let _ ← redis (.removeActiveJob owner other)
          pure (.ok .skipped)
      | .ok (some job) => recoverFound self.settings owner other job :
        Proc (Except RecoverError Verdict)).Issues (Aside self id) (NamesOther id) := by
  unfold JobStore.getJobDefinition
  rw [bind_assoc]
  refine issues_call ⟨trivial, nofun, by simp [Cmd.kinds], nofun⟩ fun reply hreply => ?_
  split
  · trivial
  · exact issues_call (Handles.dropEntry.aside hother.symm hother.symm) fun _ _ => trivial
  · rename_i raw
    have hnamed : raw.id.getD other ≠ id := hreply hother raw rfl
    cases hparse : parseJobMap raw other self.settings.defaultMaxRetries with
    | error error => trivial
    | ok job =>
        have hid := (parseJobMap_ok hparse).2.1
        exact (recoverFound_handles self.settings job).mono fun op hop =>
          hop.aside hother.symm (by rw [hid]; exact hnamed.symm)

theorem Waiting.congr {w' : World} (hw : Waiting self queue worker id w)
    (hstore : w'.store = w.store) (hmem : w'.mem = w.mem) : Waiting self queue worker id w' where
  orphan := hstore ▸ hw.orphan
  alone := hstore ▸ hw.alone
  tracked := hstore ▸ hw.tracked
  dead := hstore ▸ hw.dead
  running := hmem ▸ hw.running

-- One command of a watched sweep.
theorem watch_redis {α : Type} {post : Outlook → α → World → Prop} {c : Cmd}
    {next : Except RedisError c.Answer → Proc α}
    (hp : (trial.watch self pid worker).passes n (.redis c) w = true)
    (hh : (trial.watch self pid worker).here (.redis c) = false)
    (h : ∀ answer store w', c.exec (trial.oracle n (.redis c)).fault
      (trial.oracle n (.redis c)).page w.store = (answer, store) →
      w'.store = store → w'.mem = w.mem →
        (trial.watch self pid worker).Ends post (next answer) (n + 1) w') :
    (trial.watch self pid worker).Ends post (redis c >>= next) n w :=
  Watch.ends_quiet hp hh (h _ _ _ rfl rfl rfl)

theorem watch_fails {α : Type} {post : Outlook → α → World → Prop} {c : Cmd}
    {next : Except RedisError c.Answer → Proc α}
    (hp : (trial.watch self pid worker).passes n (.redis c) w = false)
    (h : Prog.Ends (World.exec pid (.heartbeat self.workerId)) trial.oracle (post .failed)
      (redis c >>= next) n w) :
    (trial.watch self pid worker).Ends post (redis c >>= next) n w :=
  Watch.ends_fails hp h

theorem watch_shutdown {α : Type} {post : Outlook → α → World → Prop} {next : Bool → Proc α}
    (h : (trial.watch self pid worker).Ends post (next (w.mem self.workerId).shutdown) (n + 1) w) :
    (trial.watch self pid worker).Ends post
      (perform (.shutdownRequested self.workerId) >>= next) n w :=
  Watch.ends_quiet rfl rfl h

theorem recoverOther_outlook (hother : other ≠ trial.spared)
    (hw : Waiting self queue worker trial.spared w) :
    (trial.watch self pid worker).Ends (fun outlook _ after =>
        outlook = (if trial.canHandle self (n + 1) w.store other then .clear else .failed) ∧
        Waiting self queue worker trial.spared after)
      (recoverJob self owner other) n w := by
  refine watch_shutdown ?_
  rw [hw.running, if_neg Bool.false_ne_true]
  have haside := @afterOwner_aside self owner _ _ hother
  cases hc : trial.canHandle self (n + 1) w.store other with
  | true =>
      refine watch_redis hc rfl fun answer store w₁ hexec hs₁ hm₁ => ?_
      rw [getJobLockOwner_exec] at hexec
      obtain ⟨-, rfl⟩ := Prod.mk.injEq .. ▸ hexec
      have hafter := hw.congr hs₁ hm₁
      match answer with
      | .error error => exact Watch.ends_ret ⟨rfl, hafter⟩
      | .ok (some name) => exact Watch.ends_ret ⟨rfl, hafter⟩
      | .ok none =>
          exact Watch.ends_issues haside (fun n op w h _ => h.quiet n w)
            (fun n op w h hw => ⟨hw.namesOther h _, hw.aside h _⟩) hafter
  | false =>
      refine watch_fails hc (ends_redis fun answer store w₁ hexec hs₁ hm₁ => ?_)
      rw [getJobLockOwner_exec] at hexec
      obtain ⟨-, rfl⟩ := Prod.mk.injEq .. ▸ hexec
      have hafter := hw.congr hs₁ hm₁
      match answer with
      | .error error => exact ends_ret ⟨rfl, hafter⟩
      | .ok (some name) => exact ends_ret ⟨rfl, hafter⟩
      | .ok none =>
          exact ends_mono (ends_issues haside
            (fun n op w h hw => ⟨hw.namesOther h _, hw.aside h _⟩) hafter) fun _ _ h => ⟨rfl, h⟩

-- The recovery of another job goes on or gives up, and the spared job still waits.
theorem recoverOther_course (hother : other ≠ trial.spared)
    (hw : Waiting self queue worker trial.spared w) :
    (trial.watch self pid worker).Ends
      (Course (Waiting self queue worker trial.spared) (fun _ => False) fun verdict =>
        verdict = .skipped ∨ verdict = .recovered)
      (recoverJob self owner other) n w := by
  refine Watch.ends_mono (Watch.ends_and (recoverOther_outlook hother hw)
    (recoverJob_answers hw.running)) ?_
  rintro outlook answer after ⟨⟨rfl, hafter⟩, hanswer⟩
  cases hc : trial.canHandle self (n + 1) w.store other with
  | true =>
      rw [hc] at hanswer
      rcases hanswer with rfl | rfl
      · exact ⟨hafter, _, rfl, .inl rfl⟩
      · exact ⟨hafter, _, rfl, .inr rfl⟩
  | false =>
      rw [hc] at hanswer
      exact ⟨hafter, hanswer⟩

end Other

-- The recovery of the spared job itself.

section Spared

variable {self : RRQWorker} {trial : Trial} {pid : Pid} {queue : QueueKey}
  {worker owner : WorkerId} {n : Nat} {w : World}

theorem parseJobMap_restored {h after : JobHash} {id : JobId} {defaultMaxRetries : Int} {job : Job}
    (hd : after.definition = h.definition)
    (hs : after.status = h.status ∨ after.status = some JobStatus.Pending.asStr)
    (hparse : parseJobMap h id defaultMaxRetries = .ok job) (hlive : job.status.Live) :
    ∃ restored, parseJobMap after id defaultMaxRetries = .ok restored ∧ restored.status.Live ∧
      restored.queueName = job.queueName ∧ restored.jobTimeoutSeconds = job.jobTimeoutSeconds := by
  have htime := congrArg JobHash.enqueueTime hd
  have hqueue := congrArg JobHash.queueName hd
  have htimeout := congrArg JobHash.jobTimeoutSeconds hd
  simp only [JobHash.definition] at htime hqueue htimeout
  have hstatus := (parseJobMap_ok hparse).1
  have hlast : ∃ status : JobStatus, after.status = some status.asStr ∧ status.Live := by
    rcases hs with hs | hs
    · exact ⟨job.status, hs.trans hstatus, hlive⟩
    · exact ⟨.Pending, hs, by decide⟩
  obtain ⟨status, hafter, hl⟩ := hlast
  unfold parseJobMap at hparse ⊢
  rw [hafter, htime, hqueue, htimeout]
  split at hparse
  · cases hparse
  · cases hparse
  · rename_i hread
    obtain rfl := Except.ok.inj hparse
    rw [hread]
    simp [hl]

theorem Restorable.rewritten {s t : Store} {id : JobId} {fields : JobHash → JobHash}
    (hr : Restorable self queue id s) (hhash : t.hash id = (s.hash id).map fields)
    (hd : ∀ h, (fields h).definition = h.definition)
    (hs : ∀ h, (fields h).status = h.status ∨ (fields h).status = some JobStatus.Pending.asStr)
    (hclock : SameClock s t) : Restorable self queue id t := by
  obtain ⟨h, job, ms, hh, hparse, hlive, hqueue, hms, hpx⟩ := hr
  obtain ⟨restored, hparsed, hl, hq, ht⟩ := parseJobMap_restored (hd h) (hs h) hparse hlive
  refine ⟨fields h, restored, ms, by rw [hhash, hh]; rfl, hparsed, hl, by rw [hq, hqueue], ?_,
    (hclock.pxOk _).mpr hpx⟩
  unfold RRQWorker.jobLockTimeoutMs at hms ⊢
  rwa [ht]

theorem requeuedHash_definition (args : Scripts.RequeueArgs) (queued : Bool) (h : JobHash) :
    (requeuedHash args queued h).definition = h.definition := by
  unfold requeuedHash demotedHash
  split <;> split_ifs <;> rfl

theorem requeuedHash_status (args : Scripts.RequeueArgs) (queued : Bool) (h : JobHash) :
    (requeuedHash args queued h).status = h.status ∨
      (requeuedHash args queued h).status = some JobStatus.Pending.asStr := by
  unfold requeuedHash demotedHash
  split <;> split_ifs <;> first | exact .inl rfl | exact .inr rfl

theorem sameClock_of_sameButLocks {s t : Store} (h : SameButLocks s t) : SameClock s t :=
  ⟨h.now, by rw [h.eq]⟩

-- The lock goes, whether its owner still holds it or not.
theorem releaseJobLockIfOwner_deletes {id : JobId} {name : String} {page : Nat × List String}
    {s t : Store} {answer : Except RedisError Bool}
    (hlock : s.locks id = none ∨ s.lock id = some (.owner name))
    (h : (Cmd.releaseJobLockIfOwner id name).exec .none page s = (answer, t)) :
    t = s.delLock id := by
  have ht : t = ((Scripts.releaseLockIfOwner id name).run none s).2 := (congrArg Prod.snd h).symm
  rcases hlock with hfree | howned
  · have hne : s.lock id ≠ some (.owner name) := by simp [lock, hfree]
    have hlocks : Function.update s.locks id none = s.locks := by
      rw [← hfree, Function.update_eq_self]
    rw [ht, run_releaseLockIfOwner hne]
    unfold delLock setLock
    rw [hlocks]
  · rw [ht, run_releaseLockIfOwner_owned howned]

-- A lock that its owner releases is free.
theorem releaseJobLockIfOwner_frees {id : JobId} {name : String} {page : Nat × List String}
    {s t : Store} {answer : Except RedisError Bool}
    (hlock : s.locks id = none ∨ s.lock id = some (.owner name))
    (h : (Cmd.releaseJobLockIfOwner id name).exec .none page s = (answer, t)) :
    t.locks id = none := by
  rw [releaseJobLockIfOwner_deletes hlock h]
  simp [delLock]

-- The spared job under the lock of the sweep.
structure Locked (sweeper : RRQWorker) (queue : QueueKey) (worker owner : WorkerId) (id : JobId)
    (w : World) : Prop where
  restorable : Restorable sweeper queue id w.store
  lock : w.store.lock id = some (.owner (lockOwner owner))
  alone : w.store.NamedAlone id
  tracked : id ∈ w.store.active worker
  dead : w.store.Lifeless worker
  running : (w.mem sweeper.workerId).shutdown = false

-- The spared job in its queue, before the sweep drops it from an active set.
structure Restored (sweeper : RRQWorker) (queue : QueueKey) (worker owner : WorkerId) (id : JobId)
    (w : World) : Prop where
  queued : id ∈ w.store.queues queue
  restorable : Restorable sweeper queue id w.store
  lock : w.store.locks id = none ∨ w.store.lock id = some (.owner (lockOwner owner))
  alone : w.store.NamedAlone id
  tracked : owner ≠ worker → id ∈ w.store.active worker
  dead : w.store.Lifeless worker
  running : (w.mem sweeper.workerId).shutdown = false

abbrev SparedCourse (self : RRQWorker) (queue : QueueKey) (worker owner : WorkerId) (id : JobId) :
    Outlook → Except RecoverError Verdict → World → Prop :=
  Course (Waiting self queue worker id) (fun after => after.store.Back queue worker id)
    fun verdict => owner ≠ worker ∧ (verdict = .skipped ∨ verdict = .recovered)

theorem spared_fault {c : Cmd} (hc : about c = some trial.spared) :
    (trial.oracle n (.redis c)).fault = .none := by
  cases c <;> simp_all [about, Trial.oracle, Trial.fault]

-- One command about the spared job.
theorem watch_spared {α : Type} {post : Outlook → α → World → Prop} {c : Cmd}
    {next : Except RedisError c.Answer → Proc α} (hc : about c = some trial.spared)
    (hp : (trial.watch self pid worker).passes n (.redis c) w = true)
    (hh : (trial.watch self pid worker).here (.redis c) = false)
    (h : ∀ page answer store w', c.exec .none page w.store = (answer, store) →
      w'.store = store → w'.mem = w.mem →
        (trial.watch self pid worker).Ends post (next answer) (n + 1) w') :
    (trial.watch self pid worker).Ends post (redis c >>= next) n w :=
  watch_redis hp hh fun answer store w' hexec => h _ answer store w' (spared_fault hc ▸ hexec)

theorem watch_drops {α : Type} {post : Outlook → α → World → Prop}
    {next : Except RedisError Unit → Proc α}
    (h : ∀ answer w', w'.store = w.store.zremActive worker trial.spared → w'.mem = w.mem →
      Prog.Ends (World.exec pid (.heartbeat self.workerId)) trial.oracle (post .met) (next answer)
        (n + 1) w') :
    (trial.watch self pid worker).Ends post
      (redis (.removeActiveJob worker trial.spared) >>= next) n w := by
  refine Watch.ends_meets rfl (decide_eq_true ⟨rfl, rfl⟩) ?_
  refine ends_redis fun answer store w' hexec hs hm => h answer w' ?_ hm
  obtain ⟨rfl, -⟩ := Cmd.removeActiveJob_inv hexec
  have hf : (trial.oracle n (.redis (.removeActiveJob worker trial.spared))).fault = .none :=
    spared_fault rfl
  rw [hs]
  exact if_pos hf

theorem dropSpared_course {verdict : Verdict} (hv : verdict = .skipped ∨ verdict = .recovered)
    (hr : Restored self queue worker owner trial.spared w) :
    (trial.watch self pid worker).Ends (SparedCourse self queue worker owner trial.spared)
      (dropTracking owner trial.spared trial.spared >>= fun _ => pure (.ok verdict)) n w := by
  unfold dropTracking
  rw [bind_assoc]
  by_cases howner : owner = worker
  · subst howner
    refine watch_drops fun answer w₁ hs₁ _ => ?_
    have hback : w₁.store.Back queue owner trial.spared := by
      rw [hs₁]
      exact ⟨hr.queued, by simp [zremActive]⟩
    refine ends_redis fun released s₂ w₂ hrelease hs₂ _ => ends_ret ?_
    have hby : Cmd.ByHeartbeat self.workerId
        (.releaseJobLockIfOwner trial.spared (lockOwner owner)) := isRecovery_lockOwner owner
    have hsettle := Cmd.settling_exec hby hrelease
    rw [← hs₂] at hsettle
    exact hsettle.back hback
  · have hquiet : (trial.watch self pid worker).here
        (.redis (.removeActiveJob owner trial.spared)) = false :=
      decide_eq_false fun h => howner h.1
    refine watch_spared rfl rfl hquiet fun page answer s₁ w₁ hremove hs₁ hm₁ => ?_
    obtain ⟨hremoved, -⟩ := Cmd.removeActiveJob_inv hremove
    rw [if_pos rfl] at hremoved
    subst hremoved
    refine watch_spared rfl rfl rfl fun page released s₂ w₂ hrelease hs₂ hm₂ => ?_
    rw [hs₁] at hrelease
    have hlocks := Cmd.releaseJobLockIfOwner_inv hrelease
    have hheld : (w.store.zremActive owner trial.spared).locks trial.spared = none ∨
        (w.store.zremActive owner trial.spared).lock trial.spared =
          some (.owner (lockOwner owner)) := hr.lock
    have hfree := releaseJobLockIfOwner_frees hheld hrelease
    have hclock : SameClock w.store s₂ := by
      have hafter := sameClock_of_sameButLocks hlocks
      exact ⟨hafter.now, hafter.health⟩
    have hdefinitions : SameDefinitions w.store s₂ := .of_jobs hlocks.jobs
    subst hs₂
    refine Watch.ends_ret ⟨⟨⟨hfree, ?_⟩, ?_, ?_, ?_, ?_⟩, verdict, rfl, howner, hv⟩
    · exact hr.restorable.congr (hlocks.hash trial.spared) hclock
    · exact hdefinitions.namedAlone hr.alone
    · rw [hlocks.active]
      simpa [zremActive, Ne.symm howner] using hr.tracked howner
    · exact hclock.dead hr.dead
    · rw [hm₂, hm₁, hr.running]

-- The requeue script puts the spared job back and says so.
theorem requeue_restores {args : Scripts.RequeueArgs} {page : Nat × List String}
    {answer : Except RedisError Int} {w₁ : World} (hid : args.id = trial.spared)
    (hqueue : args.queueKey = queue) (hactive : args.activeWorkerId = some owner)
    (hl : Locked self queue worker owner trial.spared w)
    (hexec : (Cmd.atomicRequeueJob args).exec .none page w.store = (answer, w₁.store))
    (hm : w₁.mem = w.mem) :
    Restored self queue worker owner trial.spared w₁ ∧
      ∃ n, answer = .ok n ∧ (n = 1 ∨ n = 2) := by
  have hpresent : (w.store.hash args.id).isSome := by
    obtain ⟨h, _, _, hh, -⟩ := hl.restorable
    simp [hid, hh]
  have hheld : w.store.lock args.id = some (.owner (lockOwner owner)) := by rw [hid, hl.lock]
  obtain ⟨hput, hanswer⟩ := Cmd.atomicRequeueJob_putBack hpresent (by simp [hheld]) hexec
  have hclock := Cmd.frame_of_exec frame_sameClock (by simp [Cmd.kinds]) hexec
  have hdefinitions := Cmd.frame_of_exec frame_sameDefinitions (by simp [Cmd.kinds]) hexec
  have hhash := hput.hash
  have hlock := hput.lock
  rw [hid] at hhash hlock
  refine ⟨⟨?_, hl.restorable.rewritten hhash (requeuedHash_definition _ _)
    (requeuedHash_status _ _) hclock, ?_, hdefinitions.namedAlone hl.alone, fun hne => ?_,
    hclock.dead hl.dead, by rw [hm, hl.running]⟩, hanswer⟩
  · have hqueues := (hput.queues queue).mpr (.inl hqueue.symm)
    rwa [hid] at hqueues
  · split_ifs at hlock
    · exact .inl hlock
    · right
      rw [lock_congr hlock, hl.lock]
  · have hother : args.activeWorkerId ≠ some worker := by
      rw [hactive]
      exact fun h => hne (Option.some.inj h)
    have htracked := (hput.active worker).mpr ⟨hother, hid ▸ hl.tracked⟩
    rwa [hid] at htracked

theorem requeueSpared_course {job : Job} (hid : job.id = trial.spared)
    (hl : Locked self queue worker owner trial.spared w) :
    (trial.watch self pid worker).Ends (SparedCourse self queue worker owner trial.spared)
      (requeueOrphan owner job queue) n w := by
  have hrequeue (args : Scripts.RequeueArgs) (ha : args.id = job.id ∧ args.queueKey = queue ∧
      args.activeWorkerId = some owner) (k : Nat) :
      (trial.watch self pid worker).Ends (SparedCourse self queue worker owner trial.spared)
        (redis (.atomicRequeueJob args) >>= fun result => afterRequeue owner job result) k w := by
    have habout : about (.atomicRequeueJob args) = some trial.spared :=
      congrArg some (ha.1.trans hid)
    refine watch_spared habout rfl rfl fun page answer s₁ w₁ hexec hs₁ hm₁ => ?_
    subst hs₁
    obtain ⟨hrestored, count, rfl, hcount⟩ :=
      requeue_restores (ha.1.trans hid) ha.2.1 ha.2.2 hl hexec hm₁
    have haction : orphanRequeuePostAction count = .CleanupAndCount := by
      rcases hcount with rfl | rfl <;> rfl
    simp only [afterRequeue, haction, hid]
    exact dropSpared_course (.inr rfl) hrestored
  unfold requeueOrphan
  cases job.nextScheduledRunTime with
  | none => exact Watch.ends_quiet rfl rfl (hrequeue _ ⟨rfl, rfl, rfl⟩ _)
  | some time => exact hrequeue _ ⟨rfl, rfl, rfl⟩ n

theorem settleSpared_course {job : Job} (hid : job.id = trial.spared) (hlive : job.status.Live)
    (hl : Locked self queue worker owner trial.spared w) :
    (trial.watch self pid worker).Ends (SparedCourse self queue worker owner trial.spared)
      (settleOrphan owner trial.spared job queue) n w := by
  refine watch_spared rfl rfl rfl fun page answer s₁ w₁ hexec hs₁ hm₁ => ?_
  rw [isJobQueued_exec] at hexec
  obtain ⟨rfl, rfl⟩ := Prod.mk.injEq .. ▸ hexec
  have hl₁ : Locked self queue worker owner trial.spared w₁ :=
    ⟨hs₁ ▸ hl.restorable, hs₁ ▸ hl.lock, hs₁ ▸ hl.alone, hs₁ ▸ hl.tracked, hs₁ ▸ hl.dead,
      hm₁ ▸ hl.running⟩
  rw [if_pos rfl]
  by_cases hqueued : trial.spared ∈ w.store.queues queue
  swap
  · rw [decide_eq_false hqueued]
    simp only [hlive, if_true]
    exact requeueSpared_course hid hl₁
  rw [decide_eq_true hqueued]
  have hqueued₁ : trial.spared ∈ w₁.store.queues queue := hs₁ ▸ hqueued
  by_cases hactive : job.status = .Active
  · simp only [hactive, if_true, hid]
    refine watch_spared rfl rfl rfl fun page answer s₂ w₂ hexec hs₂ hm₂ => ?_
    subst hs₂
    have hplaces := Cmd.frame_of_exec frame_samePlaces (by simp [Cmd.kinds]) hexec
    have hlocks := Cmd.frame_of_exec frame_sameLocks (by simp [Cmd.kinds]) hexec
    have hclock := Cmd.frame_of_exec frame_sameClock (by simp [Cmd.kinds]) hexec
    have hdefinitions := Cmd.frame_of_exec frame_sameDefinitions (by simp [Cmd.kinds]) hexec
    have hpending : w₂.store = Pipelines.markJobPending trial.spared none w₁.store :=
      (congrArg Prod.snd hexec).symm
    refine dropSpared_course (.inl rfl) ⟨?_, ?_, .inr ?_, hdefinitions.namedAlone hl₁.alone,
      fun _ => ?_, hclock.dead hl₁.dead, by rw [hm₂, hl₁.running]⟩
    · rwa [hplaces.queues]
    · have hhash : w₂.store.hash trial.spared = (w₁.store.hash trial.spared).map fun h =>
          { h with status := some JobStatus.Pending.asStr, startTime := none, workerId := none } := by
        obtain ⟨h, _, _, hh, -⟩ := hl₁.restorable
        rw [hpending]
        simp [Pipelines.markJobPending, hh]
      exact hl₁.restorable.rewritten hhash (fun _ => rfl) (fun _ => .inr rfl) hclock
    · rw [lock_congr (congrFun hlocks _), hl₁.lock]
    · rw [hplaces.active]
      exact hl₁.tracked
  · simp only [hactive, if_false, hid]
    exact dropSpared_course (.inl rfl) ⟨hqueued₁, hl₁.restorable, .inr hl₁.lock, hl₁.alone,
      fun _ => hl₁.tracked, hl₁.dead, hl₁.running⟩

-- The sweep comes to the spared job, which it can handle.

theorem canHandle_spared (hw : Waiting self queue worker trial.spared w) (n : Nat) :
    trial.canHandle self n w.store trial.spared = true := by
  obtain ⟨h, job, ms, hh, hparse, -, -, hms, hpx⟩ := hw.orphan.restorable
  have hfault (k : Nat) : trial.fault k trial.spared = .none := if_pos rfl
  have hlock : w.store.lock trial.spared = none := by simp [lock, hw.orphan.free]
  have hid : job.id = trial.spared := by
    rw [(parseJobMap_ok hparse).2.1]
    exact (hw.alone _ _ hh).mpr rfl
  simp [Trial.canHandle, Trial.canLock, hfault, hlock, hh, hparse, hms, hid, hpx]

theorem tryLock_locks {id : JobId} {ms : Int} {page : Nat × List String}
    {answer : Except RedisError Bool} {w₁ : World} (hw : Waiting self queue worker id w)
    (hpx : w.store.PxOk ms)
    (hexec : (Cmd.tryLockJob id (lockOwner owner) ms).exec .none page w.store = (answer, w₁.store))
    (hm : w₁.mem = w.mem) : answer = .ok true ∧ Locked self queue worker owner id w₁ := by
  have hset : w₁.store = w.store.setLock id
      (some { value := .owner (lockOwner owner), expireAt := some (w.store.now + ms) }) ∧
      answer = .ok true := by
    simp only [Cmd.exec, Cmd.single, setLockNx, hpx, hw.orphan.free, if_true, Cmd.reply,
      Option.isSome_none, Bool.false_eq_true, if_false, Prod.mk.injEq] at hexec
    exact ⟨hexec.2.symm, hexec.1.symm⟩
  obtain ⟨hstore, rfl⟩ := hset
  have hclock : SameClock w.store w₁.store := by
    rw [hstore]
    exact ⟨rfl, rfl⟩
  have hdefinitions : SameDefinitions w.store w₁.store := .of_jobs (by rw [hstore]; rfl)
  refine ⟨rfl, hw.orphan.restorable.congr ?_ hclock, ?_, hdefinitions.namedAlone hw.alone, ?_,
    hclock.dead hw.dead, by rw [hm, hw.running]⟩
  · rw [hstore]
    rfl
  · simp [hstore, lock]
  · rw [hstore]
    exact hw.tracked

theorem recoverSpared_course (hw : Waiting self queue worker trial.spared w) :
    (trial.watch self pid worker).Ends (SparedCourse self queue worker owner trial.spared)
      (recoverJob self owner trial.spared) n w := by
  obtain ⟨h, job, ms, hh, hparse, hlive, rfl, hms, hpx⟩ := hw.orphan.restorable
  have hid : job.id = trial.spared := by
    rw [(parseJobMap_ok hparse).2.1]
    exact (hw.alone _ _ hh).mpr rfl
  have hlock : w.store.lock trial.spared = none := by simp [lock, hw.orphan.free]
  refine watch_shutdown ?_
  rw [hw.running, if_neg Bool.false_ne_true]
  refine watch_spared rfl (canHandle_spared hw _) rfl fun page answer s₁ w₁ hexec hs₁ hm₁ => ?_
  rw [getJobLockOwner_exec, if_pos rfl, hlock] at hexec
  obtain ⟨rfl, rfl⟩ := Prod.mk.injEq .. ▸ hexec
  dsimp only
  unfold JobStore.getJobDefinition
  rw [bind_assoc]
  refine watch_spared rfl rfl rfl fun page answer s₂ w₂ hexec hs₂ hm₂ => ?_
  rw [getJobDataMap_exec, if_pos rfl, hs₁, hh] at hexec
  obtain ⟨rfl, rfl⟩ := Prod.mk.injEq .. ▸ hexec
  have hpos : ¬ ms ≤ 0 := by
    have h := hpx.2.1
    exact not_le.mpr (by exact_mod_cast h)
  simp only [hparse, pure_eq_ret, ret_bind, recoverFound, hms, hpos, if_false]
  refine watch_spared (congrArg some hid) rfl rfl fun page answer s₃ w₃ hexec hs₃ hm₃ => ?_
  subst hs₃
  have hw₂ : Waiting self _ worker trial.spared w₂ :=
    (hw.congr hs₁ hm₁).congr (hs₂.trans hs₁.symm) hm₂
  rw [hid] at hexec
  obtain ⟨rfl, hl⟩ := tryLock_locks hw₂ (by rwa [hs₂]) hexec hm₃
  exact settleSpared_course hid hlive hl

end Spared

end Recover

end Rrq
