import Rrq.Store.PutBack

-- What the atomic scripts make of a store, key by key.

namespace Rrq.Store

open Script Scripts

section Requeue

variable {args : RequeueArgs} {s : Store}

-- The keys of a store besides those that requeueing a job may write to.
def SameRest (s t : Store) : Prop :=
  t = { s with jobs := t.jobs, queues := t.queues, active := t.active, locks := t.locks }

theorem SameRest.trans {t u : Store} (hst : SameRest s t) (htu : SameRest t u) : SameRest s u := by
  unfold SameRest at *
  rw [hst] at htu
  exact htu

theorem sameRest_hset (id : JobId) (fields : JobHash → JobHash) :
    SameRest s (s.hset id fields) := by
  unfold hset
  split <;> rfl

theorem sameRest_hdel (id : JobId) (fields : JobHash → JobHash) :
    SameRest s (s.hdel id fields) := by
  unfold hdel
  split <;> rfl

theorem sameRest_demoted : SameRest s (demoted args s) := by
  unfold demoted
  split_ifs
  · exact (sameRest_hset _ _).trans (sameRest_hdel _ _)
  · rfl
  · exact sameRest_hset _ _

theorem sameRest_untracked : SameRest s (untracked args s) := by
  unfold untracked
  split <;> rfl

theorem sameRest_scheduled : SameRest s (scheduled args s) := by
  unfold scheduled
  split
  · exact sameRest_hset _ _
  · rfl

theorem sameRest_unlocked : SameRest s (unlocked args s) := by
  unfold unlocked
  split_ifs <;> rfl

theorem sameRest_requeued : SameRest s (requeued args s) := by
  unfold requeued
  split_ifs
  · exact (sameRest_demoted.trans sameRest_untracked).trans sameRest_unlocked
  · have hzadd : SameRest (demoted args s) ((demoted args s).zadd args.queueKey args.id args.score) :=
      rfl
    exact (((sameRest_demoted.trans hzadd).trans sameRest_untracked).trans
      sameRest_scheduled).trans sameRest_unlocked

theorem untracked_active : (untracked args s).active =
    match args.activeWorkerId with
    | some worker => Function.update s.active worker ((s.active worker).erase args.id)
    | none => s.active := by
  unfold untracked
  cases args.activeWorkerId with
  | none => rfl
  | some worker => funext other; simp [zremActive]

theorem requeued_active : (requeued args s).active =
    match args.activeWorkerId with
    | some worker => Function.update s.active worker ((s.active worker).erase args.id)
    | none => s.active := by
  unfold requeued
  split_ifs
  · rw [unlocked_active, untracked_active, samePlaces_demoted.active]
  · rw [unlocked_active, samePlaces_scheduled.active, untracked_active]
    have hzadd : ((demoted args s).zadd args.queueKey args.id args.score).active = s.active :=
      samePlaces_demoted.active
    rw [hzadd]

theorem requeued_queues : (requeued args s).queues =
    if args.id ∈ s.queues args.queueKey then s.queues
    else Function.update s.queues args.queueKey
      ((s.queues args.queueKey).insert args.id args.score) := by
  unfold requeued
  split_ifs
  · rw [unlocked_queues, untracked_queues, samePlaces_demoted.queues]
  · rw [unlocked_queues, samePlaces_scheduled.queues, untracked_queues]
    have hzadd : ((demoted args s).zadd args.queueKey args.id args.score).queues =
        Function.update (demoted args s).queues args.queueKey
          (((demoted args s).queues args.queueKey).insert args.id args.score) := rfl
    rw [hzadd, samePlaces_demoted.queues]

theorem sameJob_requeued {other : JobId} (ho : other ≠ args.id) (hp : (s.hash args.id).isSome)
    (hlock : s.lock args.id ≠ some .malformed) : SameJob other s (requeued args s) := by
  have hkeeps : Keeps (SameJob other s) (requeueJob args) :=
    (frame_sameJob other).keeps_requeueJob ho s trivial trivial trivial trivial rfl
  have hrun := hkeeps.run none (.refl other s)
  rwa [run_requeueJob_present hp hlock] at hrun

-- What a store is after the script returned a number other than 0.
structure Requeuing (args : RequeueArgs) (n : Int) (s t : Store) : Prop where
  result : n = if args.id ∈ s.queues args.queueKey then 2 else 1
  queued : args.id ∈ t.queues args.queueKey
  score : (t.queues args.queueKey).score? args.id =
    if n = 1 then some args.score else (s.queues args.queueKey).score? args.id
  status : t.status args.id ≠ some JobStatus.Active.asStr
  transients : s.status args.id = some JobStatus.Active.asStr →
    ∃ h, t.hash args.id = some h ∧ h.startTime = none ∧ h.workerId = none
  untracked : ∀ worker, args.activeWorkerId = some worker → args.id ∉ t.active worker
  unlocked : args.releasingOwner ≠ "" → t.lock args.id ≠ some (.owner args.releasingOwner)
  lock : s.lock args.id ≠ some (.owner args.releasingOwner) → t.locks args.id = s.locks args.id
  noOwner : args.releasingOwner = "" → t.locks args.id = s.locks args.id
  jobs : ∀ other, other ≠ args.id → t.jobs other = s.jobs other
  locks : ∀ other, other ≠ args.id → t.locks other = s.locks other
  queues : ∀ queue, queue ≠ args.queueKey → t.queues queue = s.queues queue
  members : ∀ other, other ≠ args.id →
    (t.queues args.queueKey).score? other = (s.queues args.queueKey).score? other
  active : ∀ worker, args.activeWorkerId ≠ some worker → t.active worker = s.active worker
  tracked : ∀ worker other, other ≠ args.id →
    (t.active worker).score? other = (s.active worker).score? other
  rest : t = { s with jobs := t.jobs, queues := t.queues, active := t.active, locks := t.locks }

-- A demotion leaves no trace of the execution, and no other status is the active one.
theorem demotedHash_inactive (args : RequeueArgs) (h : JobHash) :
    (demotedHash args h).status ≠ some JobStatus.Active.asStr ∧
      (h.status = some JobStatus.Active.asStr →
        (demotedHash args h).startTime = none ∧ (demotedHash args h).workerId = none) := by
  have hpending : some JobStatus.Pending.asStr ≠ some JobStatus.Active.asStr := by decide
  unfold demotedHash
  by_cases hactive : h.status = some JobStatus.Active.asStr
  · rw [if_pos hactive]
    exact ⟨hpending, fun _ => ⟨rfl, rfl⟩⟩
  · rw [if_neg hactive]
    split_ifs
    · exact ⟨hactive, fun h => absurd h hactive⟩
    · exact ⟨hactive, fun h => absurd h hactive⟩

theorem requeuedHash_inactive (args : RequeueArgs) (queued : Bool) (h : JobHash) :
    (requeuedHash args queued h).status ≠ some JobStatus.Active.asStr ∧
      (h.status = some JobStatus.Active.asStr →
        (requeuedHash args queued h).startTime = none ∧
          (requeuedHash args queued h).workerId = none) := by
  have hdemoted := demotedHash_inactive args h
  unfold requeuedHash
  split
  · split_ifs
    · exact hdemoted
    · exact hdemoted
  · exact hdemoted

theorem requeuing_requeued (hp : (s.hash args.id).isSome)
    (hlock : s.lock args.id ≠ some .malformed) :
    Requeuing args (if args.id ∈ s.queues args.queueKey then 2 else 1) s (requeued args s) := by
  have hput := putBack_requeued hp
  obtain ⟨before, hbefore⟩ := Option.isSome_iff_exists.mp hp
  have hhash : (requeued args s).hash args.id =
      some (requeuedHash args (decide (args.id ∈ s.queues args.queueKey)) before) := by
    rw [hput.hash, hbefore]
    rfl
  have hinactive := requeuedHash_inactive args (decide (args.id ∈ s.queues args.queueKey)) before
  refine
    { result := rfl
      queued := (hput.queues _).mpr (.inl rfl)
      score := ?_
      status := ?_
      transients := ?_
      untracked := fun worker hw hmem => ((hput.active worker).mp hmem).1 hw
      unlocked := ?_
      lock := ?_
      noOwner := ?_
      jobs := fun other ho => (sameJob_requeued ho hp hlock).cell
      locks := fun other ho => (sameJob_requeued ho hp hlock).lock
      queues := ?_
      members := ?_
      active := ?_
      tracked := ?_
      rest := sameRest_requeued }
  · rw [requeued_queues]
    split_ifs <;> simp_all
  · unfold Store.status
    rw [hhash]
    exact hinactive.1
  · intro hactive
    refine ⟨_, hhash, hinactive.2 ?_⟩
    simpa [Store.status, hbefore] using hactive
  · intro howner hheld
    have hcell := hput.lock
    split_ifs at hcell with hown
    · simp [Store.lock, hcell] at hheld
    · exact hown ⟨howner, (lock_congr hcell).symm.trans hheld⟩
  · intro hother
    have hcell := hput.lock
    rwa [if_neg fun hown => hother hown.2] at hcell
  · intro howner
    have hcell := hput.lock
    rwa [if_neg fun hown => hown.1 howner] at hcell
  · intro queue hqueue
    rw [requeued_queues]
    split_ifs
    · rfl
    · exact Function.update_of_ne hqueue _ _
  · intro other ho
    rw [requeued_queues]
    split_ifs
    · rfl
    · rw [Function.update_self, SortedSet.score?_insert_of_ne ho]
  · intro worker hw
    rw [requeued_active]
    cases howner : args.activeWorkerId with
    | none => rfl
    | some owner =>
        have hne : worker ≠ owner := fun he => hw (he ▸ howner)
        exact Function.update_of_ne hne _ _
  · intro worker other ho
    rw [requeued_active]
    cases args.activeWorkerId with
    | none => rfl
    | some owner =>
        dsimp only
        by_cases hw : worker = owner
        · subst hw
          rw [Function.update_self, SortedSet.score?_erase_of_ne ho]
        · rw [Function.update_of_ne hw]

theorem run_requeueJob_missing (hmissing : s.hash args.id = none) :
    (requeueJob args).run none s = (some 0, s) := by
  have hjob : (s.jobs args.id).isSome = false := by simpa [Store.hash] using hmissing
  rw [run_requeueJob, requeueJobBody_eq, run_ask_bind, hjob]
  rfl

end Requeue

end Rrq.Store

namespace Rrq.Cmd

open Store

-- The script answers 0 exactly for a job without a hash, and otherwise the job is queued, idle
-- and untracked, and nothing else has changed. The lock goes if the releasing owner has a name
-- and holds it, and else it stays.
theorem atomicRequeueJob_spec (args : Scripts.RequeueArgs) (page : Nat × List String) (s : Store)
    (hlock : s.lock args.id ≠ some .malformed) :
    ∃ n t, (atomicRequeueJob args).exec .none page s = (.ok n, t) ∧
      (n = 0 ↔ s.hash args.id = none) ∧ (n = 0 → t = s) ∧
      (n ≠ 0 → (n = 1 ∨ n = 2) ∧ Requeuing args n s t) := by
  cases hhash : s.hash args.id with
  | none =>
      refine ⟨0, s, ?_, by simp, fun _ => rfl, fun h => absurd rfl h⟩
      simp only [exec, script, run_requeueJob_missing hhash]
      rfl
  | some before =>
      have hp : (s.hash args.id).isSome := by rw [hhash]; rfl
      refine ⟨if args.id ∈ s.queues args.queueKey then 2 else 1, requeued args s, ?_, ?_, ?_, ?_⟩
      · simp only [exec, script, run_requeueJob_present hp hlock]
        rfl
      · split_ifs <;> simp
      · split_ifs <;> simp
      · intro _
        refine ⟨?_, requeuing_requeued hp hlock⟩
        split_ifs
        · exact .inr rfl
        · exact .inl rfl

-- A job whose lock is held, and a requeue of it.

def lockedStore (owner : String) : Store :=
  (Store.empty.hset "j" fun h => { h with status := some JobStatus.Active.asStr }).setLock "j"
    (some { value := .owner owner })

def requeueArgs (releasingOwner : String) : Scripts.RequeueArgs where
  id := "j"
  queueKey := "rrq:queue:default"
  activeWorkerId := none
  score := 0
  requeueMessage := ""
  releasingOwner
  nextScheduled := none

theorem atomicRequeueJob_spec_locked :
    ∃ n t, (atomicRequeueJob (requeueArgs "w")).exec .none (0, []) (lockedStore "w") = (.ok n, t) ∧
      n = 1 ∧ t.lock "j" = none := by
  have hfree : ∀ n t, (atomicRequeueJob (requeueArgs "w")).exec .none (0, []) (lockedStore "w") =
      (.ok n, t) → n = 1 → t.lock "j" = none := by
    rintro n t h -
    obtain rfl : ((atomicRequeueJob (requeueArgs "w")).exec .none (0, []) (lockedStore "w")).2 = t :=
      congrArg Prod.snd h
    decide
  obtain ⟨n, t, hexec, hzero, -, hrest⟩ := atomicRequeueJob_spec (requeueArgs "w") (0, [])
    (lockedStore "w") (by decide)
  have hn : n ≠ 0 := fun h => absurd (hzero.mp h) (by decide)
  have hone : n = 1 := (hrest hn).2.result
  exact ⟨n, t, hexec, hone, hfree n t hexec hone⟩

-- An owner without a name does not lose its lock.
theorem atomicRequeueJob_keeps_nameless :
    ¬ ∀ (args : Scripts.RequeueArgs) (page : Nat × List String) (s : Store),
      s.lock args.id ≠ some .malformed → (s.hash args.id).isSome → ∀ n t,
        (atomicRequeueJob args).exec .none page s = (.ok n, t) →
          t.lock args.id ≠ some (.owner args.releasingOwner) := by
  intro h
  have hlost := h (requeueArgs "") (0, []) (lockedStore "") (by decide) (by decide) 1 _ rfl
  exact hlost (by decide)

end Rrq.Cmd

namespace Rrq.JobStore

def incrementJobRetries (id : JobId) (s : Store) : Except RedisError Int × Store :=
  match s.hincrby id with
  | some (count, s) => (.ok count, s)
  | none => (.error .failed, s)

-- The three commands that the script stands for, one after another.
def moveToDlqInSteps (id : JobId) (dlqKey errorMessage : String) (completionTime : DateTime)
    (uniqueKey : Option String) (page : Nat × List String) (s : Store) :
    Except RedisError Int × Store :=
  match incrementJobRetries id s with
  | (.error error, s) => (.error error, s)
  | (.ok count, s) =>
      match (Cmd.moveJobToDlq id dlqKey errorMessage completionTime).exec .none page s with
      | (.error error, s) => (.error error, s)
      | (.ok (), s) =>
          match uniqueKey with
          | none => (.ok count, s)
          | some key =>
              match (Cmd.releaseUniqueJobLock key).exec .none page s with
              | (.error error, s) => (.error error, s)
              | (.ok (), s) => (.ok count, s)

end Rrq.JobStore

namespace Rrq.Cmd

open Store Script

variable {id : JobId} {dlqKey errorMessage : String} {completionTime : DateTime}

theorem run_expireDlq (s : Store) :
    (Scripts.expireDlq id DEFAULT_DLQ_RESULT_TTL_SECONDS).run none s =
      (some (), (s.expireJob id DEFAULT_DLQ_RESULT_TTL_SECONDS).expireEvents id
        DEFAULT_DLQ_RESULT_TTL_SECONDS) := by
  unfold Scripts.expireDlq
  rw [if_pos (by decide)]
  rfl

theorem steady_expireDlq (dlqTtl : Int) : Steady (Scripts.expireDlq id dlqTtl) :=
  .ite (.bind (.call _) fun _ => .call _) (.pure _)

theorem run_moveToDlq {s t : Store} {count : Int} (h : s.hincrby id = some (count, t))
    (uniqueKey : Option String) :
    (Scripts.moveToDlq id dlqKey errorMessage completionTime DEFAULT_DLQ_RESULT_TTL_SECONDS
        uniqueKey).run none s =
      (some count, match uniqueKey with
        | none => Pipelines.moveJobToDlq id dlqKey errorMessage completionTime t
        | some key =>
            (Pipelines.moveJobToDlq id dlqKey errorMessage completionTime t).setUniqueLock key
              none) := by
  have hbody : (Scripts.moveToDlqBody id dlqKey errorMessage completionTime
      DEFAULT_DLQ_RESULT_TTL_SECONDS uniqueKey).run none s =
      (some count, match uniqueKey with
        | none => Pipelines.moveJobToDlq id dlqKey errorMessage completionTime t
        | some key =>
            (Pipelines.moveJobToDlq id dlqKey errorMessage completionTime t).setUniqueLock key
              none) := by
    unfold Scripts.moveToDlqBody
    rw [run_call_bind, h]
    dsimp only
    rw [run_write_bind, run_write_bind, run_write_bind, run_bind (steady_expireDlq _),
      run_expireDlq]
    cases uniqueKey with
    | none => rfl
    | some key => rfl
  unfold Scripts.moveToDlq
  rw [run_pcall_bind, hbody]
  rfl

-- The script and the three commands leave the same store behind, and answer with the counter.
theorem atomicMoveJobToDlq_in_steps (dlqName : String) (uniqueKey : Option String)
    (page : Nat × List String) {s : Store} {count : Int} (h : s.nextRetries id = some count) :
    (atomicMoveJobToDlq id (withPrefix DLQ_KEY_PREFIX dlqName) errorMessage completionTime
        DEFAULT_DLQ_RESULT_TTL_SECONDS uniqueKey).exec .none page s =
      JobStore.moveToDlqInSteps id (withPrefix DLQ_KEY_PREFIX dlqName) errorMessage completionTime
        uniqueKey page s ∧
    ((atomicMoveJobToDlq id (withPrefix DLQ_KEY_PREFIX dlqName) errorMessage completionTime
        DEFAULT_DLQ_RESULT_TTL_SECONDS uniqueKey).exec .none page s).1 = .ok count := by
  obtain ⟨after, hafter⟩ : ∃ after, s.hincrby id = some (count, after) := by
    unfold hincrby
    rw [h]
    exact ⟨_, rfl⟩
  have hrun := @run_moveToDlq id (withPrefix DLQ_KEY_PREFIX dlqName) errorMessage completionTime
    s after count hafter uniqueKey
  unfold JobStore.moveToDlqInSteps JobStore.incrementJobRetries
  simp only [exec, script, hrun, hafter, single, reply]
  constructor
  · cases uniqueKey with
    | none => rfl
    | some key => rfl
  · rfl

-- A job that has failed twice and holds a unique lock.
def failingStore : Store :=
  (Store.empty.hset "j" fun h =>
    { h with
      status := some JobStatus.Active.asStr
      currentRetries := some (.int 2)
      jobUniqueKey := some "k" }).setUniqueLock "k" (some { value := "j", expireAt := some 60000 })

theorem atomicMoveJobToDlq_in_steps_failing :
    ∃ s, (atomicMoveJobToDlq "j" (withPrefix DLQ_KEY_PREFIX "default") "boom" ⟨0⟩
        DEFAULT_DLQ_RESULT_TTL_SECONDS (some "k")).exec .none (0, []) failingStore = (.ok 3, s) ∧
      JobStore.moveToDlqInSteps "j" (withPrefix DLQ_KEY_PREFIX "default") "boom" ⟨0⟩ (some "k")
        (0, []) failingStore = (.ok 3, s) ∧
      (s.hash "j").bind JobHash.status = some JobStatus.Failed.asStr ∧
      s.dlq (withPrefix DLQ_KEY_PREFIX "default") = ["j"] ∧ s.uniqueLocks "k" = none := by
  have hretries : failingStore.nextRetries "j" = some 3 := by decide
  obtain ⟨hsteps, hcount⟩ := @atomicMoveJobToDlq_in_steps "j" "boom" ⟨0⟩ "default" (some "k")
    (0, []) failingStore 3 hretries
  refine ⟨_, Prod.ext hcount rfl, ?_, by decide +kernel, by decide +kernel, by decide +kernel⟩
  rw [← hsteps]
  exact Prod.ext hcount rfl

end Rrq.Cmd
