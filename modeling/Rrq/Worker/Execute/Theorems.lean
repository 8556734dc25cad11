import Rrq.Store.Outcome
import Rrq.Worker.Execute
import Rrq.Worker.Drain.Theorems

-- What is left of a job when its outcome could not be recorded.

namespace Rrq.RRQWorker

open Store Prog

-- What befalls the commands that end an execution: the one that records the outcome, the one
-- that may follow it, and the two of the cleanup.
structure FinishFaults where
  record : Fault := .none
  follow : Fault := .none
  removeActive : Fault := .none
  releaseLock : Fault := .none

def finishFault (faults : FinishFaults) : Op → Fault
  | .redis (.saveJobResult _ _ _ _) => faults.record
  | .redis (.atomicRetryJob _ _ _ _ _) => faults.record
  | .redis (.atomicMoveJobToDlq _ _ _ _ _ _) => faults.record
  | .redis (.releaseUniqueJobLock _) => faults.follow
  | .redis (.updateJobNextScheduledRunTime _ _) => faults.follow
  | .redis (.removeActiveJob _ _) => faults.removeActive
  | .redis (.releaseJobLockIfOwner _ _) => faults.releaseLock
  | _ => .none

def finishOracle (chances : Nat → Chance) (result : RunnerExecutionResult)
    (faults : FinishFaults) (n : Nat) (op : Op) : Chance :=
  { chances n with fault := finishFault faults op, result }

-- How the outcome of an execution is recorded.
inductive Route where
  | save
  | retry
  | dlq
deriving DecidableEq

def failureRoute (job : Job) : Route :=
  if job.maxRetries ≤ job.currentRetries + 1 then .dlq else .retry

def outcomeRoute (job : Job) : RunnerExecutionResult → Route
  | .TimedOut => .dlq
  | .Completed (.error _) => failureRoute job
  | .Completed (.ok outcome) =>
      match outcome.status with
      | .Success => .save
      | .Retry => failureRoute job
      | .Timeout => .dlq
      | .Error =>
          if outcome.error.bind ExecutionError.errorType = some "handler_not_found" then .dlq
          else failureRoute job

-- The job is in a terminal status with what belongs to it, or in a queue.
def Final (s : Store) (id : JobId) : Prop :=
  s.status id = some JobStatus.Completed.asStr ∧ (s.result id).isSome ∨
    s.status id = some JobStatus.Failed.asStr ∧ s.InDlq id ∨ s.Queued id

-- Or its entry in the active set of the worker is left for a recovery to find.
def Kept (worker : WorkerId) (s : Store) (id : JobId) : Prop :=
  Final s id ∨ id ∈ s.active worker

-- The command that records the outcome takes effect, as far as it has to.
def Recorded (s : Store) (id : JobId) (fault : Fault) : Route → Prop
  | .save => fault = .none
  | .retry => (s.nextRetries id).isSome ∧ fault.Reaches 3
  | .dlq => (s.nextRetries id).isSome ∧ (fault.Reaches 4 ∨ fault.Reaches 2 ∧ s.InDlq id)

-- The state in which a claim leaves a job, but for its lock.
structure Claimed (worker : WorkerId) (s : Store) (id : JobId) : Prop where
  status : s.status id = some JobStatus.Active.asStr
  notQueued : ¬ s.Queued id
  active : id ∈ s.active worker

section Finish

variable {worker : WorkerId} {id : JobId} {s t u : Store} {fault : Fault}
  {page : Nat × List String}

theorem final_congr (h : SameStatus id s t) : Final t id ↔ Final s id := by
  simp only [Final, h.status, h.result, inDlq_congr h.dlq, h.places.queued]

-- What the recording leaves: the active sets, and a final state exactly if it took effect.
structure Attempted (id : JobId) (done : Prop) (s t : Store) : Prop where
  active : t.active = s.active
  final : Final t id ↔ done

theorem Attempted.trans {done : Prop} (h : Attempted id done s t) (hs : SameStatus id t u) :
    Attempted id done s u :=
  ⟨hs.places.active.trans h.active, (final_congr hs).trans h.final⟩

theorem not_final (hc : Claimed worker s id) : ¬ Final s id := by
  rintro (⟨h, -⟩ | ⟨h, -⟩ | h)
  · exact absurd (hc.status.symm.trans h) (by decide)
  · exact absurd (hc.status.symm.trans h) (by decide)
  · exact hc.notQueued h

theorem Attempted.of_eq {done : Prop} (hc : Claimed worker s id) (hd : ¬ done) :
    Attempted id done s s := ⟨rfl, iff_of_false (not_final hc) hd⟩

theorem attempted_of_retried {done : Prop} (hc : Claimed worker s id) (h : Retried id done s t) :
    Attempted id done s t := by
  refine ⟨h.active, ?_⟩
  have hq : t.Queued id ↔ done := by
    rw [h.queued]
    exact or_iff_right hc.notQueued
  rw [← hq]
  refine ⟨?_, fun hq => .inr (.inr hq)⟩
  rintro (⟨hs, -⟩ | ⟨hs, -⟩ | hq)
  · rcases h.status with hsame | hretry
    · exact absurd (hc.status.symm.trans (hsame.symm.trans hs)) (by decide)
    · exact absurd (hretry.symm.trans hs) (by decide)
  · rcases h.status with hsame | hretry
    · exact absurd (hc.status.symm.trans (hsame.symm.trans hs)) (by decide)
    · exact absurd (hretry.symm.trans hs) (by decide)
  · exact hq

theorem attempted_of_dead {done : Nat → Prop} (hmono : done 4 → done 2)
    (hc : Claimed worker s id) (h : Dead id done s t) :
    Attempted id (done 4 ∨ done 2 ∧ s.InDlq id) s t := by
  refine ⟨h.active, ?_⟩
  have hnq : ¬ t.Queued id := by
    simpa only [Store.Queued, h.queues] using hc.notQueued
  by_cases hd : done 2
  · have hs := h.failed hd
    constructor
    · rintro (⟨hs', -⟩ | ⟨-, he⟩ | hq)
      · exact absurd (hs.symm.trans hs') (by decide)
      · rcases h.entry.mp he with he | he
        · exact .inr ⟨hd, he⟩
        · exact .inl he
      · exact absurd hq hnq
    · rintro (he | ⟨-, he⟩)
      · exact .inr (.inl ⟨hs, h.entry.mpr (.inr he)⟩)
      · exact .inr (.inl ⟨hs, h.entry.mpr (.inl he)⟩)
  · have hs := (h.untouched hd).trans hc.status
    refine iff_of_false ?_ ?_
    · rintro (⟨hs', -⟩ | ⟨hs', -⟩ | hq)
      · exact absurd (hs.symm.trans hs') (by decide)
      · exact absurd (hs.symm.trans hs') (by decide)
      · exact hnq hq
    · rintro (h4 | ⟨h2, -⟩)
      · exact hd (hmono h4)
      · exact hd h2

theorem atomicRetryJob_inv {queueKey : QueueKey} {score : ℚ} {message : String}
    {answer : Except RedisError Int} (hc : Claimed worker s id)
    (h : (Cmd.atomicRetryJob id queueKey score message .Retrying).exec fault page s =
      (answer, t)) : Attempted id (Recorded s id fault .retry) s t := by
  have ht := congrArg Prod.snd h
  dsimp only at ht
  subst ht
  cases fault with
  | refused => exact .of_eq hc fun hd => hd.2
  | none => exact attempted_of_retried hc (retried_retry id queueKey score message none s)
  | stops calls =>
      exact attempted_of_retried hc (retried_retry id queueKey score message (some calls) s)

theorem atomicMoveJobToDlq_inv {dlqKey message : String} {time : DateTime} {dlqTtl : Int}
    {unique : Option String} {answer : Except RedisError Int} (hc : Claimed worker s id)
    (h : (Cmd.atomicMoveJobToDlq id dlqKey message time dlqTtl unique).exec fault page s =
      (answer, t)) : Attempted id (Recorded s id fault .dlq) s t := by
  have ht := congrArg Prod.snd h
  dsimp only at ht
  subst ht
  have hdead : ∀ budget : Budget, _ := fun budget =>
    dead_moveToDlq id dlqKey message time dlqTtl unique budget s
  have hshape : Recorded s id fault .dlq ↔ ((s.nextRetries id).isSome ∧ fault.Reaches 4) ∨
      ((s.nextRetries id).isSome ∧ fault.Reaches 2) ∧ s.InDlq id := by
    unfold Recorded
    tauto
  rw [show Recorded s id fault .dlq = _ from propext hshape]
  cases fault with
  | refused => exact .of_eq hc (by rintro (h | h); exacts [h.2, h.1.2])
  | none => exact attempted_of_dead (fun h => ⟨h.1, trivial⟩) hc (hdead none)
  | stops calls =>
      refine attempted_of_dead (fun h => ⟨h.1, ?_⟩) hc (hdead (some calls))
      exact Nat.le_trans (by decide) h.2

theorem saveJobResult_inv {value : Json} {ttl : Int} {time : DateTime}
    {answer : Except RedisError Unit} (hc : Claimed worker s id)
    (h : (Cmd.saveJobResult id value ttl time).exec fault page s = (answer, t)) :
    Attempted id (Recorded s id fault .save) s t := by
  have hsave := completed_saveJobResult id value ttl time s
  have ht := congrArg Prod.snd h
  dsimp only at ht
  subst ht
  have hrefused : ∀ fault', fault' ≠ .none → fault = fault' →
      Attempted id (Recorded s id fault' .save) s s := fun _ hne _ => .of_eq hc hne
  cases fault with
  | refused => exact hrefused _ nofun rfl
  | stops calls => exact hrefused _ nofun rfl
  | none =>
      have hstore : ((Cmd.saveJobResult id value ttl time).exec .none page s).2 =
          (Pipelines.saveJobResult id value ttl time s).2 := by
        simp only [Cmd.exec, Cmd.single, Cmd.reply]
        split <;> rename_i heq <;> rw [heq]
      rw [hstore]
      exact ⟨hsave.active, iff_of_true (.inl ⟨hsave.status, hsave.result⟩) rfl⟩

-- The commands that may follow the recording of an outcome.

theorem releaseUniqueJobLock_inv {key : String} {answer : Except RedisError Unit}
    (h : (Cmd.releaseUniqueJobLock key).exec fault page s = (answer, t)) (id : JobId) :
    SameStatus id s t := by
  simp only [Cmd.exec, Cmd.single, Cmd.reply] at h
  cases fault <;> obtain ⟨-, rfl⟩ := Prod.mk.injEq .. ▸ h
  · exact sameStatus_setUniqueLock s id key none
  · exact .refl id s
  · exact .refl id s

theorem updateJobNextScheduledRunTime_inv {time : DateTime} {answer : Except RedisError Unit}
    (h : (Cmd.updateJobNextScheduledRunTime id time).exec fault page s = (answer, t)) :
    SameStatus id s t := by
  simp only [Cmd.exec, Cmd.single, Cmd.reply] at h
  cases fault <;> obtain ⟨-, rfl⟩ := Prod.mk.injEq .. ▸ h
  · exact sameStatus_hset s id _ (by intro; rfl) (by intro; rfl)
  · exact .refl id s
  · exact .refl id s

end Finish

section Record

variable {self : RRQWorker} {pid : Pid} {role : Role} {chances : Nat → Chance}
  {result : RunnerExecutionResult} {faults : FinishFaults} {n : Nat} {w : World} {job : Job}

abbrev FinishEnds {α : Type} (pid : Pid) (role : Role) (chances : Nat → Chance)
    (result : RunnerExecutionResult) (faults : FinishFaults) (post : α → World → Prop)
    (prog : Proc α) (n : Nat) (w : World) : Prop :=
  Ends (World.exec pid role) (finishOracle chances result faults) post prog n w

-- A recording ran to its end by one of the routes.
def RecordPost (faults : FinishFaults) (job : Job) (route : Route) (before : World)
    (answer : Outcome) (after : World) : Prop :=
  answer ≠ .error .panicked ∧
    Attempted job.id (Recorded before.store job.id faults.record route) before.store after.store

theorem moveToDlq_ends {settings : RRQSettings} (message : String)
    (hc : Claimed self.workerId w.store job.id) :
    FinishEnds pid role chances result faults (RecordPost faults job .dlq w)
      (moveToDlq settings job message) n w := by
  refine ends_utcNow fun now => ends_redis fun answer store w₁ hexec hs _ => ?_
  have hattempt := atomicMoveJobToDlq_inv hc hexec
  rw [← hs] at hattempt
  cases answer with
  | error error => exact ends_ret ⟨nofun, hattempt⟩
  | ok count =>
      dsimp only
      split
      · exact ends_ret ⟨nofun, hattempt⟩
      · exact ends_ret ⟨nofun, hattempt⟩

theorem scheduleRetry_ends {settings : RRQSettings} (message : String) (delay : ℚ)
    (hc : Claimed self.workerId w.store job.id) :
    FinishEnds pid role chances result faults (RecordPost faults job .retry w)
      (scheduleRetry settings job message delay) n w := by
  refine ends_utcNow fun now => ends_redis fun answer store w₁ hexec hs _ => ?_
  have hattempt := atomicRetryJob_inv hc hexec
  rw [← hs] at hattempt
  cases answer with
  | error error => exact ends_ret ⟨nofun, hattempt⟩
  | ok count =>
      have hnote : ∀ (time : DateTime) (k : Nat), FinishEnds pid role chances result faults
          (RecordPost faults job .retry w)
          (redis (.updateJobNextScheduledRunTime job.id time) >>= fun _ => pure (.ok ())) k w₁ :=
        fun time k => ends_redis fun _ _ w₂ hnext hs₂ _ => ends_ret ⟨nofun,
          hattempt.trans (hs₂ ▸ updateJobNextScheduledRunTime_inv hnext)⟩
      dsimp only
      split
      · exact hnote _ _
      · exact ends_utcNow fun now => hnote _ _

-- The attempt that is counted fits into 64 bits.
def Countable (job : Job) : Prop := checkedAdd job.currentRetries 1 = some (job.currentRetries + 1)

theorem countable_of_some {attempt : Int} (h : checkedAdd job.currentRetries 1 = some attempt) :
    Countable job := by
  unfold Countable
  unfold checkedAdd checkedI64 at h ⊢
  split at h
  · rename_i hin
    rw [if_pos hin]
  · cases h

theorem retryOrMove_ends {settings : RRQSettings} (message : String) (delay : Int → ℚ)
    (hc : Claimed self.workerId w.store job.id) (hcount : Countable job) :
    FinishEnds pid role chances result faults (RecordPost faults job (failureRoute job) w)
      (retryOrMove settings job message delay) n w := by
  unfold retryOrMove failureRoute
  rw [hcount]
  dsimp only
  split
  · exact moveToDlq_ends message hc
  · exact scheduleRetry_ends message _ hc

theorem handleSuccess_ends {settings : RRQSettings} (value : Json)
    (hc : Claimed self.workerId w.store job.id) :
    FinishEnds pid role chances result faults (RecordPost faults job .save w)
      (handleSuccess settings job value) n w := by
  refine ends_utcNow fun now => ends_redis fun answer store w₁ hexec hs _ => ?_
  have hattempt := saveJobResult_inv hc hexec
  rw [← hs] at hattempt
  cases answer with
  | error error => exact ends_ret ⟨nofun, hattempt⟩
  | ok _ =>
      dsimp only
      split
      · exact ends_ret ⟨nofun, hattempt⟩
      · refine ends_redis fun released store₂ w₂ hrelease hs₂ _ => ?_
        have hafter := hattempt.trans (hs₂ ▸ releaseUniqueJobLock_inv hrelease job.id)
        cases released with
        | error error => exact ends_ret ⟨nofun, hafter⟩
        | ok _ => exact ends_ret ⟨nofun, hafter⟩

-- Every outcome is recorded by its route.
theorem handleExecutionResult_ends {settings : RRQSettings} (jobTimeout : Int)
    (hc : Claimed self.workerId w.store job.id) (hcount : Countable job) :
    FinishEnds pid role chances result faults (RecordPost faults job (outcomeRoute job result) w)
      (handleExecutionResult settings job jobTimeout result) n w := by
  match result with
  | .TimedOut => exact moveToDlq_ends _ hc
  | .Completed (.error error) => exact retryOrMove_ends _ _ hc hcount
  | .Completed (.ok outcome) =>
      unfold handleExecutionResult handleExecutionOutcome outcomeRoute
      cases hstatus : outcome.status with
      | Success =>
          simp only [hstatus]
          exact handleSuccess_ends _ hc
      | Retry =>
          simp only [hstatus]
          exact retryOrMove_ends _ _ hc hcount
      | Timeout =>
          simp only [hstatus]
          exact moveToDlq_ends _ hc
      | Error =>
          simp only [hstatus]
          split
          · exact moveToDlq_ends _ hc
          · exact retryOrMove_ends _ _ hc hcount

theorem cleanupRunning_ends {post : Outcome → World → Prop}
    (h : ∀ answer after, CleanedUp self.workerId job.id faults.removeActive w.store after.store →
      post answer after) :
    FinishEnds pid role chances result faults post (cleanupRunning self job.id) n w := by
  refine ends_redis fun removed t w₁ hremove hs₁ _ => ?_
  refine ends_redis fun released u w₂ hrelease hs₂ _ => ?_
  rw [hs₁] at hrelease
  have hclean := cleanedUp hremove hrelease
  rw [← hs₂] at hclean
  refine ends_call (ends_call ?_)
  cases removed with
  | error error => exact ends_ret (h _ _ hclean)
  | ok _ =>
      cases released with
      | error error => exact ends_ret (h _ _ hclean)
      | ok _ => exact ends_ret (h _ _ hclean)

-- The cleanup takes the entry out of the active set, unless that fails.
theorem kept_cleanedUp {done : Prop} {s t u : Store} {fault : Fault}
    (hc : Claimed self.workerId s job.id) (ha : Attempted job.id done s t)
    (hclean : CleanedUp self.workerId job.id fault t u) :
    Kept self.workerId u job.id ↔ done ∨ fault ≠ .none := by
  have hfinal : Final u job.id ↔ Final t job.id := by
    simp only [Final, Store.status, Store.result, hclean.hash, inDlq_congr hclean.dlq,
      Store.Queued, hclean.queues]
  have hactive : job.id ∈ t.active self.workerId := ha.active ▸ hc.active
  simp only [Kept, hfinal, ha.final, hclean.active, hactive, and_true]

theorem finishJob_ends {record : Proc Outcome} {route : Route}
    (hc : Claimed self.workerId w.store job.id)
    (hrecord : FinishEnds pid role chances result faults (RecordPost faults job route w) record
      n w) :
    FinishEnds pid role chances result faults
      (fun _ after => Kept self.workerId after.store job.id ↔
        Recorded w.store job.id faults.record route ∨ faults.removeActive ≠ .none)
      (finishJob self job record) n w := by
  refine ends_bind hrecord fun answer k w₁ ⟨hpanic, hattempt⟩ => ?_
  match answer with
  | .error .panicked => exact absurd rfl hpanic
  | .error (.redis error) =>
      exact ends_bind (cleanupRunning_ends fun _ after hclean => kept_cleanedUp hc hattempt hclean)
        fun _ _ _ h => ends_ret h
  | .error .moveToDlqFailed =>
      exact ends_bind (cleanupRunning_ends fun _ after hclean => kept_cleanedUp hc hattempt hclean)
        fun _ _ _ h => ends_ret h
  | .ok () => exact cleanupRunning_ends fun _ after hclean => kept_cleanedUp hc hattempt hclean

end Record

-- The job is one that the worker hands to a runner at the given time.
structure Dispatched (owner : RRQWorker) (job : Job) (queueName : QueueKey) (now : DateTime) :
    Prop where
  countable : (checkedAdd job.currentRetries 1).isSome
  timeout : 0 < job.jobTimeoutSeconds.getD owner.settings.defaultJobTimeoutSeconds
  deadline :
    (now.addSeconds (job.jobTimeoutSeconds.getD owner.settings.defaultJobTimeoutSeconds)).isSome
  handler : (splitRunnerName job.functionName).2 ≠ ""
  runner : (splitRunnerName job.functionName).1.getD
    ((resolveRoutedRunner owner.settings.runnerRoutes queueName).getD
      owner.settings.defaultRunnerName) ∈ owner.runners

theorem executeJob_ends {self : RRQWorker} {pid : Pid} {role : Role} {chances : Nat → Chance}
    {result : RunnerExecutionResult} {faults : FinishFaults} {w : World} {job : Job}
    {queueName : QueueKey} (hc : Claimed self.workerId w.store job.id)
    (hd : Dispatched self job queueName (chances 0).now) :
    FinishEnds pid role chances result faults
      (fun _ after => Kept self.workerId after.store job.id ↔
        Recorded w.store job.id faults.record (outcomeRoute job result) ∨
          faults.removeActive ≠ .none)
      (executeJob self job queueName) 0 w := by
  obtain ⟨attempt, hattempt⟩ := Option.isSome_iff_exists.mp hd.countable
  obtain ⟨deadline, hdeadline⟩ := Option.isSome_iff_exists.mp hd.deadline
  simp only [executeJob, hattempt, not_le.mpr hd.timeout, if_false]
  refine ends_call ?_
  simp only [World.exec, finishOracle, Prog.bind, hdeadline, dispatchToRunner]
  rw [if_neg hd.handler]
  refine ends_call ?_
  rw [if_pos hd.runner]
  refine ends_call (ends_call (ends_call ?_))
  exact finishJob_ends hc (handleExecutionResult_ends _ hc (countable_of_some hattempt))

-- The job of an interrupted world, as its worker has read it.
def lostJob : Job :=
  { id := "j", functionName := "f", jobParams := [], enqueueTime := ⟨0⟩, startTime := some ⟨0⟩
    status := .Active, currentRetries := 0, nextScheduledRunTime := none, maxRetries := 5
    jobTimeoutSeconds := none, resultTtlSeconds := none, jobUniqueKey := none
    completionTime := none, result := none, lastError := none
    queueName := some "rrq:queue:default", dlqName := none, workerId := some "w0"
    traceContext := none, correlationContext := none }

theorem claimed_lostWorld : Claimed "w0" lostWorld.store "j" where
  status := rfl
  notQueued := fun ⟨_, hq⟩ => SortedSet.not_mem_empty _ hq
  active := by decide

theorem dispatched_lostJob : Dispatched (.ofDefaults "w0") lostJob "rrq:queue:default" ⟨0⟩ where
  countable := by decide
  timeout := by decide
  deadline := by decide
  handler := by decide
  runner := by decide

-- A dispatched job can still be found exactly when its outcome was recorded, or when its entry
-- in the active set could not be removed either.
theorem executeJob_keeps_iff (self : RRQWorker) (pid : Pid) (chances : Nat → Chance)
    (result : RunnerExecutionResult) (faults : FinishFaults) (w : World) (job : Job)
    (queueName : QueueKey) (hc : Claimed self.workerId w.store job.id)
    (hd : Dispatched self job queueName (chances 0).now) :
    Kept self.workerId (Prog.run (World.exec pid (.task self.workerId))
        (finishOracle chances result faults) (executeJob self job queueName) 0 w).2.2.store job.id ↔
      Recorded w.store job.id faults.record (outcomeRoute job result) ∨
        faults.removeActive ≠ .none :=
  executeJob_ends hc hd

theorem executeJob_keeps_iff_default :
    Kept "w0" (Prog.run (World.exec 0 (.task "w0")) (finishOracle (fun _ => {}) .TimedOut {})
        (executeJob (.ofDefaults "w0") lostJob "rrq:queue:default") 0 lostWorld).2.2.store "j" ↔
      Recorded lostWorld.store "j" .none (outcomeRoute lostJob .TimedOut) ∨
        Fault.none ≠ .none :=
  executeJob_keeps_iff (.ofDefaults "w0") 0 (fun _ => {}) .TimedOut {} lostWorld lostJob
    "rrq:queue:default" claimed_lostWorld dispatched_lostJob

-- The result of a success is not saved, and the cleanup drops the job.
theorem executeJob_loses : ¬ ∀ (self : RRQWorker) (pid : Pid) (chances : Nat → Chance)
    (result : RunnerExecutionResult) (faults : FinishFaults) (w : World) (job : Job)
    (queueName : QueueKey), Claimed self.workerId w.store job.id →
    Dispatched self job queueName (chances 0).now →
    Kept self.workerId (Prog.run (World.exec pid (.task self.workerId))
      (finishOracle chances result faults) (executeJob self job queueName) 0 w).2.2.store
        job.id := by
  intro h
  have hkept := h (.ofDefaults "w0") 0 (fun _ => {}) (.Completed (.ok { status := .Success }))
    { record := .refused } lostWorld lostJob "rrq:queue:default" claimed_lostWorld
    dispatched_lostJob
  have hends : FinishEnds 0 (.task "w0") (fun _ => {}) (.Completed (.ok { status := .Success }))
      { record := .refused }
      (fun _ after => Kept "w0" after.store lostJob.id ↔
        Recorded lostWorld.store lostJob.id .refused
          (outcomeRoute lostJob (.Completed (.ok { status := .Success }))) ∨ Fault.none ≠ .none)
      (executeJob (.ofDefaults "w0") lostJob "rrq:queue:default") 0 lostWorld :=
    executeJob_ends claimed_lostWorld dispatched_lostJob
  rcases hends.mp hkept with hrecorded | hfault
  · exact absurd hrecorded nofun
  · exact hfault rfl

end Rrq.RRQWorker
