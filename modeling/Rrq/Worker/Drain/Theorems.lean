import Rrq.Store.Requeue
import Rrq.Worker.Drain

-- Which of the jobs that a shutdown interrupts can still be found afterwards.

namespace Rrq.RRQWorker

open Store Scripts Prog

-- What befalls the commands that the drain issues for one job.
structure DrainFaults where
  load : Fault := .none
  requeue : Fault := .none
  removeActive : Fault := .none
  releaseLock : Fault := .none

def drainFault (faults : JobId → DrainFaults) : Op → Fault
  | .redis (.getJobDataMap id) => (faults id).load
  | .redis (.atomicRequeueJob args) => (faults args.id).requeue
  | .redis (.removeActiveJob _ id) => (faults id).removeActive
  | .redis (.releaseJobLockIfOwner id _) => (faults id).releaseLock
  | _ => .none

def drainOracle (chances : Nat → Chance) (faults : JobId → DrainFaults) (n : Nat) (op : Op) :
    Chance :=
  { chances n with fault := drainFault faults op }

-- A job that can be executed is in a queue or in the active set of the worker.
def Tracked (worker : WorkerId) (s : Store) (id : JobId) : Prop :=
  s.Live id → s.Queued id ∨ id ∈ s.active worker

-- The definition of the job can be read.
def Loads (self : RRQWorker) (faults : JobId → DrainFaults) (s : Store) (id : JobId) : Prop :=
  (faults id).load = .none ∧ ∀ raw, s.hash id = some raw →
    ∃ job, parseJobMap raw id self.settings.defaultMaxRetries = .ok job

-- The call of the requeue script that puts the job into its queue.
def drainCalls (s : Store) (id : JobId) : Nat :=
  if s.status id = some JobStatus.Active.asStr then 6 else 4

-- The job is put back, or its entry in the active set outlives the cleanup.
def PutBack (self : RRQWorker) (faults : JobId → DrainFaults) (s : Store) (id : JobId) : Prop :=
  s.Live id → s.Queued id ∨ (faults id).requeue.Reaches (drainCalls s id) ∨
    (faults id).removeActive ≠ .none ∧ id ∈ s.active self.workerId

section DrainOne

variable {self : RRQWorker} {pid : Pid} {role : Role} {chances : Nat → Chance}
  {faults : JobId → DrainFaults} {n : Nat} {w : World} {id : JobId}

abbrev DrainEnds {α : Type} (pid : Pid) (role : Role) (chances : Nat → Chance)
    (faults : JobId → DrainFaults) (post : α → World → Prop) (prog : Proc α) (n : Nat)
    (w : World) : Prop :=
  Ends (World.exec pid role) (drainOracle chances faults) post prog n w

-- Taking the job out of the active set and releasing its lock.
structure CleanedUp (worker : WorkerId) (id : JobId) (fault : Fault) (s t : Store) : Prop where
  hash : t.hash id = s.hash id
  queues : t.queues = s.queues
  dlq : t.dlq = s.dlq
  active : id ∈ t.active worker ↔ fault ≠ .none ∧ id ∈ s.active worker
  others : ∀ other, other ≠ id → SameJob other s t

theorem cleanedUp {worker : WorkerId} {fault lockFault : Fault} {page lockPage : Nat × List String}
    {s t u : Store} {answer : Except RedisError Unit} {released : Except RedisError Bool}
    (hremove : (Cmd.removeActiveJob worker id).exec fault page s = (answer, t))
    (hrelease : (Cmd.releaseJobLockIfOwner id worker).exec lockFault lockPage t = (released, u)) :
    CleanedUp worker id fault s u := by
  have hlocks := Cmd.releaseJobLockIfOwner_inv hrelease
  obtain ⟨hs, -⟩ := Cmd.removeActiveJob_inv hremove
  refine ⟨?_, ?_, ?_, ?_, fun other hne => ?_⟩
  · rw [hlocks.hash, hs]
    split <;> simp [Store.hash, zremActive]
  · rw [hlocks.queues, hs]
    split
    · funext queue
      simp [zremActive]
    · rfl
  · rw [hlocks.dlq, hs]
    split
    · funext name
      simp [zremActive]
    · rfl
  · rw [hlocks.active, hs]
    split
    · rename_i hf
      simp [zremActive, hf]
    · rename_i hf
      simp [hf]
  · have h₁ := Cmd.sameJob_exec (c := .removeActiveJob worker id) other
      (by rintro _ rfl; exact hne) fault page s
    have h₂ := Cmd.sameJob_exec (c := .releaseJobLockIfOwner id worker) other
      (by rintro _ rfl; exact hne) lockFault lockPage t
    rw [hremove] at h₁
    rw [hrelease] at h₂
    exact h₁.trans h₂

-- The drain of one job, and what it leaves of that job and of the others.
structure DrainedOne (owner : RRQWorker) (faults : JobId → DrainFaults) (id : JobId) (s : Store)
    (answer : Except JobStore.LoadError Unit) (t : Store) : Prop where
  loads : Loads owner faults s id → answer = .ok () ∧
    (Tracked owner.workerId t id ↔ PutBack owner faults s id)
  fails : ¬ Loads owner faults s id → (∃ error, answer = .error error) ∧ t = s
  others : ∀ other, other ≠ id → SameJob other s t

-- Without a requeue the job is as live as before, and only its entry may be gone.
theorem tracked_cleanedUp {fault : Fault} {s t : Store}
    (h : CleanedUp self.workerId id fault s t) :
    Tracked self.workerId t id ↔
      (s.Live id → s.Queued id ∨ fault ≠ .none ∧ id ∈ s.active self.workerId) := by
  unfold Tracked
  rw [live_congr (s := s) (by simp [Store.status, h.hash]), h.active]
  simp [Store.Queued, h.queues]

theorem atomicRequeueJob_inv {fault : Fault} {page : Nat × List String} {args : RequeueArgs}
    {s t : Store} {answer : Except RedisError Int} (hpresent : (s.hash args.id).isSome)
    (h : (Cmd.atomicRequeueJob args).exec fault page s = (answer, t)) :
    (t.Live args.id ↔ s.Live args.id) ∧
    (t.Queued args.id ↔ s.Queued args.id ∨ fault.Reaches (requeueCalls args s)) ∧
    (∀ worker, args.id ∈ t.active worker → args.id ∈ s.active worker) ∧
    ∀ worker, args.id ∈ s.active worker → args.id ∈ t.active worker ∨ t.Queued args.id := by
  have ht := congrArg Prod.snd h
  dsimp only at ht
  subst ht
  cases fault with
  | refused => simp [Cmd.exec, Cmd.script, Fault.Reaches]; tauto
  | none =>
      have hr : Requeued args.id _ none s _ := requeued_requeueJob none hpresent
      exact ⟨hr.live, hr.queued, hr.active, hr.tracked⟩
  | stops calls =>
      have hr : Requeued args.id _ (some calls) s _ := requeued_requeueJob (some calls) hpresent
      exact ⟨hr.live, hr.queued, hr.active, hr.tracked⟩

theorem drainedOne_error (hl : ¬ Loads self faults w.store id) (error : JobStore.LoadError) :
    DrainedOne self faults id w.store (.error error) w.store where
  loads h := absurd h hl
  fails _ := ⟨⟨error, rfl⟩, rfl⟩
  others _ _ := .refl _ _

-- A job whose hash is gone or terminal is only cleaned up.
theorem drainedOne_dead {t : Store} (hl : ¬ w.store.Live id)
    (hload : Loads self faults w.store id)
    (h : CleanedUp self.workerId id (faults id).removeActive w.store t) :
    DrainedOne self faults id w.store (.ok ()) t where
  loads _ := ⟨rfl, by
    rw [tracked_cleanedUp h]
    exact iff_of_true (fun hlive => absurd hlive hl) fun hlive => absurd hlive hl⟩
  fails hn := absurd hload hn
  others := h.others

theorem drainMessage_eq {status : JobStatus} :
    drainMessage status = "" ↔ status ≠ .Active := by
  unfold drainMessage
  split <;> simp_all [shutdownMessage]

-- A live job is requeued and then cleaned up, whatever the requeue answered.
theorem drainedOne_requeued {fault : Fault} {page : Nat × List String} {s t u : Store}
    {args : RequeueArgs} {status : JobStatus} {answer : Except RedisError Int}
    (hload : Loads self faults s args.id) (hlive : s.Live args.id)
    (hstatus : s.status args.id = some status.asStr)
    (hmessage : args.requeueMessage = drainMessage status)
    (hfault : fault = (faults args.id).requeue)
    (hrequeue : (Cmd.atomicRequeueJob args).exec fault page s = (answer, t))
    (hclean : CleanedUp self.workerId args.id (faults args.id).removeActive t u) :
    DrainedOne self faults args.id s (.ok ()) u where
  loads _ := by
    have hpresent : (s.hash args.id).isSome := by
      obtain ⟨_, hs, _⟩ := hlive
      obtain ⟨raw, hraw, _⟩ := Option.bind_eq_some_iff.mp hs
      simp [hraw]
    have hcalls : requeueCalls args s = drainCalls s args.id := by
      simp only [requeueCalls, drainCalls, hmessage, drainMessage_eq, hstatus, Option.some.injEq]
      split_ifs with h₁ h₂
      · rfl
      · rfl
      · exact absurd (fun h => h₁ (by rw [h])) h₂
    obtain ⟨hl, hq, hsub, htracked⟩ := atomicRequeueJob_inv hpresent hrequeue
    refine ⟨rfl, ?_⟩
    rw [hcalls] at hq
    rw [tracked_cleanedUp hclean, hl, hq, PutBack, ← hfault]
    refine imp_congr_right fun _ => ⟨?_, ?_⟩
    · rintro ((hs | hreach) | ⟨hf, hmem⟩)
      · exact .inl hs
      · exact .inr (.inl hreach)
      · exact .inr (.inr ⟨hf, hsub _ hmem⟩)
    · rintro (hs | hreach | ⟨hf, hmem⟩)
      · exact .inl (.inl hs)
      · exact .inl (.inr hreach)
      · rcases htracked _ hmem with hstill | hqueued
        · exact .inr ⟨hf, hstill⟩
        · exact .inl (hq.mp hqueued)
  fails hn := absurd hload hn
  others other hne := by
    have h := Cmd.sameJob_exec (c := .atomicRequeueJob args) other
      (by rintro _ rfl; exact hne) fault page s
    rw [hrequeue] at h
    exact h.trans (hclean.others other hne)

-- The cleanup of a job, run after anything that left a given store.
theorem drainCleanup_ends {w₁ : World} {k : Nat} {s : Store} (hs : w₁.store = s)
    {post : Except JobStore.LoadError Unit → World → Prop}
    (h : ∀ after, CleanedUp self.workerId id (faults id).removeActive s after.store →
      post (.ok ()) after) :
    DrainEnds pid role chances faults post
      (redis (.removeActiveJob self.workerId id) >>= fun _ =>
        redis (.releaseJobLockIfOwner id self.workerId) >>= fun _ => pure (.ok ())) k w₁ := by
  subst hs
  refine ends_redis fun _ t w₂ hremove hs₂ _ => ?_
  refine ends_redis fun _ u w₃ hrelease hs₃ _ => ends_ret (h w₃ ?_)
  rw [hs₂] at hrelease
  rw [hs₃]
  exact cleanedUp hremove hrelease

theorem drainJob_ends (info : RunningJobInfo) :
    DrainEnds pid role chances faults
      (fun answer after => DrainedOne self faults id w.store answer after.store)
      (drainJob self id info) n w := by
  unfold drainJob JobStore.getJobDefinition
  rw [bind_assoc]
  refine ends_redis fun answer store w₁ hexec hs₁ _ => ?_
  obtain ⟨rfl, rfl⟩ := Cmd.getJobDataMap_inv hexec
  have hfault : (drainOracle chances faults n (.redis (.getJobDataMap id))).fault =
      (faults id).load := rfl
  rw [hfault]
  by_cases hf : (faults id).load = .none
  swap
  · rw [if_neg hf]
    refine ends_ret ?_
    rw [hs₁]
    exact drainedOne_error (fun h => hf h.1) _
  rw [if_pos hf]
  cases hraw : w.store.hash id with
  | none =>
      have hdead : ¬ w.store.Live id := by simp [Store.Live, Store.status, hraw]
      exact drainCleanup_ends hs₁ fun after =>
        drainedOne_dead hdead ⟨hf, by simp [hraw]⟩
  | some raw =>
      dsimp only
      cases hparse : parseJobMap raw id self.settings.defaultMaxRetries with
      | error error =>
          refine ends_ret ?_
          rw [hs₁]
          refine drainedOne_error (fun h => ?_) _
          obtain ⟨job, hjob⟩ := h.2 raw hraw
          cases hparse.symm.trans hjob
      | ok job =>
          have hload : Loads self faults w.store id := ⟨hf, fun other hother => ⟨job, by
            rw [← Option.some.inj (hraw.symm.trans hother), hparse]⟩⟩
          have hstatus : w.store.status id = some job.status.asStr := by
            simp [Store.status, hraw, (parseJobMap_ok hparse).1]
          simp only [pure_eq_ret, ret_bind]
          by_cases hlive : job.status.Live
          swap
          · rw [if_neg hlive]
            exact drainCleanup_ends hs₁ fun after =>
              drainedOne_dead (fun h => hlive ((live_iff hstatus).mp h)) hload
          rw [if_pos hlive]
          simp only [drainRequeue, bind_assoc]
          refine ends_utcNow fun now => ?_
          refine ends_redis fun result t w₂ hrequeue hs₂ _ => ?_
          rw [hs₁] at hrequeue
          refine drainCleanup_ends hs₂ fun after hclean => ?_
          exact drainedOne_requeued hload ((live_iff hstatus).mpr hlive) hstatus rfl rfl hrequeue
            hclean

end DrainOne

-- The loop over the running jobs comes to a job if it reads every definition up to it.
def Reached (self : RRQWorker) (faults : JobId → DrainFaults) (s : Store) :
    List (JobId × RunningJobInfo) → JobId → Prop
  | [], _ => False
  | entry :: running, id =>
      Loads self faults s entry.1 ∧ (entry.1 = id ∨ Reached self faults s running id)

-- What the faults and the store before the drain must be like for a job to stay tracked.
structure DrainKeeps (owner : RRQWorker) (faults : JobId → DrainFaults) (s : Store)
    (running : List (JobId × RunningJobInfo)) (id : JobId) : Prop where
  reached : Reached owner faults s running id → PutBack owner faults s id
  notReached : ¬ Reached owner faults s running id → Tracked owner.workerId s id

section DrainAll

variable {self : RRQWorker} {pid : Pid} {role : Role} {chances : Nat → Chance}
  {faults : JobId → DrainFaults} {n : Nat} {w : World} {id : JobId} {s t : Store}

theorem loads_congr (h : SameJob id s t) : Loads self faults t id ↔ Loads self faults s id := by
  simp only [Loads, h.hash]

theorem tracked_congr (h : SameJob id s t) (worker : WorkerId) :
    Tracked worker t id ↔ Tracked worker s id := by
  simp only [Tracked, h.live, h.queued, h.active]

theorem putBack_congr (h : SameJob id s t) :
    PutBack self faults t id ↔ PutBack self faults s id := by
  simp only [PutBack, h.live, h.queued, h.active, drainCalls, h.status]

theorem reached_congr {running : List (JobId × RunningJobInfo)}
    (h : ∀ entry ∈ running, SameJob entry.1 s t) :
    Reached self faults t running id ↔ Reached self faults s running id := by
  induction running with
  | nil => rfl
  | cons entry running ih =>
      simp only [Reached, loads_congr (h entry List.mem_cons_self),
        ih fun other hother => h other (List.mem_cons_of_mem _ hother)]

theorem drainKeeps_congr {running : List (JobId × RunningJobInfo)}
    (h : ∀ entry ∈ running, SameJob entry.1 s t) (hid : SameJob id s t) :
    DrainKeeps self faults t running id ↔ DrainKeeps self faults s running id := by
  have hr : Reached self faults t running id ↔ Reached self faults s running id :=
    reached_congr h
  have hp : PutBack self faults t id ↔ PutBack self faults s id := putBack_congr hid
  have ht := tracked_congr hid self.workerId
  exact ⟨fun k => ⟨fun h => hp.mp (k.reached (hr.mpr h)),
      fun h => ht.mp (k.notReached (mt hr.mp h))⟩,
    fun k => ⟨fun h => hp.mpr (k.reached (hr.mp h)),
      fun h => ht.mpr (k.notReached (mt hr.mpr h))⟩⟩

theorem drainJobs_ends (running : List (JobId × RunningJobInfo))
    (hnodup : (running.map Prod.fst).Nodup) :
    DrainEnds pid role chances faults
      (fun _ after => (∀ id ∉ running.map Prod.fst, SameJob id w.store after.store) ∧
        ∀ id ∈ running.map Prod.fst, Tracked self.workerId after.store id ↔
          DrainKeeps self faults w.store running id)
      (drainJobs self running) n w := by
  induction running generalizing n w with
  | nil => exact ends_ret ⟨fun id _ => .refl id _, by simp⟩
  | cons entry running ih =>
      obtain ⟨head, info⟩ := entry
      obtain ⟨hnot, hrest⟩ := List.nodup_cons.mp hnodup
      refine ends_bind (drainJob_ends info) fun answer k w₁ hone => ?_
      by_cases hload : Loads self faults w.store head
      · obtain ⟨rfl, htracked⟩ := hone.loads hload
        refine ends_mono (ih hrest) fun _ after ⟨hother, htail⟩ => ⟨fun id hid => ?_, fun id hid => ?_⟩
        · simp only [List.map_cons, List.mem_cons, not_or] at hid
          exact (hone.others id hid.1).trans (hother id hid.2)
        · have hothers : ∀ entry ∈ running, SameJob entry.1 w.store w₁.store := fun entry he =>
            hone.others entry.1 fun h => hnot (List.mem_map.mpr ⟨entry, he, h⟩)
          rcases List.mem_cons.mp hid with rfl | hmem
          · rw [tracked_congr (hother id hnot), htracked]
            exact ⟨fun h => ⟨fun _ => h, fun hn => absurd ⟨hload, .inl rfl⟩ hn⟩,
              fun h => h.reached ⟨hload, .inl rfl⟩⟩
          · have hne : id ≠ head := fun h => hnot (h ▸ hmem)
            rw [htail id hmem, drainKeeps_congr hothers (hone.others id hne)]
            have hr : Reached self faults w.store ((head, info) :: running) id ↔
                Reached self faults w.store running id := by
              simp only [Reached, hload, true_and, or_iff_right_iff_imp]
              exact fun h => absurd h.symm hne
            exact ⟨fun k => ⟨fun h => k.reached (hr.mp h), fun h => k.notReached (mt hr.mpr h)⟩,
              fun k => ⟨fun h => k.reached (hr.mpr h), fun h => k.notReached (mt hr.mp h)⟩⟩
      · obtain ⟨⟨error, rfl⟩, hsame⟩ := hone.fails hload
        refine ends_ret ⟨fun id _ => hsame ▸ .refl id _, fun id _ => ?_⟩
        have hr : ¬ Reached self faults w.store ((head, info) :: running) id := fun h => hload h.1
        rw [hsame]
        exact ⟨fun h => ⟨fun hn => absurd hn hr, fun _ => h⟩, fun h => h.notReached hr⟩

theorem awaitRunning_ends (fuel : Nat) (hrunning : (w.mem self.workerId).running ≠ []) :
    DrainEnds pid role chances faults (fun answer after => answer = false ∧ after = w)
      (awaitRunning self fuel) n w := by
  induction fuel generalizing n with
  | zero => exact ends_ret ⟨rfl, rfl⟩
  | succ fuel ih =>
      have hempty : (w.mem self.workerId).running.isEmpty = false := by simpa using hrunning
      refine ends_runningJobs ?_
      rw [hempty]
      refine ends_graceOver fun expired => ?_
      cases expired with
      | true => exact ends_ret ⟨rfl, rfl⟩
      | false => exact ih

theorem drainTasks_ends (fuel : Nat)
    (hnodup : ((w.mem self.workerId).running.map Prod.fst).Nodup)
    (hid : id ∈ (w.mem self.workerId).running.map Prod.fst) :
    DrainEnds pid role chances faults
      (fun _ after => Tracked self.workerId after.store id ↔
        DrainKeeps self faults w.store (w.mem self.workerId).running id)
      (drainTasks self fuel) n w := by
  have hrunning : (w.mem self.workerId).running ≠ [] := by
    intro h
    simp [h] at hid
  refine ends_bind (awaitRunning_ends fuel hrunning) ?_
  rintro _ k w₁ ⟨rfl, rfl⟩
  refine ends_call (ends_call ?_)
  exact ends_mono (drainJobs_ends _ hnodup) fun _ _ h => h.2 id hid

end DrainAll

-- One job that a worker has claimed and is running.
def lostWorld : World :=
  let hash : JobHash :=
    { id := some "j", status := some "ACTIVE", enqueueTime := some (.val ⟨0⟩), workerId := some "w0" }
  let store := ((Store.empty.setJob "j" (some { value := hash })).zaddActive "w0" "j" 0).setLock "j"
    (some { value := .owner "w0" })
  (World.ofStore store).setMem "w0" fun m =>
    { m with alive := true, running := [("j", { queueName := "rrq:queue:default" })] }

-- A job that a shutdown interrupts stays findable exactly when it is put back, or when the
-- cleanup that follows fails as well.
theorem drainTasks_tracks_iff (self : RRQWorker) (pid : Pid) (fuel : Nat)
    (chances : Nat → Chance) (faults : JobId → DrainFaults) (w : World) (id : JobId)
    (hnodup : ((w.mem self.workerId).running.map Prod.fst).Nodup)
    (hid : id ∈ (w.mem self.workerId).running.map Prod.fst) :
    Tracked self.workerId (Prog.run (World.exec pid (.main self.workerId))
        (drainOracle chances faults) (drainTasks self fuel) 0 w).2.2.store id ↔
      DrainKeeps self faults w.store (w.mem self.workerId).running id :=
  drainTasks_ends fuel hnodup hid

theorem drainTasks_tracks_iff_default :
    Tracked "w0" (Prog.run (World.exec 0 (.main "w0")) (drainOracle (fun _ => {}) fun _ => {})
        (drainTasks (.ofDefaults "w0") 1) 0 lostWorld).2.2.store "j" ↔
      DrainKeeps (.ofDefaults "w0") (fun _ => {}) lostWorld.store (lostWorld.mem "w0").running
        "j" :=
  drainTasks_tracks_iff (.ofDefaults "w0") 0 1 (fun _ => {}) (fun _ => {}) lostWorld "j"
    (by decide) (by decide)

-- The requeue of the only running job fails and its cleanup does not.
theorem drainTasks_loses : ¬ ∀ (self : RRQWorker) (pid : Pid) (fuel : Nat)
    (chances : Nat → Chance) (faults : JobId → DrainFaults) (w : World) (id : JobId),
    ((w.mem self.workerId).running.map Prod.fst).Nodup →
    id ∈ (w.mem self.workerId).running.map Prod.fst →
    Tracked self.workerId w.store id →
    Tracked self.workerId (Prog.run (World.exec pid (.main self.workerId))
      (drainOracle chances faults) (drainTasks self fuel) 0 w).2.2.store id := by
  intro h
  have htracked := h (.ofDefaults "w0") 0 1 (fun _ => {}) (fun _ => { requeue := .refused })
    lostWorld "j" (by decide) (by decide) fun _ => .inr (by decide)
  have hends : DrainEnds 0 (.main "w0") (fun _ => {}) (fun _ => { requeue := .refused })
      (fun _ after => Tracked "w0" after.store "j" ↔
        DrainKeeps (.ofDefaults "w0") (fun _ => { requeue := .refused }) lostWorld.store
          (lostWorld.mem "w0").running "j")
      (drainTasks (.ofDefaults "w0") 1) 0 lostWorld :=
    drainTasks_ends 1 (by decide) (by decide)
  have hkeeps := hends.mp htracked
  have hloads : Loads (.ofDefaults "w0") (fun _ => { requeue := .refused }) lostWorld.store "j" :=
    ⟨rfl, fun raw hraw => by cases hraw; exact ⟨_, rfl⟩⟩
  have hlive : lostWorld.store.Live "j" := ⟨.Active, rfl, by decide⟩
  rcases hkeeps.reached ⟨hloads, .inl rfl⟩ hlive with ⟨queue, hq⟩ | hreach | ⟨hfault, -⟩
  · exact SortedSet.not_mem_empty _ hq
  · exact hreach
  · exact hfault rfl

end Rrq.RRQWorker
