import Rrq.Worker.Drain.Theorems
import Rrq.Worker.Recover.Handling

-- How far the trouble with one job is the trouble of the others in the sweep of a recovery and
-- in the drain of a shutdown.

namespace Rrq

open Store Prog

namespace Recover

section Sweep

variable {self : RRQWorker} {trial : Trial} {pid : Pid} {queue : QueueKey}
  {worker owner : WorkerId} {id : JobId} {n : Nat} {w : World}

-- Whatever a heartbeat does next, a job that is back stays back.
theorem back_ends {α : Type} {prog : Proc α} (hp : HeartbeatIssues (fun _ _ => True) self prog)
    (hb : w.store.Back queue worker id) :
    Prog.Ends (World.exec pid (.heartbeat self.workerId)) trial.oracle
      (fun _ after => after.store.Back queue worker id) prog n w := by
  refine ends_issues hp (fun count op w h hw => ⟨trivial, ?_⟩) hb
  cases op with
  | redis c => exact (Cmd.settling_exec h rfl).back hw
  | utcNow => exact hw
  | shutdownRequested worker => exact hw
  | _ => exact h.elim

abbrev SweepCourse {α : Type} (self : RRQWorker) (queue : QueueKey) (worker : WorkerId)
    (id : JobId) (goes : α → Prop) : Outlook → Except RecoverError α → World → Prop :=
  Course (Waiting self queue worker id) (fun after => after.store.Back queue worker id) goes

theorem recoverJob_course (hw : Waiting self queue worker trial.spared w) :
    (trial.watch self pid worker).Ends (SweepCourse self queue worker trial.spared fun verdict =>
        ¬ (owner = worker ∧ id = trial.spared) ∧ (verdict = .skipped ∨ verdict = .recovered))
      (recoverJob self owner id) n w := by
  by_cases hid : id = trial.spared
  · subst hid
    refine Watch.ends_mono (recoverSpared_course hw) fun outlook answer after h => ?_
    cases outlook with
    | clear =>
        obtain ⟨hafter, verdict, rfl, hne, hv⟩ := h
        exact ⟨hafter, verdict, rfl, fun h => hne h.1, hv⟩
    | met => exact h
    | failed => exact h
  · refine Watch.ends_mono (recoverOther_course hid hw) fun outlook answer after h => ?_
    cases outlook with
    | clear =>
        obtain ⟨hafter, verdict, rfl, hv⟩ := h
        exact ⟨hafter, verdict, rfl, fun h => hid h.2, hv⟩
    | met => exact h.elim
    | failed => exact h

-- A part of a sweep that goes on has not come to the spared job; else it is at its limit.
def Swept (listed : Prop) (result : Nat × Bool) : Prop :=
  if result.2 then result.1 < MAX_RECOVERIES_PER_TICK ∧ ¬ listed
  else MAX_RECOVERIES_PER_TICK ≤ result.1

theorem Swept.mono {first second : Prop} {result : Nat × Bool} (h : Swept first result)
    (hs : second → first) : Swept second result := by
  unfold Swept at h ⊢
  split_ifs at h ⊢
  · exact ⟨h.1, fun hl => h.2 (hs hl)⟩
  · exact h

theorem course_swept {first second : Prop} (hs : second → first) {outlook : Outlook}
    {answer : Except RecoverError (Nat × Bool)} {after : World}
    (h : SweepCourse self queue worker id (Swept first) outlook answer after) :
    SweepCourse self queue worker id (Swept second) outlook answer after := by
  cases outlook with
  | clear =>
      obtain ⟨hafter, result, rfl, hr⟩ := h
      exact ⟨hafter, result, rfl, hr.mono hs⟩
  | met => exact h
  | failed => exact h

-- A sequence whose first part drops the spared job, or gives up, comes out as that part does.
theorem course_bind {α β : Type} {goes : α → Prop} {after : β → Prop}
    {prog : Proc (Except RecoverError α)}
    {rest : Except RecoverError α → Proc (Except RecoverError β)}
    (hp : (trial.watch self pid worker).Ends (SweepCourse self queue worker id goes) prog n w)
    (hissues : ∀ answer, HeartbeatIssues (fun _ _ => True) self (rest answer))
    (herror : ∀ error, rest (.error error) = pure (.error error))
    (hclear : ∀ value n w, Waiting self queue worker id w → goes value →
      (trial.watch self pid worker).Ends (SweepCourse self queue worker id after)
        (rest (.ok value)) n w) :
    (trial.watch self pid worker).Ends (SweepCourse self queue worker id after)
      (prog >>= rest) n w := by
  refine Watch.ends_bind hp ?_ fun outlook hne answer n w hmid => ?_
  · rintro answer n w ⟨hw, value, rfl, hgoes⟩
    exact hclear value n w hw hgoes
  · cases outlook with
    | clear => exact absurd rfl hne
    | met => exact back_ends (hissues answer) hmid
    | failed =>
        obtain ⟨hw, error, rfl⟩ := hmid
        rw [herror]
        exact ends_ret ⟨hw, error, rfl⟩

theorem recoverIds_course (ids : List JobId) {recovered : Nat}
    (hr : recovered < MAX_RECOVERIES_PER_TICK) (hw : Waiting self queue worker trial.spared w) :
    (trial.watch self pid worker).Ends (SweepCourse self queue worker trial.spared
        (Swept (owner = worker ∧ trial.spared ∈ ids)))
      (recoverIds self owner ids recovered) n w := by
  induction ids generalizing recovered n w with
  | nil => exact Watch.ends_ret ⟨hw, _, rfl, hr, fun h => List.not_mem_nil h.2⟩
  | cons head ids ih =>
      refine course_bind (recoverJob_course hw) (fun answer => ?_) (fun _ => rfl) ?_
      · split
        · trivial
        · trivial
        · exact recoverIds_issues self owner ids _
        · split_ifs
          · trivial
          · exact recoverIds_issues self owner ids _
      · rintro verdict n w hw ⟨hne, hv⟩
        have hlisted : owner = worker ∧ trial.spared ∈ head :: ids →
            owner = worker ∧ trial.spared ∈ ids := by
          rintro ⟨howner, hmem⟩
          refine ⟨howner, (List.mem_cons.mp hmem).resolve_left fun h => hne ⟨howner, h.symm⟩⟩
        rcases hv with rfl | rfl
        · exact Watch.ends_mono (ih hr hw) fun _ _ _ => course_swept hlisted
        · dsimp only
          split_ifs with hlimit
          · exact Watch.ends_ret ⟨hw, _, rfl, hlimit⟩
          · exact Watch.ends_mono (ih (Nat.lt_of_not_le hlimit) hw) fun _ _ _ =>
              course_swept hlisted

theorem sweepWorker_course {recovered : Nat} (hr : recovered < MAX_RECOVERIES_PER_TICK)
    (hw : Waiting self queue worker trial.spared w) :
    (trial.watch self pid worker).Ends
      (SweepCourse self queue worker trial.spared (Swept (owner = worker)))
      (sweepWorker self owner recovered) n w := by
  refine watch_redis rfl rfl fun answer s₁ w₁ hexec hs₁ hm₁ => ?_
  have hanswer := congrArg Prod.fst hexec
  have hw₁ : Waiting self queue worker trial.spared w₁ :=
    hw.congr (hs₁.trans (congrArg Prod.snd hexec).symm) hm₁
  change Except.ok _ = answer at hanswer
  subst hanswer
  dsimp only
  split_ifs with halive
  · refine Watch.ends_ret ⟨hw₁, _, rfl, hr, ?_⟩
    rintro rfl
    obtain ⟨ttl, hbind, hpos⟩ := (Option.any_eq_true _ _).mp halive
    obtain ⟨cell, hcell, hif⟩ := Option.bind_eq_some_iff.mp hbind
    have hdead := hw.dead cell hcell
    split_ifs at hif
    obtain rfl := Option.some.inj hif
    exact absurd (of_decide_eq_true hpos) (Int.not_lt.mpr hdead)
  · refine watch_redis rfl rfl fun answer s₂ w₂ hexec hs₂ hm₂ => ?_
    have hanswer := congrArg Prod.fst hexec
    have hw₂ : Waiting self queue worker trial.spared w₂ :=
      hw₁.congr (hs₂.trans (congrArg Prod.snd hexec).symm) hm₂
    change Except.ok _ = answer at hanswer
    subst hanswer
    refine Watch.ends_mono (recoverIds_course _ hr hw₂) fun _ _ _ => course_swept ?_
    rintro rfl
    exact ⟨rfl, hw₁.tracked⟩

-- The key of the active set of a worker.
def Names (worker : WorkerId) (key : String) : Prop :=
  startsWith key ACTIVE_JOBS_PREFIX = true ∧ trimStartMatches key ACTIVE_JOBS_PREFIX = worker

theorem sweepKeys_course (hworker : worker ≠ "") (keys : List String) {recovered : Nat}
    (hr : recovered < MAX_RECOVERIES_PER_TICK) (hw : Waiting self queue worker trial.spared w) :
    (trial.watch self pid worker).Ends
      (SweepCourse self queue worker trial.spared (Swept (∃ key ∈ keys, Names worker key)))
      (sweepKeys self keys recovered) n w := by
  induction keys generalizing recovered n w with
  | nil =>
      refine Watch.ends_ret ⟨hw, _, rfl, hr, ?_⟩
      rintro ⟨key, hkey, -⟩
      exact List.not_mem_nil hkey
  | cons key keys ih =>
      unfold sweepKeys
      dsimp only
      have hrest (hne : ¬ Names worker key) :
          (∃ other ∈ key :: keys, Names worker other) → ∃ other ∈ keys, Names worker other := by
        rintro ⟨other, hother, hnames⟩
        rcases List.mem_cons.mp hother with rfl | hmem
        · exact absurd hnames hne
        · exact ⟨other, hmem, hnames⟩
      split_ifs with hskip
      · refine Watch.ends_mono (ih hr hw) fun _ _ _ => course_swept (hrest fun hnames => ?_)
        obtain ⟨hstarts, htrim⟩ := hnames
        simp [hstarts, htrim, hworker] at hskip
      · refine course_bind (sweepWorker_course hr hw) (fun answer => ?_) (fun _ => rfl) ?_
        · split
          · trivial
          · exact sweepKeys_issues self keys _
          · trivial
        · rintro ⟨count, goes⟩ n w hw hswept
          cases goes with
          | true =>
              refine Watch.ends_mono (ih hswept.1 hw) fun _ _ _ => course_swept ?_
              exact hrest fun hnames => hswept.2 hnames.2
          | false => exact Watch.ends_ret ⟨hw, _, rfl, hswept⟩

-- A page that the sweep comes to lists the active set of the worker.
def Lists (pages : Nat → Nat × List String) (worker : WorkerId) : Nat → Nat → Prop
  | 0, _ => False
  | fuel + 1, cursor => (∃ key ∈ (pages cursor).2, Names worker key) ∨
      (pages cursor).1 ≠ 0 ∧ Lists pages worker fuel (pages cursor).1

theorem sweepPages_course (hworker : worker ≠ "") (fuel cursor : Nat) {recovered : Nat}
    (hr : recovered < MAX_RECOVERIES_PER_TICK) (hw : Waiting self queue worker trial.spared w) :
    (trial.watch self pid worker).Ends
      (SweepCourse self queue worker trial.spared fun count =>
        MAX_RECOVERIES_PER_TICK ≤ count ∨ ¬ Lists trial.pages worker fuel cursor)
      (sweepPages self fuel cursor recovered) n w := by
  induction fuel generalizing cursor recovered n w with
  | zero => exact Watch.ends_ret ⟨hw, recovered, rfl, .inr fun h => h⟩
  | succ fuel ih =>
      refine watch_redis rfl rfl fun answer s₁ w₁ hexec hs₁ hm₁ => ?_
      have hanswer := congrArg Prod.fst hexec
      have hw₁ : Waiting self queue worker trial.spared w₁ :=
        hw.congr (hs₁.trans (congrArg Prod.snd hexec).symm) hm₁
      change Except.ok (trial.pages cursor) = answer at hanswer
      subst hanswer
      rcases hpage : trial.pages cursor with ⟨next, keys⟩
      refine course_bind (sweepKeys_course hworker keys hr hw₁) (fun answer => ?_) (fun _ => rfl) ?_
      · split
        · trivial
        · trivial
        · split_ifs
          · trivial
          · exact sweepPages_issues self fuel _ _
      · rintro ⟨count, goes⟩ n w hw hswept
        cases goes with
        | false => exact Watch.ends_ret ⟨hw, count, rfl, .inl hswept⟩
        | true =>
            dsimp only
            split_ifs with hlast
            · refine Watch.ends_ret ⟨hw, count, rfl, .inr ?_⟩
              rintro (hkeys | ⟨hnext, -⟩)
              · rw [hpage] at hkeys
                exact hswept.2 hkeys
              · rw [hpage] at hnext
                exact hnext hlast
            · refine Watch.ends_mono (ih next hswept.1 hw) fun outlook answer after h => ?_
              cases outlook with
              | clear =>
                  obtain ⟨hafter, value, rfl, hlimit | hnot⟩ := h
                  · exact ⟨hafter, value, rfl, .inl hlimit⟩
                  · refine ⟨hafter, value, rfl, .inr ?_⟩
                    rintro (hkeys | ⟨-, hlists⟩)
                    · rw [hpage] at hkeys
                      exact hswept.2 hkeys
                    · rw [hpage] at hlists
                      exact hnot hlists
              | met => exact h
              | failed => exact h

-- The waiting job comes back exactly if the sweep can handle each job that it comes to before.
theorem sweepPages_back (hworker : worker ≠ "") (fuel : Nat)
    (hw : Waiting self queue worker trial.spared w)
    (hlists : Lists trial.pages worker fuel 0)
    (hroom : ∀ count, (run (World.exec pid (.heartbeat self.workerId)) trial.oracle
      (recoverOrphanedJobs self fuel) 0 w).1 = .ok count → count < MAX_RECOVERIES_PER_TICK) :
    (run (World.exec pid (.heartbeat self.workerId)) trial.oracle
        (recoverOrphanedJobs self fuel) 0 w).2.2.store.Back queue worker trial.spared ↔
      (trial.watch self pid worker).outlook (recoverOrphanedJobs self fuel) 0 w ≠ .failed := by
  have hcourse : (trial.watch self pid worker).Ends _ (recoverOrphanedJobs self fuel) 0 w :=
    sweepPages_course hworker fuel 0 (by decide) hw
  unfold Watch.Ends Prog.Ends at hcourse
  cases ho : (trial.watch self pid worker).outlook (recoverOrphanedJobs self fuel) 0 w with
  | clear =>
      rw [ho] at hcourse
      obtain ⟨-, count, hcount, hlimit | hnot⟩ := hcourse
      · exact absurd hlimit (Nat.not_le_of_lt (hroom count hcount))
      · exact absurd hlists hnot
  | met =>
      rw [ho] at hcourse
      exact ⟨fun _ => Outlook.noConfusion, fun _ => hcourse⟩
  | failed =>
      rw [ho] at hcourse
      exact ⟨fun h => absurd hcourse.1.tracked h.untracked, fun h => absurd rfl h⟩

end Sweep

end Recover

namespace RRQWorker

open Scripts

-- A job that is running when its worker drains: it can still be executed, and no command about
-- it fails.
structure Interrupted (drainer : RRQWorker) (faults : JobId → DrainFaults) (id : JobId)
    (s : Store) : Prop where
  live : s.Live id
  loads : Loads drainer faults s id
  tracked : id ∈ s.active drainer.workerId
  unharmed : faults id = {}

section Drain

variable {self : RRQWorker} {pid : Pid} {role : Role} {chances : Nat → Chance}
  {faults : JobId → DrainFaults} {n : Nat} {w : World} {id : JobId}

theorem Interrupted.congr {s t : Store} (h : Interrupted self faults id s) (hs : SameJob id s t) :
    Interrupted self faults id t where
  live := hs.live.mpr h.live
  loads := (loads_congr hs).mpr h.loads
  tracked := (hs.active _).mpr h.tracked
  unharmed := h.unharmed

theorem back_congr {s t : Store} (hs : SameJob id s t) {queue : QueueKey} {worker : WorkerId} :
    t.Back queue worker id ↔ s.Back queue worker id := by
  constructor
  · exact fun h => ⟨(hs.queues queue).mp h.queued, fun hm => h.untracked ((hs.active worker).mpr hm)⟩
  · exact fun h => ⟨(hs.queues queue).mpr h.queued, fun hm => h.untracked ((hs.active worker).mp hm)⟩

theorem drainJob_back (info : RunningJobInfo) (h : Interrupted self faults id w.store) :
    DrainEnds pid role chances faults
      (fun answer after => answer = .ok () ∧
        after.store.Back (normalizeQueueName info.queueName) self.workerId id)
      (drainJob self id info) n w := by
  unfold drainJob JobStore.getJobDefinition
  rw [bind_assoc]
  refine ends_redis fun answer store w₁ hexec hs₁ _ => ?_
  obtain ⟨rfl, rfl⟩ := Cmd.getJobDataMap_inv hexec
  have hfault : (drainOracle chances faults n (.redis (.getJobDataMap id))).fault = .none :=
    h.loads.1
  rw [hfault, if_pos rfl]
  obtain ⟨status, hs, hlive⟩ := h.live
  obtain ⟨raw, hraw, hstatus⟩ := Option.bind_eq_some_iff.mp hs
  obtain ⟨job, hparse⟩ := h.loads.2 raw hraw
  have hjob : job.status.Live := by
    have heq := (parseJobMap_ok hparse).1
    rw [hstatus] at heq
    rwa [← asStr_injective (Option.some.inj heq)]
  simp only [hraw, hparse, pure_eq_ret, ret_bind, hjob, if_true, drainRequeue, bind_assoc]
  refine ends_utcNow fun now => ?_
  refine ends_redis fun result t w₂ hrequeue hs₂ _ => ?_
  have hnone : (drainOracle chances faults (n + 1 + 1) (.redis (.atomicRequeueJob {
      id
      queueKey := normalizeQueueName info.queueName
      score := now.timestampMillis
      requeueMessage := drainMessage job.status
      releasingOwner := self.workerId
      activeWorkerId := some self.workerId
      nextScheduled := none }))).fault = .none := congrArg DrainFaults.requeue h.unharmed
  rw [hnone] at hrequeue
  have hpresent : (w₁.store.hash id).isSome := by simp [hs₁, hraw]
  have hqueued : id ∈ w₂.store.queues (normalizeQueueName info.queueName) := by
    have ht : t = _ := (congrArg Prod.snd hrequeue).symm
    rw [hs₂, ht]
    exact requeueJob_queues _ hpresent
  refine drainCleanup_ends rfl fun after hclean => ⟨rfl, ?_, ?_⟩
  · rwa [hclean.queues]
  · rw [hclean.active, h.unharmed]
    simp

theorem drainJobs_back {queue : QueueKey} (running : List (JobId × RunningJobInfo))
    (hnodup : (running.map Prod.fst).Nodup) {info : RunningJobInfo} (hmem : (id, info) ∈ running)
    (hqueue : normalizeQueueName info.queueName = queue)
    (h : Interrupted self faults id w.store) :
    DrainEnds pid role chances faults
      (fun _ after => after.store.Back queue self.workerId id ↔
        Reached self faults w.store running id)
      (drainJobs self running) n w := by
  induction running generalizing n w with
  | nil => exact absurd hmem List.not_mem_nil
  | cons entry running ih =>
      obtain ⟨head, other⟩ := entry
      obtain ⟨hnot, hrest⟩ := List.nodup_cons.mp hnodup
      rcases List.mem_cons.mp hmem with heq | htail
      · obtain ⟨rfl, rfl⟩ := Prod.mk.injEq .. ▸ heq
        refine ends_bind (drainJob_back info h) ?_
        rintro answer k w₁ ⟨rfl, hback⟩
        refine ends_mono (drainJobs_ends running hrest) fun _ after ⟨hothers, _⟩ => ?_
        rw [hqueue] at hback
        exact iff_of_true ((back_congr (hothers id hnot)).mpr hback) ⟨h.loads, .inl rfl⟩
      · have hne : id ≠ head := by
          rintro rfl
          exact hnot (List.mem_map.mpr ⟨_, htail, rfl⟩)
        refine ends_bind (drainJob_ends other) fun answer k w₁ hone => ?_
        by_cases hload : Loads self faults w.store head
        · obtain ⟨rfl, -⟩ := hone.loads hload
          have hsame := hone.others id hne
          have hothers : ∀ entry ∈ running, SameJob entry.1 w.store w₁.store := fun entry he =>
            hone.others entry.1 fun h => hnot (List.mem_map.mpr ⟨entry, he, h⟩)
          refine ends_mono (ih hrest htail (h.congr hsame)) fun _ after hiff => ?_
          rw [hiff, reached_congr hothers]
          simp [Reached, hload, Ne.symm hne]
        · obtain ⟨⟨error, rfl⟩, hstore⟩ := hone.fails hload
          refine ends_ret ?_
          rw [hstore]
          exact iff_of_false (fun hback => hback.untracked h.tracked) fun hr => hload hr.1

theorem drainTasks_back {queue : QueueKey} (fuel : Nat)
    (hnodup : ((w.mem self.workerId).running.map Prod.fst).Nodup) {info : RunningJobInfo}
    (hmem : (id, info) ∈ (w.mem self.workerId).running)
    (hqueue : normalizeQueueName info.queueName = queue)
    (h : Interrupted self faults id w.store) :
    DrainEnds pid role chances faults
      (fun _ after => after.store.Back queue self.workerId id ↔
        Reached self faults w.store (w.mem self.workerId).running id)
      (drainTasks self fuel) n w := by
  have hrunning : (w.mem self.workerId).running ≠ [] := List.ne_nil_of_mem hmem
  refine ends_bind (awaitRunning_ends fuel hrunning) ?_
  rintro _ k w₁ ⟨rfl, rfl⟩
  refine ends_call (ends_call ?_)
  exact drainJobs_back _ hnodup hmem hqueue h

end Drain

end RRQWorker

namespace Recover

open RRQWorker

-- A dead worker has left a job behind, and another whose hash cannot be parsed.
def strandedWorld (first second : JobId) : World :=
  let hash : JobHash := { status := some "ACTIVE", enqueueTime := some (.val ⟨0⟩) }
  World.ofStore ((((Store.empty.setJob "bad" (some { value := {} })).setJob "good"
    (some { value := hash })).zaddActive "w1" first 0).zaddActive "w1" second 1)

def calmTrial : Trial where
  chances _ := {}
  pages _ := (0, [ACTIVE_JOBS_PREFIX ++ "w1"])
  spared := "good"

theorem waiting_stranded {first second : JobId} (h : first = "good" ∨ second = "good") :
    Waiting (.ofDefaults "w0") "rrq:queue:default" "w1" "good" (strandedWorld first second) where
  orphan := by
    have hpx : Store.empty.PxOk (360000 : Int) := by decide
    exact ⟨rfl, _, _, 360000, rfl, rfl, by decide, by decide, by decide, hpx⟩
  alone := by
    intro other hash hhash
    have hid : hash.id = none := by
      obtain ⟨cell, hcell, rfl⟩ := Option.map_eq_some_iff.mp hhash
      simp only [strandedWorld, World.ofStore, zaddActive, setActive_jobs, setJob_jobs,
        Function.update_apply] at hcell
      split_ifs at hcell
      · obtain rfl := Option.some.inj hcell
        rfl
      · obtain rfl := Option.some.inj hcell
        rfl
      · cases hcell
    rw [hid]
    rfl
  tracked := by
    rcases h with rfl | rfl <;> simp [strandedWorld, World.ofStore, zaddActive]
  dead cell hcell := by cases hcell
  running := rfl

-- A job that a sweep can put back ends in its queue and untracked exactly if the sweep can read
-- and parse, and in a recovery also lock, each job that it comes to before.
theorem sweeps_isolate (self : RRQWorker) (pid : Pid) (fuel : Nat) :
    (∀ (chances : Nat → Chance) (faults : JobId → DrainFaults) (w : World) (id : JobId)
        (info : RunningJobInfo),
      ((w.mem self.workerId).running.map Prod.fst).Nodup →
      (id, info) ∈ (w.mem self.workerId).running → Interrupted self faults id w.store →
      ((run (World.exec pid (.main self.workerId)) (drainOracle chances faults)
          (drainTasks self fuel) 0 w).2.2.store.Back (normalizeQueueName info.queueName)
            self.workerId id ↔
        Reached self faults w.store (w.mem self.workerId).running id)) ∧
    ∀ (trial : Trial) (w : World) (queue : QueueKey) (worker : WorkerId), worker ≠ "" →
      Waiting self queue worker trial.spared w → Lists trial.pages worker fuel 0 →
      (∀ count, (run (World.exec pid (.heartbeat self.workerId)) trial.oracle
        (recoverOrphanedJobs self fuel) 0 w).1 = .ok count → count < MAX_RECOVERIES_PER_TICK) →
      ((run (World.exec pid (.heartbeat self.workerId)) trial.oracle
          (recoverOrphanedJobs self fuel) 0 w).2.2.store.Back queue worker trial.spared ↔
        (trial.watch self pid worker).outlook (recoverOrphanedJobs self fuel) 0 w ≠ .failed) :=
  ⟨fun _ _ _ _ _ hnodup hmem h => drainTasks_back fuel hnodup hmem rfl h,
    fun _ _ _ _ hworker hw hlists hroom => sweepPages_back hworker fuel hw hlists hroom⟩

theorem sweeps_isolate_sample :
    (Interrupted (.ofDefaults "w0") (fun _ => {}) "j" lostWorld.store ∧
      (run (World.exec 0 (.main "w0")) (drainOracle (fun _ => {}) fun _ => {})
        (drainTasks (.ofDefaults "w0") 1) 0 lostWorld).2.2.store.Back "rrq:queue:default" "w0"
          "j") ∧
    (run (World.exec 0 (.heartbeat "w0")) calmTrial.oracle
      (recoverOrphanedJobs (.ofDefaults "w0") 1) 0 (strandedWorld "good" "bad")).2.2.store.Back
        "rrq:queue:default" "w1" "good" := by
  have hboth := sweeps_isolate (.ofDefaults "w0") 0 1
  have hloads : Loads (.ofDefaults "w0") (fun _ => {}) lostWorld.store "j" :=
    ⟨rfl, fun raw hraw => by cases hraw; exact ⟨_, rfl⟩⟩
  have hjob : Interrupted (.ofDefaults "w0") (fun _ => {}) "j" lostWorld.store :=
    ⟨⟨.Active, rfl, by decide⟩, hloads, by decide, rfl⟩
  refine ⟨⟨hjob, ?_⟩, ?_⟩
  · exact (hboth.1 (fun _ => {}) (fun _ => {}) lostWorld "j" { queueName := "rrq:queue:default" }
      (by decide) List.mem_cons_self hjob).mpr ⟨hloads, .inl rfl⟩
  · refine (hboth.2 calmTrial (strandedWorld "good" "bad") _ "w1" (by decide)
      (waiting_stranded (.inl rfl)) (.inl ⟨_, List.mem_singleton.mpr rfl, ?_⟩) ?_).mpr ?_
    · exact ⟨by decide, by decide⟩
    · intro count hcount
      have hanswer : (run (World.exec 0 (.heartbeat "w0")) calmTrial.oracle
          (recoverOrphanedJobs (.ofDefaults "w0") 1) 0 (strandedWorld "good" "bad")).1 =
          .error (.parse .invalidJobStatus) := by decide +kernel
      exact absurd (hanswer.symm.trans hcount) nofun
    · decide +kernel

-- The hash of the job before cannot be parsed.
theorem sweeps_strand : ¬ ∀ (self : RRQWorker) (pid : Pid) (fuel : Nat) (trial : Trial)
    (w : World) (queue : QueueKey) (worker : WorkerId), worker ≠ "" →
    Waiting self queue worker trial.spared w → Lists trial.pages worker fuel 0 →
    (∀ count, (run (World.exec pid (.heartbeat self.workerId)) trial.oracle
      (recoverOrphanedJobs self fuel) 0 w).1 = .ok count → count < MAX_RECOVERIES_PER_TICK) →
    (run (World.exec pid (.heartbeat self.workerId)) trial.oracle
      (recoverOrphanedJobs self fuel) 0 w).2.2.store.Back queue worker trial.spared := by
  intro h
  have hback := h (.ofDefaults "w0") 0 1 calmTrial (strandedWorld "bad" "good") _ "w1" (by decide)
    (waiting_stranded (.inr rfl)) (.inl ⟨_, List.mem_singleton.mpr rfl, by decide, by decide⟩) ?_
  · have htracked : "good" ∈ (run (World.exec 0 (.heartbeat "w0")) calmTrial.oracle
        (recoverOrphanedJobs (.ofDefaults "w0") 1) 0 (strandedWorld "bad" "good")).2.2.store.active
          "w1" := by decide +kernel
    exact hback.untracked htracked
  · intro count hcount
    have hanswer : (run (World.exec 0 (.heartbeat "w0")) calmTrial.oracle
        (recoverOrphanedJobs (.ofDefaults "w0") 1) 0 (strandedWorld "bad" "good")).1 =
        .error (.parse .invalidJobStatus) := by decide +kernel
    exact absurd (hanswer.symm.trans hcount) nofun

end Recover

end Rrq
