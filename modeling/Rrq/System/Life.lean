import Rrq.Producer.Status
import Rrq.Worker.Execute.Budget

-- The life of a job, from the call that hands it over to what the producer reads of it.

namespace Rrq

open Prog Store

-- Whose turn it is with a job: nobody's, that of the worker that has claimed it, or the job has
-- come to its end in one of two ways.
inductive Chapter where
  | idle
  | taken (worker : WorkerId)
  | doomed
  | done (value : Json)

-- The life of a job, step by step: how often it has failed, and where it has come to. Programs
-- about the job run alone, and nothing befalls their commands.
inductive Life (id : JobId) (budget : Int) : Int → Chapter → Store → Prop
  | enqueued {config : Producer.Config} {functionName : String} {params : Params}
      {options : Producer.EnqueueOptions} {role : Role} {oracle : Nat → Op → Chance} {w : World}
      (call : Producer.Submission) (pid : Pid) (n : Nat) : w.store.Clear id →
      options.maxRetries.getD config.defaultMaxRetries = budget →
      (Prog.run (World.exec pid role) oracle
        (call.program config functionName params options) n w).1 = .ok (some id) →
        Life id budget 0 .idle (Prog.run (World.exec pid role) oracle
          (call.program config functionName params options) n w).2.2.store
  | others {failures : Int} {chapter : Chapter} {s t : Store} :
      Life id budget failures chapter s → Untouched id s t → Life id budget failures chapter t
  | claimed {failures : Int} {chapter : Chapter} {s t : Store} {args : Scripts.ClaimArgs}
      {page : Nat × List String} {ids : List JobId} : Life id budget failures chapter s →
      (Cmd.atomicClaimReadyJobs args).exec .none page s = (.ok ids, t) → id ∈ ids →
        Life id budget failures (.taken args.workerId) t
  | failed {failures : Int} {self : RRQWorker} {w : World} {job : Job} {queueName : QueueKey}
      {oracle : Nat → Op → Chance} {result : RunnerExecutionResult} (pid : Pid) (n : Nat) :
      Life id budget failures (.taken self.workerId) w.store →
      Loaded self.settings id w.store job →
      RRQWorker.Dispatched self job queueName (oracle n .utcNow).now → RRQWorker.Calm oracle →
      (∀ n op, (oracle n op).result = result) → Failing result →
        Life id budget (failures + 1) .idle (Prog.run (World.exec pid (.task self.workerId)) oracle
          (self.executeJob job queueName) n w).2.2.store
  | doomed {failures : Int} {self : RRQWorker} {w : World} {job : Job} {queueName : QueueKey}
      {oracle : Nat → Op → Chance} {result : RunnerExecutionResult} (pid : Pid) (n : Nat) :
      Life id budget failures (.taken self.workerId) w.store →
      Loaded self.settings id w.store job →
      RRQWorker.Dispatched self job queueName (oracle n .utcNow).now → RRQWorker.Calm oracle →
      (∀ n op, (oracle n op).result = result) → Dooming result →
        Life id budget (failures + 1) .doomed (Prog.run (World.exec pid (.task self.workerId))
          oracle (self.executeJob job queueName) n w).2.2.store
  | refused {failures : Int} {self : RRQWorker} {w : World} {job : Job} {queueName : QueueKey}
      {oracle : Nat → Op → Chance} (pid : Pid) (n : Nat) :
      Life id budget failures (.taken self.workerId) w.store →
      Loaded self.settings id w.store job → RRQWorker.Fatal self job queueName →
      ((oracle n .utcNow).now.addSeconds
        (job.jobTimeoutSeconds.getD self.settings.defaultJobTimeoutSeconds)).isSome →
      RRQWorker.Calm oracle →
        Life id budget (failures + 1) .doomed (Prog.run (World.exec pid (.task self.workerId))
          oracle (self.executeJob job queueName) n w).2.2.store
  | delivered {failures : Int} {self : RRQWorker} {w : World} {job : Job} {queueName : QueueKey}
      {oracle : Nat → Op → Chance} {result : RunnerExecutionResult} {value : Json} (pid : Pid)
      (n : Nat) : Life id budget failures (.taken self.workerId) w.store →
      Loaded self.settings id w.store job →
      RRQWorker.Dispatched self job queueName (oracle n .utcNow).now → RRQWorker.Calm oracle →
      (∀ n op, (oracle n op).result = result) → Succeeding value result →
        Life id budget failures (.done value) (Prog.run (World.exec pid (.task self.workerId))
          oracle (self.executeJob job queueName) n w).2.2.store
  | drained {failures : Int} {self : RRQWorker} {w : World} {job : Job}
      {oracle : Nat → Op → Chance} (pid : Pid) (n : Nat) (info : RunningJobInfo) :
      Life id budget failures (.taken self.workerId) w.store →
      Loaded self.settings id w.store job → RRQWorker.Calm oracle →
        Life id budget failures .idle (Prog.run (World.exec pid (.main self.workerId)) oracle
          (self.drainJob id info) n w).2.2.store
  | released {failures : Int} {self : RRQWorker} {w : World} {job : Job}
      {oracle : Nat → Op → Chance} (pid : Pid) (n : Nat) (queueName : QueueKey)
      (pendingError : Option String) : Life id budget failures (.taken self.workerId) w.store →
      Loaded self.settings id w.store job → RRQWorker.Calm oracle →
        Life id budget failures .idle (Prog.run (World.exec pid (.main self.workerId)) oracle
          (self.releaseClaimedJob queueName id job pendingError) n w).2.2.store
  | recovered {failures : Int} {self : RRQWorker} {worker : WorkerId} {w : World}
      {oracle : Nat → Op → Chance} (pid : Pid) (n : Nat) :
      Life id budget failures (.taken worker) w.store → RRQWorker.Calm oracle →
      (Prog.run (World.exec pid (.heartbeat self.workerId)) oracle
        (Recover.recoverJob self worker id) n w).1 = .ok .recovered →
        Life id budget failures .idle (Prog.run (World.exec pid (.heartbeat self.workerId)) oracle
          (Recover.recoverJob self worker id) n w).2.2.store

-- Where the store has the job after so many failures.
def Accounts (id : JobId) (failures budget : Int) (s : Store) : Chapter → Prop
  | .idle =>
      if failures < max 1 budget then s.Waiting id failures budget
      else s.Buried id failures budget
  | .taken worker => failures < max 1 budget ∧ s.Running id failures budget worker
  | .doomed => s.Buried id failures budget
  | .done value => failures < max 1 budget ∧ s.Delivered id failures budget value

structure Reckoned (id : JobId) (budget failures : Int) (chapter : Chapter) (s : Store) :
    Prop where
  nonneg : 0 ≤ failures
  le : failures ≤ max 1 budget
  accounts : Accounts id failures budget s chapter

section Life

variable {id : JobId} {budget failures : Int} {chapter : Chapter} {s t : Store}

theorem Store.Waiting.untouched (h : s.Waiting id failures budget) (hu : Untouched id s t) :
    t.Waiting id failures budget := by
  obtain ⟨hash, queue, hs, hrest⟩ := h
  exact ⟨hash, queue, hs.untouched hu, hrest⟩

theorem Store.Running.untouched {worker : WorkerId} (h : s.Running id failures budget worker)
    (hu : Untouched id s t) : t.Running id failures budget worker := by
  obtain ⟨hash, hs, hrest⟩ := h
  exact ⟨hash, hs.untouched hu, hrest⟩

theorem Store.Buried.untouched (h : s.Buried id failures budget) (hu : Untouched id s t) :
    t.Buried id failures budget := by
  obtain ⟨hash, name, hs, hrest⟩ := h
  exact ⟨hash, name, hs.untouched hu, hrest⟩

theorem Store.Delivered.untouched {value : Json} (h : s.Delivered id failures budget value)
    (hu : Untouched id s t) : t.Delivered id failures budget value := by
  obtain ⟨hash, hs, hrest⟩ := h
  exact ⟨hash, hs.untouched hu, hrest⟩

theorem Reckoned.untouched (h : Reckoned id budget failures chapter s)
    (hu : Untouched id s t) : Reckoned id budget failures chapter t := by
  refine ⟨h.nonneg, h.le, ?_⟩
  have haccounts := h.accounts
  cases chapter with
  | idle =>
      unfold Accounts at haccounts ⊢
      split_ifs at haccounts ⊢
      · exact haccounts.untouched hu
      · exact haccounts.untouched hu
  | taken worker => exact ⟨haccounts.1, haccounts.2.untouched hu⟩
  | doomed => exact Store.Buried.untouched haccounts hu
  | done value => exact ⟨haccounts.1, haccounts.2.untouched hu⟩

theorem Reckoned.lt {worker : WorkerId} (h : Reckoned id budget failures (.taken worker) s) :
    failures < max 1 budget := h.accounts.1

theorem Reckoned.running {worker : WorkerId}
    (h : Reckoned id budget failures (.taken worker) s) :
    s.Running id failures budget worker := h.accounts.2

theorem Reckoned.tallies {worker : WorkerId} (h : Reckoned id budget failures (.taken worker) s)
    (hm : InI64 budget) : RRQWorker.Tallies failures := by
  have hless := h.lt
  have hhigh := hm.2
  refine ⟨h.nonneg, ?_⟩
  unfold I64_MAX at *
  omega

-- The job is back in a queue, and nothing is counted.
theorem Reckoned.back {worker : WorkerId} (h : Reckoned id budget failures (.taken worker) s)
    (hw : t.Waiting id failures budget) : Reckoned id budget failures .idle t where
  nonneg := h.nonneg
  le := h.le
  accounts := (if_pos h.lt).mpr hw

theorem Reckoned.failed {worker : WorkerId} (h : Reckoned id budget failures (.taken worker) s)
    (ht : t.AfterFailure id failures budget) : Reckoned id budget (failures + 1) .idle t := by
  have hless := h.lt
  have hlow := h.nonneg
  refine ⟨by omega, by omega, ?_⟩
  unfold AfterFailure at ht
  unfold Accounts
  split_ifs at ht with hlast
  · rw [if_neg (by omega)]
    exact ht
  · rw [if_pos (by omega)]
    exact ht.1

theorem Reckoned.buried {worker : WorkerId} (h : Reckoned id budget failures (.taken worker) s)
    (ht : t.Buried id (failures + 1) budget) : Reckoned id budget (failures + 1) .doomed t := by
  have hless := h.lt
  have hlow := h.nonneg
  exact ⟨by omega, by omega, ht⟩

-- Only a job that waits in a queue can be claimed.
theorem Reckoned.waiting {queue : QueueKey} (h : Reckoned id budget failures chapter s)
    (hqueued : id ∈ s.queues queue) :
    failures < max 1 budget ∧ s.Waiting id failures budget := by
  have haccounts := h.accounts
  cases chapter with
  | idle =>
      unfold Accounts at haccounts
      split_ifs at haccounts with hless
      · exact ⟨hless, haccounts⟩
      · obtain ⟨hash, name, hs, -⟩ := haccounts
        cases (hs.queued _).mp hqueued
  | taken worker =>
      obtain ⟨-, hash, hs, -⟩ := haccounts
      cases (hs.queued _).mp hqueued
  | doomed =>
      obtain ⟨hash, name, hs, -⟩ := haccounts
      cases (hs.queued _).mp hqueued
  | done value =>
      obtain ⟨-, hash, hs, -⟩ := haccounts
      cases (hs.queued _).mp hqueued

theorem Reckoned.claimed {args : Scripts.ClaimArgs} {page : Nat × List String} {ids : List JobId}
    (h : Reckoned id budget failures chapter s)
    (hexec : (Cmd.atomicClaimReadyJobs args).exec .none page s = (.ok ids, t)) (hid : id ∈ ids) :
    Reckoned id budget failures (.taken args.workerId) t := by
  obtain ⟨hless, hash, queue, hs, hb, -⟩ := h.waiting (Cmd.atomicClaimReadyJobs_mem hexec hid)
  obtain ⟨taken, -, -, hclaims, hanswer⟩ := Cmd.atomicClaimReadyJobs_inv (.inl rfl) hexec
  obtain rfl := hanswer ids rfl
  have hdlq : t.dlq = s.dlq :=
    Cmd.frame_of_exec frame_sameDlq (by simp [Cmd.kinds]) hexec
  obtain ⟨-, hstands⟩ := hs.taken (hclaims.taken id hid) hdlq rfl
  exact ⟨h.nonneg, h.le, hless, _, hstands, ⟨hb.id, hb.failures, hb.budget, hb.result⟩, rfl, rfl⟩

-- A call that comes back with a new job has left it waiting.
theorem reckoned_enqueued {config : Producer.Config} {functionName : String} {params : Params}
    {options : Producer.EnqueueOptions} {role : Role} {oracle : Nat → Op → Chance} {w : World}
    {call : Producer.Submission} {pid : Pid} {n : Nat} (hclear : w.store.Clear id)
    (hbudget : options.maxRetries.getD config.defaultMaxRetries = budget)
    (hanswer : (Prog.run (World.exec pid role) oracle
      (call.program config functionName params options) n w).1 = .ok (some id)) :
    Reckoned id budget 0 .idle (Prog.run (World.exec pid role) oracle
      (call.program config functionName params options) n w).2.2.store := by
  obtain ⟨args, rfl, he, hs⟩ := Producer.program_stands call hclear hanswer
  have hb : Bears args.id 0 budget args.mapping :=
    ⟨rfl, rfl, congrArg (fun n => some (IntText.int n)) (he.maxRetries.trans hbudget), rfl⟩
  exact ⟨le_rfl, by omega, (if_pos (by omega)).mpr ⟨_, _, hs, hb, .inl rfl⟩⟩

theorem Life.reckoned (hm : InI64 budget) (hl : Life id budget failures chapter s) :
    Reckoned id budget failures chapter s := by
  induction hl with
  | enqueued call pid n hclear hbudget hanswer => exact reckoned_enqueued hclear hbudget hanswer
  | others _ hu ih => exact ih.untouched hu
  | claimed _ hexec hid ih => exact ih.claimed hexec hid
  | failed pid n _ hload hd hcalm hresult hfailing ih =>
      exact ih.failed (RRQWorker.executeJob_fails hcalm hresult hfailing ih.running hload
        (ih.tallies hm) hm hd)
  | doomed pid n _ hload hd hcalm hresult hdooming ih =>
      exact ih.buried (RRQWorker.executeJob_dooms hcalm hresult hdooming ih.running hload
        (ih.tallies hm) hm hd)
  | refused pid n _ hload hfatal hdeadline hcalm ih =>
      exact ih.buried (RRQWorker.executeJob_refuses hcalm ih.running hload (ih.tallies hm) hm
        hfatal hdeadline)
  | delivered pid n _ hload hd hcalm hresult hsucceeding ih =>
      exact ⟨ih.nonneg, ih.le, ih.lt, RRQWorker.executeJob_delivers hcalm hresult hsucceeding
        ih.running hload (ih.tallies hm) hm hd⟩
  | drained pid n info _ hload hcalm ih =>
      exact ih.back (RRQWorker.drainJob_waits hcalm ih.running hload info)
  | released pid n queueName pendingError _ hload hcalm ih =>
      exact ih.back (RRQWorker.releaseClaimedJob_waits hcalm ih.running (ih.tallies hm) hm hload
        queueName pendingError)
  | recovered pid n _ hcalm hanswer ih =>
      exact ih.back (RRQWorker.recoverJob_waits hcalm ih.running hanswer)

-- However often a job is drained, released or recovered meanwhile, it fails max(1, max_retries)
-- times at most. Until then it waits in one queue or is with one worker, and after the last
-- failure it has failed for good, with one entry in one dead letter queue.
theorem Life.budgeted (hm : InI64 budget) (hl : Life id budget failures chapter s) :
    0 ≤ failures ∧ failures ≤ max 1 budget ∧ Accounts id failures budget s chapter :=
  ⟨(hl.reckoned hm).nonneg, (hl.reckoned hm).le, (hl.reckoned hm).accounts⟩

-- What the producer is to be told.
def Chapter.Told (failures budget : Int) (answer : Producer.JobResult) : Chapter → Prop
  | .idle => answer.result = none ∧
      if failures < max 1 budget then answer.status = .Pending ∨ answer.status = .Retrying
      else answer.status = .Failed
  | .taken _ => answer.result = none ∧ answer.status = .Active
  | .doomed => answer.result = none ∧ answer.status = .Failed
  | .done value => answer.result = Producer.parseResult (.val value) ∧ answer.status = .Completed

-- What the hash of a job tells.

theorem result_ofData {h : JobHash} {value : Json} (hb : Bears id failures budget h value) :
    (Producer.JobResult.ofData h).result = Producer.parseResult (.val value) := by
  simp [Producer.JobResult.ofData, hb.result]

theorem status_ofData {h : JobHash} {status : JobStatus} (hstatus : h.status = some status.asStr) :
    (Producer.JobResult.ofData h).status = Producer.Status.fromStr status.asStr := by
  simp [Producer.JobResult.ofData, hstatus]

theorem Accounts.stated (h : Accounts id failures budget s chapter) : ∃ data p,
    s.Stands id data p ∧ chapter.Told failures budget (.ofData data) := by
  cases chapter with
  | idle =>
      unfold Accounts at h
      unfold Chapter.Told
      split_ifs at h ⊢
      · obtain ⟨data, queue, hs, hb, hstatus⟩ := h
        refine ⟨data, _, hs, result_ofData hb, ?_⟩
        rcases hstatus with hstatus | hstatus
        · exact .inl ((status_ofData hstatus).trans (by decide))
        · exact .inr ((status_ofData hstatus).trans (by decide))
      · obtain ⟨data, name, hs, hb, hstatus⟩ := h
        exact ⟨data, _, hs, result_ofData hb, (status_ofData hstatus).trans (by decide)⟩
  | taken worker =>
      obtain ⟨-, data, hs, hb, hstatus, -⟩ := h
      exact ⟨data, _, hs, result_ofData hb, (status_ofData hstatus).trans (by decide)⟩
  | doomed =>
      obtain ⟨data, name, hs, hb, hstatus⟩ := h
      exact ⟨data, _, hs, result_ofData hb, (status_ofData hstatus).trans (by decide)⟩
  | done value =>
      obtain ⟨-, data, hs, hb, hstatus⟩ := h
      exact ⟨data, _, hs, result_ofData hb, (status_ofData hstatus).trans (by decide)⟩

-- At any point of the life of a job the producer reads what has become of it. It reads a job as
-- completed if an execution has succeeded and not before, and with the value of that execution.
theorem Life.told (hm : InI64 budget) {w : World} (hl : Life id budget failures chapter w.store)
    {oracle : Nat → Op → Chance} (hcalm : RRQWorker.Calm oracle) (pid : Pid) (n : Nat) :
    ∃ answer, (Prog.run (World.exec pid .client) oracle (Producer.getJobStatus id) n w).1 =
        .ok (some answer) ∧ chapter.Told failures budget answer ∧
      (Prog.run (World.exec pid .client) oracle (Producer.getJobStatus id) n w).2.2.store =
        w.store := by
  obtain ⟨data, p, hs, htold⟩ := (hl.reckoned hm).accounts.stated
  have hread : Prog.Ends (World.exec pid .client) oracle _ (Producer.getJobStatus id) n w :=
    Producer.getJobStatus_stands hcalm hs
  exact ⟨_, hread.1, htold, hread.2⟩

end Life

-- A job that may fail once, and its first claim.

def lifeOptions : Producer.EnqueueOptions :=
  { jobId := some "j", maxRetries := some 1, enqueueTime := some ⟨0⟩ }

abbrev lifeRun : Except EnqueueError (Option JobId) × Nat × World :=
  Prog.run (World.exec 0 .client) (fun _ _ => {})
    (Producer.Submission.program {} "f" [] lifeOptions .enqueue) 0 (.ofStore .empty)

def lifeArgs : Scripts.ClaimArgs where
  queueKey := "rrq:queue:default"
  workerId := "w0"
  nowMs := 0
  maxClaims := 1
  defaultLockTimeoutMs := 360000
  lockTimeoutExtensionSeconds := 60
  startTime := ⟨0⟩

def lifeClaimed : Store :=
  ((Cmd.atomicClaimReadyJobs lifeArgs).exec .none (0, []) lifeRun.2.2.store).2

theorem life_claimed : Life "j" 1 0 (.taken "w0") lifeClaimed := by
  have hclear : Store.empty.Clear "j" := ⟨rfl, by simp [Store.empty], by simp [Store.empty], rfl,
    fun _ => rfl⟩
  have hrun : lifeRun.1 = .ok (some "j") := by decide +kernel
  have hanswer : ((Cmd.atomicClaimReadyJobs lifeArgs).exec .none (0, []) lifeRun.2.2.store).1 =
      .ok ["j"] := by
    decide +kernel
  exact .claimed (.enqueued .enqueue 0 0 hclear rfl hrun) (Prod.ext hanswer rfl)
    List.mem_cons_self

-- The definition of the claimed job, as its worker reads it.
def lifeJob : Option Job :=
  (lifeClaimed.hash "j").bind fun raw => (parseJobMap raw "j" 5).toOption

theorem dispatched_lifeJob : ∃ job, Loaded (RRQWorker.ofDefaults "w0").settings "j" lifeClaimed job ∧
    RRQWorker.Dispatched (.ofDefaults "w0") job "rrq:queue:default" ⟨0⟩ := by
  have htest : lifeJob.map (fun job => decide ((checkedAdd job.currentRetries 1).isSome ∧
      0 < job.jobTimeoutSeconds.getD 300 ∧
      ((⟨0⟩ : DateTime).addSeconds (job.jobTimeoutSeconds.getD 300)).isSome ∧
      (splitRunnerName job.functionName).2 ≠ "" ∧
      (splitRunnerName job.functionName).1.getD
        ((resolveRoutedRunner [] "rrq:queue:default").getD "python") ∈ ["python"])) = some true := by
    decide +kernel
  obtain ⟨job, hjob, hready⟩ := Option.map_eq_some_iff.mp htest
  obtain ⟨hcount, htimeout, hdeadline, hhandler, hrunner⟩ := of_decide_eq_true hready
  obtain ⟨raw, hraw, hparse⟩ := Option.bind_eq_some_iff.mp hjob
  refine ⟨job, ⟨raw, job, job.startTime, hraw, ?_, rfl⟩,
    ⟨hcount, htimeout, hdeadline, hhandler, hrunner⟩⟩
  cases hresult : parseJobMap raw "j" 5 with
  | error error =>
      rw [hresult] at hparse
      cases hparse
  | ok found =>
      rw [hresult] at hparse
      exact hresult.trans (congrArg Except.ok (Option.some.inj hparse))

theorem Life.budgeted_single : ∃ s, Life "j" 1 1 .idle s ∧ s.Buried "j" 1 1 := by
  obtain ⟨job, hloaded, hd⟩ := dispatched_lifeJob
  have hfailing : Failing (.Completed (.error "lost")) := trivial
  have hfailed : Life "j" 1 (0 + 1) .idle (Prog.run
      (World.exec 0 (.task (RRQWorker.ofDefaults "w0").workerId))
      (fun _ _ => { result := .Completed (.error "lost") })
      ((RRQWorker.ofDefaults "w0").executeJob job "rrq:queue:default") 0
      (.ofStore lifeClaimed)).2.2.store :=
    .failed 0 0 life_claimed hloaded hd (fun _ _ => rfl) (fun _ _ => rfl) hfailing
  exact ⟨_, hfailed, (Life.budgeted (by decide) hfailed).2.2⟩

theorem Life.told_single : ∃ (w : World) (answer : Producer.JobResult),
    Life "j" 1 0 (.done (.bool true)) w.store ∧
      (Prog.run (World.exec 0 .client) (fun _ _ => {}) (Producer.getJobStatus "j") 0 w).1 =
        .ok (some answer) ∧ answer.result = some (.bool true) ∧ answer.status = .Completed := by
  obtain ⟨job, hloaded, hd⟩ := dispatched_lifeJob
  have hsucceeding : Succeeding (.bool true)
      (.Completed (.ok { status := .Success, result := some (.bool true) })) := ⟨rfl, rfl⟩
  have hdone : Life "j" 1 0 (.done (.bool true)) (Prog.run
      (World.exec 0 (.task (RRQWorker.ofDefaults "w0").workerId))
      (fun _ _ => { result := .Completed (.ok { status := .Success, result := some (.bool true) }) })
      ((RRQWorker.ofDefaults "w0").executeJob job "rrq:queue:default") 0
      (.ofStore lifeClaimed)).2.2.store :=
    .delivered 0 0 life_claimed hloaded hd (fun _ _ => rfl) (fun _ _ => rfl) hsucceeding
  have hcalm : RRQWorker.Calm fun _ _ => {} := fun _ _ => rfl
  obtain ⟨answer, hanswer, ⟨hresult, hstatus⟩, -⟩ := Life.told (by decide) hdone hcalm 0 0
  exact ⟨_, answer, hdone, hanswer, hresult, hstatus⟩

end Rrq
