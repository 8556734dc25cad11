import Rrq.System.Permits

-- What the programs of a worker take, whatever is to be shown of their operations.

namespace Rrq

open Prog

-- The commands that record what came of an execution.
def Cmd.Records : Cmd → Prop
  | atomicMoveJobToDlq _ _ _ _ _ _ => True
  | atomicRetryJob _ _ _ _ status => status = .Retrying
  | updateJobNextScheduledRunTime _ _ => True
  | saveJobResult _ _ _ _ => True
  | releaseUniqueJobLock _ => True
  | _ => False

structure WorkerCode (owner : RRQWorker) (permits : Op → Prop)
    (possible : (op : Op) → op.Reply → Prop) : Prop where
  release : ReleaseCode owner permits possible
  own : ∀ op, op.Local owner.workerId → permits op
  claim : ∀ args, args.workerId = owner.workerId → 0 < args.maxClaims →
    permits (.redis (.atomicClaimReadyJobs args))
  refresh : ∀ id ms, permits (.redis (.refreshJobLockTimeout id owner.workerId ms))
  requeue : ∀ args, args.releasingOwner = owner.workerId →
    args.activeWorkerId = some owner.workerId → permits (.redis (.atomicRequeueJob args))
  records : ∀ c : Cmd, c.Records → permits (.redis c)

namespace WorkerCode

variable {self : RRQWorker} {permits : Op → Prop} {possible : (op : Op) → op.Reply → Prop}
  (h : WorkerCode self permits possible)

include h

-- The poll loop.

theorem dispatch (queueName : QueueKey) (job : Job) (startTime : DateTime) :
    (self.dispatch queueName job startTime).Issues permits possible :=
  issues_call (h.own _ rfl) fun _ _ => issues_call (h.own _ rfl) fun _ _ =>
    issues_perform (h.own _ rfl)

theorem dispatchBatch (queueName : QueueKey) (count : Nat) (claimStartTime : DateTime)
    (batch : List (JobId × Option Job)) (fetched : Nat) :
    (self.dispatchBatch queueName count claimStartTime batch fetched).Issues permits possible := by
  induction batch generalizing fetched with
  | nil => trivial
  | cons entry batch ih =>
      obtain ⟨id, jobOpt⟩ := entry
      have hfail : ∀ (error : PollError) (message : Option String),
          (self.releaseClaimedJobsFromIndex queueName message ((id, jobOpt) :: batch) >>= fun _ =>
            pure (.error error : Except PollError (Nat × Bool))).Issues permits possible :=
        fun error message =>
          issues_bind (releaseClaimedJobsFromIndex_issues h.release queueName message _) fun _ =>
            trivial
      refine issues_call (h.own _ rfl) fun shutdown _ => ?_
      split_ifs
      · exact issues_bind (releaseRemainingClaimedJobs_issues h.release queueName _ _) fun _ =>
          trivial
      cases jobOpt with
      | none =>
          refine issues_bind ?_ fun _ => ih fetched
          exact quarantineClaimedJobWithoutDefinition_issues h.release queueName id _
      | some job =>
      cases htimeout : RRQWorker.jobLockTimeoutMs self.settings job with
      | none =>
          simp only [htimeout]
          exact hfail _ _
      | some lockTimeoutMs =>
      simp only [htimeout]
      split_ifs
      · exact hfail _ _
      refine issues_call (h.refresh _ _) fun reply _ => ?_
      split
      · exact hfail _ _
      · exact issues_bind (releaseClaimedJob_issues h.release queueName _ job _) fun _ => ih fetched
      · refine issues_call (h.own _ rfl) fun permit _ => ?_
        split_ifs
        · exact issues_bind (h.dispatch queueName job _) fun _ => ih (fetched + 1)
        · exact hfail _ _

theorem pollQueue (queueName : QueueKey) (count requestCount fetched : Nat) :
    (self.pollQueue queueName count requestCount fetched).Issues permits possible := by
  refine issues_call (h.own _ trivial) fun claimStartTime _ => ?_
  refine issues_call (h.own _ trivial) fun now _ => issues_bind ?_ fun claimed => ?_
  · unfold JobStore.atomicClaimReadyJobs
    split_ifs with hmax
    · trivial
    · trivial
    · trivial
    · refine issues_call (h.claim _ rfl (Nat.pos_of_ne_zero hmax)) fun reply _ => ?_
      split <;> trivial
  · split
    · trivial
    · trivial
    · refine issues_bind (getJobDefinitions_issues h.release _ _) fun batch => ?_
      split
      · refine issues_bind ?_ fun _ => trivial
        exact releaseRemainingClaimedJobsWithoutDefinitions_issues h.release queueName _
      · exact h.dispatchBatch queueName count claimStartTime _ fetched

theorem pollSlots (count fairShare : Nat) (slots : List (Nat × QueueKey)) (fetched : Nat) :
    (self.pollSlots count fairShare slots fetched).Issues permits possible := by
  induction slots generalizing fetched with
  | nil => trivial
  | cons slot slots ih =>
      obtain ⟨pass, queueName⟩ := slot
      refine issues_call (h.own _ rfl) fun shutdown _ => ?_
      dsimp only
      generalize (if pass = 0 then min (count - fetched) fairShare else count - fetched) =
        requestCount
      split_ifs
      · trivial
      · exact ih fetched
      · refine issues_bind (h.pollQueue queueName count _ fetched) fun result => ?_
        split
        · trivial
        · exact ih _
        · trivial

theorem pollLoop (fuel cursor : Nat) : (self.pollLoop fuel cursor).Issues permits possible := by
  induction fuel generalizing cursor with
  | zero => trivial
  | succ fuel ih =>
      refine issues_call (h.own _ rfl) fun shutdown _ => ?_
      split_ifs
      · trivial
      refine issues_call (h.own _ rfl) fun fetchCount _ => ?_
      split_ifs
      · exact ih cursor
      refine issues_bind (h.pollSlots _ _ _ _) fun result => ?_
      split
      · trivial
      · refine issues_call (h.own _ rfl) fun running _ => ?_
        split_ifs
        · trivial
        · exact ih (cursor + 1)
      · exact ih (cursor + 1)

-- The shutdown.

theorem awaitRunning (fuel : Nat) : (self.awaitRunning fuel).Issues permits possible := by
  induction fuel with
  | zero => trivial
  | succ fuel ih =>
      refine issues_call (h.own _ rfl) fun running _ => ?_
      split_ifs
      · trivial
      · refine issues_call (h.own _ rfl) fun expired _ => ?_
        split_ifs
        · trivial
        · exact ih

theorem drainJob (id : JobId) (info : RunningJobInfo) :
    (self.drainJob id info).Issues permits possible := by
  have hcleanup : (redis (.removeActiveJob self.workerId id) >>= fun _ =>
      redis (.releaseJobLockIfOwner id self.workerId) >>= fun _ =>
        pure (.ok () : Except JobStore.LoadError Unit)).Issues permits possible :=
    issues_call (h.release.commands _ rfl) fun _ _ =>
      issues_call (h.release.commands _ rfl) fun _ _ => trivial
  refine issues_bind (getJobDefinition_issues _ id (h.release.commands _ trivial)) fun job => ?_
  split
  · trivial
  · dsimp only
    split
    · split_ifs
      · refine issues_bind ?_ fun _ => hcleanup
        exact issues_call h.release.clock fun now _ => issues_call (h.requeue _ rfl rfl) fun _ _ =>
          trivial
      · exact hcleanup
    · exact hcleanup

theorem drainJobs (running : List (JobId × RunningJobInfo)) :
    (self.drainJobs running).Issues permits possible := by
  induction running with
  | nil => trivial
  | cons entry running ih =>
      refine issues_bind (h.drainJob entry.1 entry.2) fun result => ?_
      split
      · trivial
      · exact ih

theorem drainTasks (fuel : Nat) : (self.drainTasks fuel).Issues permits possible := by
  refine issues_bind (h.awaitRunning fuel) fun done => ?_
  split_ifs
  · trivial
  · exact issues_call (h.own _ rfl) fun running _ => issues_call (h.own _ rfl) fun _ _ =>
      h.drainJobs running

theorem run (fuel : Nat) : (self.run fuel).Issues permits possible := by
  refine issues_call (h.own _ rfl) fun _ _ => issues_bind (h.pollLoop fuel 0) fun finish => ?_
  split
  · trivial
  · trivial
  · exact issues_call (h.own _ rfl) fun _ _ => issues_bind (h.drainTasks fuel) fun _ => trivial

-- The execution of a job.

theorem moveToDlq (settings : RRQSettings) (job : Job) (message : String) :
    (Rrq.moveToDlq settings job message).Issues permits possible := by
  refine issues_call h.release.clock fun now _ => issues_call (h.records _ trivial) fun reply _ => ?_
  split
  · trivial
  · split_ifs <;> trivial

theorem scheduleRetry (settings : RRQSettings) (job : Job) (message : String) (delay : ℚ) :
    (Rrq.scheduleRetry settings job message delay).Issues permits possible := by
  refine issues_call h.release.clock fun now _ => issues_call (h.records _ rfl) fun reply _ => ?_
  split
  · trivial
  · have hnote : ∀ time, (redis (.updateJobNextScheduledRunTime job.id time) >>= fun _ =>
        pure (.ok () : Outcome)).Issues permits possible :=
      fun time => issues_call (h.records _ trivial) fun _ _ => trivial
    dsimp only
    split
    · exact hnote _
    · exact issues_call h.release.clock fun now _ => hnote now

theorem retryOrMove (settings : RRQSettings) (job : Job) (message : String)
    (delaySeconds : Int → ℚ) :
    (Rrq.retryOrMove settings job message delaySeconds).Issues permits possible := by
  unfold Rrq.retryOrMove
  split
  · trivial
  · split_ifs
    · exact h.moveToDlq settings job message
    · exact h.scheduleRetry settings job message _

theorem handleSuccess (settings : RRQSettings) (job : Job) (result : Json) :
    (Rrq.handleSuccess settings job result).Issues permits possible := by
  refine issues_call h.release.clock fun now _ => issues_call (h.records _ trivial) fun reply _ => ?_
  split
  · trivial
  · split
    · trivial
    · refine issues_call (h.records _ trivial) fun reply _ => ?_
      split <;> trivial

theorem handleExecutionResult (settings : RRQSettings) (job : Job) (jobTimeout : Int)
    (result : RunnerExecutionResult) :
    (Rrq.handleExecutionResult settings job jobTimeout result).Issues permits possible := by
  unfold Rrq.handleExecutionResult
  split
  · unfold handleExecutionOutcome
    split
    · exact h.handleSuccess settings job _
    · exact h.retryOrMove settings job _ _
    · exact h.moveToDlq settings job _
    · split_ifs
      · exact h.moveToDlq settings job _
      · exact h.retryOrMove settings job _ _
  · exact h.retryOrMove settings job _ _
  · exact h.moveToDlq settings job _

theorem cleanupRunning (id : JobId) : (self.cleanupRunning id).Issues permits possible := by
  refine issues_call (h.release.commands _ rfl) fun _ _ =>
    issues_call (h.release.commands _ rfl) fun _ _ => ?_
  refine issues_call (h.own _ rfl) fun _ _ => issues_call (h.own _ rfl) fun _ _ => ?_
  split <;> trivial

theorem failFatally (job : Job) (message : String) :
    (self.failFatally job message).Issues permits possible := by
  refine issues_bind (h.moveToDlq self.settings job message) fun outcome => ?_
  split
  · trivial
  · exact h.cleanupRunning job.id

theorem finishJob (job : Job) {record : Proc Outcome} (hr : record.Issues permits possible) :
    (self.finishJob job record).Issues permits possible := by
  refine issues_bind hr fun outcome => ?_
  split
  · trivial
  · exact issues_bind (h.cleanupRunning job.id) fun _ => trivial
  · exact h.cleanupRunning job.id

theorem dispatchToRunner (job : Job) (queueName : QueueKey) (jobTimeout : Int) :
    (self.dispatchToRunner job queueName jobTimeout).Issues permits possible := by
  unfold RRQWorker.dispatchToRunner
  dsimp only
  split_ifs
  · exact h.failFatally job _
  · refine issues_call (h.own _ rfl) fun _ _ => issues_call (h.own _ trivial) fun requestId _ => ?_
    refine issues_call (h.own _ rfl) fun _ _ => issues_call (h.own _ rfl) fun result _ => ?_
    exact h.finishJob job (h.handleExecutionResult self.settings job jobTimeout result)
  · exact issues_call (h.own _ rfl) fun _ _ => h.failFatally job _

theorem taskProgram (job : Job) (queueName : QueueKey) :
    (self.taskProgram job queueName).Issues permits possible := by
  refine issues_bind ?_ fun _ => trivial
  unfold RRQWorker.executeJob
  split
  · trivial
  · dsimp only
    split_ifs
    · exact h.failFatally job _
    · refine issues_call (h.own _ trivial) fun now _ => ?_
      split
      · trivial
      · exact h.dispatchToRunner job queueName _

end WorkerCode

end Rrq
