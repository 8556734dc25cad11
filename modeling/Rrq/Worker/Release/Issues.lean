import Rrq.Worker.Poll

-- The operations that giving a claimed job back takes.

namespace Rrq

open Prog

def Cmd.Releases (worker : WorkerId) : Cmd → Prop
  | getJobDataMap _ => True
  | isJobQueued _ _ => True
  | addJobToQueue _ _ _ => True
  | removeJobFromQueue _ _ => True
  | getJobLockOwner _ => True
  | markJobPending _ _ => True
  | moveJobToDlq _ _ _ _ => True
  | releaseUniqueJobLock _ => True
  | removeActiveJob owner _ => owner = worker
  | releaseJobLockIfOwner _ owner => owner = worker
  | _ => False

-- What has to be permitted for it. A lock is deleted whoever owns it if it may be of another type.
structure ReleaseCode (owner : RRQWorker) (permits : Op → Prop)
    (possible : (op : Op) → op.Reply → Prop) : Prop where
  commands : ∀ c : Cmd, c.Releases owner.workerId → permits (.redis c)
  clock : permits .utcNow
  force : ∀ id, possible (.redis (.releaseJobLockIfOwner id owner.workerId)) (.error .wrongType) →
    permits (.redis (.releaseJobLock id))

section Issues

variable {self : RRQWorker} {permits : Op → Prop} {possible : (op : Op) → op.Reply → Prop}
  (h : ReleaseCode self permits possible)

include h

theorem lockOwnedByOther_issues (id : JobId) (attempts : Nat) :
    (self.lockOwnedByOther id attempts).Issues permits possible := by
  induction attempts with
  | zero => trivial
  | succ attempts ih =>
      refine issues_call (h.commands _ trivial) fun reply _ => ?_
      cases reply with
      | ok owner => trivial
      | error error => exact ih

theorem addUnlessQueued_issues (queueName : QueueKey) (id : JobId) :
    (RRQWorker.addUnlessQueued queueName id).Issues permits possible := by
  refine issues_call (h.commands _ trivial) fun reply _ => ?_
  split
  · trivial
  · trivial
  · refine issues_call h.clock fun now _ => issues_call (h.commands _ trivial) fun reply _ => ?_
    split <;> trivial

theorem requeueClaimedJobWithoutDefinition_issues (queueName : QueueKey) (id : JobId)
    (pendingError : Option String) :
    (RRQWorker.requeueClaimedJobWithoutDefinition queueName id pendingError).Issues permits
      possible := by
  refine issues_call (h.commands _ trivial) fun reply _ => ?_
  split
  · trivial
  · exact addUnlessQueued_issues h queueName id

theorem requeueClaimedJobIfNeeded_issues (queueName : QueueKey) (id : JobId) (job : Job)
    (pendingError : Option String) :
    (RRQWorker.requeueClaimedJobIfNeeded queueName id job pendingError).Issues permits
      possible := by
  unfold RRQWorker.requeueClaimedJobIfNeeded
  split_ifs
  · exact requeueClaimedJobWithoutDefinition_issues h queueName id pendingError
  · exact addUnlessQueued_issues h queueName id
  · trivial

theorem cleanupClaimedJobState_issues (id : JobId) :
    (self.cleanupClaimedJobState id).Issues permits possible := by
  refine issues_call (h.commands _ rfl) fun _ _ =>
    issues_call (h.commands _ rfl) fun reply hreply => ?_
  split
  · trivial
  · trivial
  · exact issues_call (h.force id hreply) fun _ _ => trivial

theorem releaseClaimedJob_issues (queueName : QueueKey) (id : JobId) (job : Job)
    (pendingError : Option String) :
    (self.releaseClaimedJob queueName id job pendingError).Issues permits possible := by
  refine issues_bind (lockOwnedByOther_issues h id 2) fun owner => ?_
  dsimp only
  split_ifs
  · refine issues_bind (requeueClaimedJobIfNeeded_issues h queueName id job pendingError) ?_
    intro done
    split_ifs
    · exact cleanupClaimedJobState_issues h id
    · trivial
  · exact cleanupClaimedJobState_issues h id

theorem quarantineHash_issues (queueName : QueueKey) (id : JobId) (errorMessage : String)
    (jobMap : JobHash) :
    (self.quarantineHash queueName id errorMessage jobMap).Issues permits possible := by
  refine issues_call h.clock fun now _ => issues_call (h.commands _ trivial) fun reply _ => ?_
  split
  · exact requeueClaimedJobWithoutDefinition_issues h queueName id _
  · split
    · exact issues_call (h.commands _ trivial) fun _ _ => trivial
    · trivial

theorem quarantineOwned_issues (queueName : QueueKey) (id : JobId) (errorMessage : String) :
    (self.quarantineOwned queueName id errorMessage).Issues permits possible := by
  refine issues_call (h.commands _ trivial) fun _ _ =>
    issues_call (h.commands _ trivial) fun reply _ => ?_
  split
  · exact quarantineHash_issues h queueName id errorMessage _
  · trivial
  · exact requeueClaimedJobWithoutDefinition_issues h queueName id _

theorem quarantineClaimedJobWithoutDefinition_issues (queueName : QueueKey) (id : JobId)
    (errorMessage : String) :
    (self.quarantineClaimedJobWithoutDefinition queueName id errorMessage).Issues permits
      possible := by
  refine issues_bind (lockOwnedByOther_issues h id 2) fun owner => ?_
  split
  · trivial
  · exact cleanupClaimedJobState_issues h id
  · refine issues_bind (quarantineOwned_issues h queueName id errorMessage) fun done => ?_
    split_ifs
    · exact cleanupClaimedJobState_issues h id
    · trivial

theorem releaseClaimedJobWithoutDefinition_issues (queueName : QueueKey) (id : JobId)
    (pendingError : Option String) :
    (self.releaseClaimedJobWithoutDefinition queueName id pendingError).Issues permits
      possible := by
  refine issues_bind (lockOwnedByOther_issues h id 2) fun owner => ?_
  split
  · trivial
  · exact cleanupClaimedJobState_issues h id
  · refine issues_bind (requeueClaimedJobWithoutDefinition_issues h queueName id pendingError) ?_
    intro done
    split_ifs
    · exact cleanupClaimedJobState_issues h id
    · trivial

theorem releaseRemainingClaimedJobsWithoutDefinitions_issues (queueName : QueueKey)
    (ids : List JobId) :
    (self.releaseRemainingClaimedJobsWithoutDefinitions queueName ids).Issues permits
      possible := by
  induction ids with
  | nil => trivial
  | cons id ids ih =>
      exact issues_bind (releaseClaimedJobWithoutDefinition_issues h queueName id _) fun _ => ih

theorem releaseBatchJob_issues (queueName : QueueKey) (pendingError : Option String)
    (entry : JobId × Option Job) :
    (self.releaseBatchJob queueName pendingError entry).Issues permits possible := by
  obtain ⟨id, job | job⟩ := entry
  · exact quarantineClaimedJobWithoutDefinition_issues h queueName id _
  · exact releaseClaimedJob_issues h queueName id job pendingError

theorem releaseRemainingClaimedJobs_issues (queueName : QueueKey) (pendingError : Option String)
    (batch : List (JobId × Option Job)) :
    (self.releaseRemainingClaimedJobs queueName pendingError batch).Issues permits possible := by
  induction batch with
  | nil => trivial
  | cons entry batch ih =>
      exact issues_bind (releaseBatchJob_issues h queueName pendingError entry) fun _ => ih

theorem releaseClaimedJobsFromIndex_issues (queueName : QueueKey) (pendingError : Option String)
    (batch : List (JobId × Option Job)) :
    (self.releaseClaimedJobsFromIndex queueName pendingError batch).Issues permits possible := by
  cases batch with
  | nil => trivial
  | cons entry batch =>
      exact issues_bind (releaseBatchJob_issues h queueName pendingError entry) fun _ =>
        releaseRemainingClaimedJobs_issues h queueName pendingError batch

theorem getJobDefinitions_issues (defaultMaxRetries : Int) (ids : List JobId) :
    (JobStore.getJobDefinitions defaultMaxRetries ids).Issues permits possible := by
  induction ids with
  | nil => trivial
  | cons id ids ih =>
      refine issues_call (h.commands _ trivial) fun reply _ => ?_
      split
      · trivial
      · refine issues_bind ih fun jobs => ?_
        split <;> trivial

omit h in
theorem getJobDefinition_issues (defaultMaxRetries : Int) (id : JobId)
    (h : permits (.redis (.getJobDataMap id))) :
    (JobStore.getJobDefinition defaultMaxRetries id).Issues permits possible := by
  refine issues_call h fun reply _ => ?_
  split
  · trivial
  · trivial
  · split <;> trivial

end Issues

end Rrq
