import Rrq.Worker.World

-- How a worker gives back jobs that it has claimed and will not execute.

namespace Rrq.RRQWorker

variable (self : RRQWorker)

def lockOwnedByOther (id : JobId) : Nat → Proc (Option Bool)
  | 0 => pure none
  | attempts + 1 => do
      match ← redis (.getJobLockOwner id) with
      | .ok owner => pure (some (owner.any (· ≠ self.workerId)))
      | .error _ => lockOwnedByOther id attempts

-- Put the job back into the queue, unless it is there.
def addUnlessQueued (queueName : QueueKey) (id : JobId) : Proc Bool := do
  match ← redis (.isJobQueued (normalizeQueueName queueName) id) with
  | .error _ => pure false
  | .ok true => pure true
  | .ok false => do
      let now ← perform .utcNow
      match ← redis (.addJobToQueue (normalizeQueueName queueName) id now.timestampMillis) with
      | .error _ => pure false
      | .ok () => pure true

def requeueClaimedJobWithoutDefinition (queueName : QueueKey) (id : JobId)
    (pendingError : Option String) : Proc Bool := do
  match ← redis (.markJobPending id pendingError) with
  | .error _ => pure false
  | .ok () => addUnlessQueued queueName id

def requeueClaimedJobIfNeeded (queueName : QueueKey) (id : JobId) (job : Job)
    (pendingError : Option String) : Proc Bool :=
  if job.status.Live then
    if job.status = .Active then requeueClaimedJobWithoutDefinition queueName id pendingError
    else addUnlessQueued queueName id
  else pure true

def cleanupClaimedJobState (id : JobId) : Proc Unit := do
  let _ ← redis (.removeActiveJob self.workerId id)
  match ← redis (.releaseJobLockIfOwner id self.workerId) with
  | .ok _ => pure ()
  | .error .failed => pure ()
  | .error .wrongType => do
      let _ ← redis (.releaseJobLock id)
      pure ()

def releaseClaimedJob (queueName : QueueKey) (id : JobId) (job : Job)
    (pendingError : Option String) : Proc Unit := do
  -- Unknown ownership counts as ours here: only the definition speaks against a requeue.
  let requeue := (← lockOwnedByOther self id 2) ≠ some true ∧ job.workerId = some self.workerId
  if requeue then
    if ← requeueClaimedJobIfNeeded queueName id job pendingError then
      cleanupClaimedJobState self id
    else pure ()
  else cleanupClaimedJobState self id

def quarantineMessage : String := "Failed to parse claimed job definition. Moved to DLQ."

-- Move the hash to the DLQ, or put it back. The answer says whether the claim may be dropped.
def quarantineHash (queueName : QueueKey) (id : JobId) (errorMessage : String)
    (jobMap : JobHash) : Proc Bool := do
  let dlqName := (jobMap.dlqName.filter (· ≠ "")).getD self.settings.defaultDlqName
  let uniqueKey := jobMap.jobUniqueKey.filter (· ≠ "")
  let now ← perform .utcNow
  match ← redis (.moveJobToDlq id (withPrefix DLQ_KEY_PREFIX dlqName) errorMessage now) with
  | .error _ =>
      requeueClaimedJobWithoutDefinition queueName id
        (some "Failed to move malformed claimed job to DLQ. Re-queued.")
  | .ok () =>
      match uniqueKey with
      | some key => do
          let _ ← redis (.releaseUniqueJobLock key)
          pure true
      | none => pure true

def quarantineOwned (queueName : QueueKey) (id : JobId) (errorMessage : String) : Proc Bool := do
  -- Claimed jobs should already be removed from the hot queue, but remove defensively.
  let _ ← redis (.removeJobFromQueue (normalizeQueueName queueName) id)
  match ← redis (.getJobDataMap id) with
  | .ok (some jobMap) => quarantineHash self queueName id errorMessage jobMap
  | .ok none => pure true
  | .error _ =>
      requeueClaimedJobWithoutDefinition queueName id
        (some "Failed to load malformed claimed job for DLQ move. Re-queued.")

def quarantineClaimedJobWithoutDefinition (queueName : QueueKey) (id : JobId)
    (errorMessage : String) : Proc Unit := do
  match ← lockOwnedByOther self id 2 with
  | none => pure ()
  | some true => cleanupClaimedJobState self id
  | some false =>
      if ← quarantineOwned self queueName id errorMessage then cleanupClaimedJobState self id
      else pure ()

def releaseClaimedJobWithoutDefinition (queueName : QueueKey) (id : JobId)
    (pendingError : Option String) : Proc Unit := do
  match ← lockOwnedByOther self id 2 with
  | none => pure ()
  | some true => cleanupClaimedJobState self id
  | some false =>
      if ← requeueClaimedJobWithoutDefinition queueName id pendingError then
        cleanupClaimedJobState self id
      else pure ()

def releaseRemainingClaimedJobsWithoutDefinitions (queueName : QueueKey) : List JobId → Proc Unit
  | [] => pure ()
  | id :: claimed => do
      releaseClaimedJobWithoutDefinition self queueName id
        (some "Failed to load claimed job definition. Re-queued.")
      releaseRemainingClaimedJobsWithoutDefinitions queueName claimed

-- One job of a claimed batch, with the definition that was read for it.
def releaseBatchJob (queueName : QueueKey) (pendingError : Option String) :
    JobId × Option Job → Proc Unit
  | (id, some job) => releaseClaimedJob self queueName id job pendingError
  | (id, none) => quarantineClaimedJobWithoutDefinition self queueName id quarantineMessage

def releaseRemainingClaimedJobs (queueName : QueueKey) (pendingError : Option String) :
    List (JobId × Option Job) → Proc Unit
  | [] => pure ()
  | entry :: batch => do
      releaseBatchJob self queueName pendingError entry
      releaseRemainingClaimedJobs queueName pendingError batch

def releaseClaimedJobsFromIndex (queueName : QueueKey) (pendingError : Option String) :
    List (JobId × Option Job) → Proc Unit
  | [] => pure ()
  | entry :: batch => do
      releaseBatchJob self queueName pendingError entry
      releaseRemainingClaimedJobs self queueName pendingError batch

end Rrq.RRQWorker
