import Rrq.Worker.Recover

-- The operations that the recovery of one job consists of.

namespace Rrq.Recover

open Prog

-- What a sweep does to the job of an entry whose lock it takes under the id of its hash.
inductive Handles (worker : WorkerId) (entry named : JobId) : Op → Prop where
  | utcNow : Handles worker entry named .utcNow
  | tryLock (ms : Int) :
      Handles worker entry named (.redis (.tryLockJob named (lockOwner worker) ms))
  | isQueued (queue : QueueKey) : Handles worker entry named (.redis (.isJobQueued queue entry))
  | markPending : Handles worker entry named (.redis (.markJobPending entry none))
  | requeue (args : Scripts.RequeueArgs) (hid : args.id = named)
      (howner : args.releasingOwner = lockOwner worker) :
      Handles worker entry named (.redis (.atomicRequeueJob args))
  | dropEntry : Handles worker entry named (.redis (.removeActiveJob worker entry))
  | dropNamed : Handles worker entry named (.redis (.removeActiveJob worker named))
  | release :
      Handles worker entry named (.redis (.releaseJobLockIfOwner named (lockOwner worker)))

variable {possible : (op : Op) → op.Reply → Prop} {worker : WorkerId} {entry : JobId}

theorem dropTracking_handles {named id : JobId}
    (hdrop : Handles worker entry named (.redis (.removeActiveJob worker id))) :
    (dropTracking worker id named).Issues (Handles worker entry named) possible :=
  issues_call hdrop fun _ _ => issues_call .release fun _ _ => trivial

theorem afterRequeue_handles (job : Job) (reply : Except RedisError Int) :
    (afterRequeue worker job reply).Issues (Handles worker entry job.id) possible := by
  unfold afterRequeue
  split
  · exact issues_call .release fun _ _ => trivial
  · split
    · exact issues_call .release fun _ _ => trivial
    · exact issues_bind (dropTracking_handles .dropNamed) fun _ => trivial
    · exact issues_bind (dropTracking_handles .dropNamed) fun _ => trivial

theorem requeueOrphan_handles (job : Job) (queueName : QueueKey) :
    (requeueOrphan worker job queueName).Issues (Handles worker entry job.id) possible := by
  have hask : (given job.nextScheduledRunTime (perform .utcNow)).Issues
      (Handles worker entry job.id) possible := by
    cases job.nextScheduledRunTime with
    | none => exact issues_perform .utcNow
    | some time => trivial
  exact issues_bind hask fun requeueTime =>
    issues_call (.requeue _ rfl rfl) fun reply _ => afterRequeue_handles job reply

theorem settleOrphan_handles (job : Job) (queueName : QueueKey) :
    (settleOrphan worker entry job queueName).Issues (Handles worker entry job.id) possible := by
  refine issues_call (.isQueued queueName) fun reply _ => ?_
  split
  · trivial
  · split_ifs
    · exact issues_call .markPending fun _ _ =>
        issues_bind (dropTracking_handles .dropEntry) fun _ => trivial
    · exact issues_bind (dropTracking_handles .dropEntry) fun _ => trivial
  · split_ifs
    · exact requeueOrphan_handles job queueName
    · exact issues_bind (dropTracking_handles .dropNamed) fun _ => trivial

theorem recoverFound_handles (settings : RRQSettings) (job : Job) :
    (recoverFound settings worker entry job).Issues (Handles worker entry job.id) possible := by
  unfold recoverFound
  dsimp only
  split
  · trivial
  · rename_i lockTimeoutMs _
    split_ifs
    · trivial
    · refine issues_call (.tryLock lockTimeoutMs) fun reply _ => ?_
      split
      · trivial
      · trivial
      · exact settleOrphan_handles job _

end Rrq.Recover
