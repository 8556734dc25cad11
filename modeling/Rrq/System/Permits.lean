import Rrq.System
import Rrq.Worker.Release.Issues
import Rrq.Worker.Recover.Steps

-- Which operations each kind of process issues.

namespace Rrq

open Prog

def IsRecovery (owner : String) : Prop := startsWith owner "orphan-recovery-" = true

instance (owner : String) : Decidable (IsRecovery owner) := inferInstanceAs (Decidable (_ = _))

namespace Cmd

-- The commands of the poll loop of a worker and of its tasks.
def ByWorker (worker : WorkerId) : Cmd → Prop
  | atomicClaimReadyJobs args => args.workerId = worker
  | refreshJobLockTimeout _ owner _ => owner = worker
  | releaseJobLockIfOwner _ owner => owner = worker
  | atomicRequeueJob args => args.releasingOwner = worker ∧ args.activeWorkerId = some worker
  | removeActiveJob owner _ => owner = worker
  | releaseJobLock _ => False
  | tryLockJob _ _ _ => False
  | atomicEnqueueJob _ _ _ _ => False
  | updateJobStatus _ _ => False
  | setWorkerHealth _ _ => False
  | producerEnqueue _ _ _ => False
  | producerRateLimit _ _ _ => False
  | producerDebounce _ _ _ => False
  | _ => True

-- The commands of a heartbeat.
def ByHeartbeat (worker : WorkerId) : Cmd → Prop
  | setWorkerHealth owner _ => owner = worker
  | scanActiveJobKeys _ => True
  | getWorkerHealth _ => True
  | getActiveJobIds _ => True
  | getJobLockOwner _ => True
  | getJobDataMap _ => True
  | isJobQueued _ _ => True
  | markJobPending _ _ => True
  | removeActiveJob _ _ => True
  | tryLockJob _ owner _ => IsRecovery owner
  | releaseJobLockIfOwner _ owner => IsRecovery owner
  | atomicRequeueJob args => IsRecovery args.releasingOwner
  | _ => False

-- The commands of a client.
def ByClient : Cmd → Prop
  | getJobDataMap _ => True
  | removeJobFromQueue _ _ => True
  | updateJobStatus _ status => status = .Cancelled
  | getLockTtl _ => True
  | acquireUniqueJobLock _ _ _ => True
  | releaseUniqueJobLock _ => True
  | atomicEnqueueJob id queueKey mapping _ => mapping.id = some id ∧
      mapping.queueName = some queueKey ∧ mapping.status = some JobStatus.Pending.asStr ∧
      normalizeQueueName queueKey = queueKey
  | producerEnqueue args _ _ => normalizeQueueName args.queueName = args.queueName
  | producerRateLimit args _ _ => normalizeQueueName args.queueName = args.queueName
  | producerDebounce args _ _ => normalizeQueueName args.queueName = args.queueName
  | _ => False

end Cmd

namespace Op

-- The operations of a worker on its own memory, and the tasks it starts.
def Local (worker : WorkerId) : Op → Prop
  | redis _ => False
  | utcNow => True
  | newId => True
  | shutdownRequested owner => owner = worker
  | fetchCount owner => owner = worker
  | acquirePermit owner => owner = worker
  | insertRunning owner _ _ => owner = worker
  | spawnTask self _ _ => self.workerId = worker
  | insertAbort owner _ _ => owner = worker
  | noteRunning owner _ _ => owner = worker
  | execute owner _ _ _ _ => owner = worker
  | removeRunning owner _ => owner = worker
  | removeAbort owner _ => owner = worker
  | runningJobs owner => owner = worker
  | graceOver owner => owner = worker
  | abortTasks owner => owner = worker
  | requestShutdown owner => owner = worker
  | spawnHeartbeat self _ => self.workerId = worker

def Permits : Role → Op → Prop
  | .main worker, redis c => c.ByWorker worker
  | .main worker, op => op.Local worker
  | .task worker, redis c => c.ByWorker worker
  | .task _, spawnTask _ _ _ => False
  | .task _, spawnHeartbeat _ _ => False
  | .task worker, op => op.Local worker
  | .heartbeat worker, redis c => c.ByHeartbeat worker
  | .heartbeat worker, shutdownRequested owner => owner = worker
  | .heartbeat _, utcNow => True
  | .heartbeat _, _ => False
  | .client, redis c => c.ByClient
  | .client, utcNow => True
  | .client, newId => True
  | .client, _ => False

-- The operations of a poll loop or a task that leave the maps of its worker as they are.
def Aside (worker : WorkerId) : Op → Prop
  | redis c => c.ByWorker worker
  | utcNow => True
  | shutdownRequested owner => owner = worker
  | runningJobs owner => owner = worker
  | graceOver owner => owner = worker
  | abortTasks owner => owner = worker
  | requestShutdown owner => owner = worker
  | _ => False

theorem Aside.main {worker : WorkerId} {op : Op} (h : op.Aside worker) :
    op.Permits (.main worker) := by
  cases op <;> first | exact h.elim | exact h

theorem Aside.task {worker : WorkerId} {op : Op} (h : op.Aside worker) :
    op.Permits (.task worker) := by
  cases op <;> first | exact h.elim | exact h

-- No lock is a key of another type.
def Possible : (op : Op) → op.Reply → Prop
  | redis (.releaseJobLockIfOwner _ _), reply => reply ≠ .error .wrongType
  | _, _ => True

end Op

abbrev Issuing {α : Type} (role : Role) (prog : Proc α) : Prop :=
  prog.Issues (Op.Permits role) Op.Possible

section Aside

variable (self : RRQWorker)

abbrev AsideIssues {α : Type} (self : RRQWorker) (prog : Proc α) : Prop :=
  prog.Issues (Op.Aside self.workerId) Op.Possible

-- The unconditional release is out of reach.
theorem aside_releases : ReleaseCode self (Op.Aside self.workerId) Op.Possible where
  commands c hc := by
    cases c <;> first | exact hc.elim | exact hc
  clock := trivial
  force _ h := absurd rfl h

theorem drainJobs_issues (running : List (JobId × RunningJobInfo)) :
    AsideIssues self (self.drainJobs running) := by
  induction running with
  | nil => trivial
  | cons entry running ih =>
      obtain ⟨id, info⟩ := entry
      have hrequeue : ∀ status, AsideIssues self (self.drainRequeue id info.queueName status) :=
        fun status => issues_call trivial fun now _ => issues_call ⟨rfl, rfl⟩ fun _ _ => trivial
      refine issues_bind (issues_bind (getJobDefinition_issues _ id trivial) fun job => ?_)
        fun result => ?_
      · split
        · trivial
        · have hcleanup : AsideIssues self (redis (.removeActiveJob self.workerId id) >>= fun _ =>
              redis (.releaseJobLockIfOwner id self.workerId) >>= fun _ =>
                pure (.ok () : Except JobStore.LoadError Unit)) := by
            refine issues_call rfl fun _ _ => ?_
            exact issues_call rfl fun _ _ => trivial
          dsimp only
          split
          · split_ifs
            · exact issues_bind (hrequeue _) fun _ => hcleanup
            · exact hcleanup
          · exact hcleanup
      · split
        · trivial
        · exact ih

theorem awaitRunning_issues (fuel : Nat) : AsideIssues self (self.awaitRunning fuel) := by
  induction fuel with
  | zero => trivial
  | succ fuel ih =>
      refine issues_call rfl fun running _ => ?_
      split_ifs
      · trivial
      · refine issues_call rfl fun expired _ => ?_
        split_ifs
        · trivial
        · exact ih

theorem drainTasks_issues (fuel : Nat) : AsideIssues self (self.drainTasks fuel) := by
  refine issues_bind (awaitRunning_issues self fuel) fun done => ?_
  split_ifs
  · trivial
  · exact issues_call rfl fun running _ => issues_call rfl fun _ _ =>
      drainJobs_issues self running

theorem moveToDlq_issues (settings : RRQSettings) (job : Job) (errorMessage : String) :
    AsideIssues self (moveToDlq settings job errorMessage) := by
  refine issues_call trivial fun now _ => issues_call trivial fun reply _ => ?_
  split
  · trivial
  · split_ifs <;> trivial

theorem retryOrMove_issues (settings : RRQSettings) (job : Job) (errorMessage : String)
    (delaySeconds : Int → ℚ) :
    AsideIssues self (retryOrMove settings job errorMessage delaySeconds) := by
  unfold retryOrMove
  split
  · trivial
  · split_ifs
    · exact moveToDlq_issues self settings job errorMessage
    · refine issues_call trivial fun now _ => issues_call trivial fun reply _ => ?_
      split
      · trivial
      · have hnote : ∀ time, AsideIssues self (redis (.updateJobNextScheduledRunTime job.id time)
            >>= fun _ => pure (.ok () : Outcome)) := fun time => by
          refine issues_call trivial fun _ _ => ?_
          trivial
        dsimp only
        split
        · exact hnote _
        · exact issues_call trivial fun now _ => hnote now

theorem handleSuccess_issues (settings : RRQSettings) (job : Job) (result : Json) :
    AsideIssues self (handleSuccess settings job result) := by
  refine issues_call trivial fun now _ => issues_call trivial fun reply _ => ?_
  split
  · trivial
  · split
    · trivial
    · refine issues_call trivial fun reply _ => ?_
      split <;> trivial

theorem handleExecutionResult_issues (settings : RRQSettings) (job : Job) (jobTimeout : Int)
    (result : RunnerExecutionResult) :
    AsideIssues self (handleExecutionResult settings job jobTimeout result) := by
  unfold handleExecutionResult
  split
  · unfold handleExecutionOutcome
    split
    · exact handleSuccess_issues self settings job _
    · exact retryOrMove_issues self settings job _ _
    · exact moveToDlq_issues self settings job _
    · split_ifs
      · exact moveToDlq_issues self settings job _
      · exact retryOrMove_issues self settings job _ _
  · exact retryOrMove_issues self settings job _ _
  · exact moveToDlq_issues self settings job _

end Aside

section Task

variable (self : RRQWorker)

abbrev TaskIssues {α : Type} (self : RRQWorker) (prog : Proc α) : Prop :=
  Issuing (.task self.workerId) prog

theorem cleanupRunning_issues (id : JobId) : TaskIssues self (self.cleanupRunning id) := by
  refine issues_call rfl fun _ _ => issues_call rfl fun _ _ => ?_
  refine issues_call rfl fun _ _ => issues_call rfl fun _ _ => ?_
  split <;> trivial

theorem finishJob_issues (job : Job) {record : Proc Outcome} (h : TaskIssues self record) :
    TaskIssues self (self.finishJob job record) := by
  refine issues_bind h fun outcome => ?_
  split
  · trivial
  · exact issues_bind (cleanupRunning_issues self job.id) fun _ => trivial
  · exact cleanupRunning_issues self job.id

theorem failFatally_issues (job : Job) (message : String) :
    TaskIssues self (self.failFatally job message) := by
  refine issues_bind ((moveToDlq_issues self self.settings job message).mono fun _ => Op.Aside.task)
    fun outcome => ?_
  split
  · trivial
  · exact cleanupRunning_issues self job.id

theorem dispatchToRunner_issues (job : Job) (queueName : QueueKey) (jobTimeout : Int) :
    TaskIssues self (self.dispatchToRunner job queueName jobTimeout) := by
  unfold RRQWorker.dispatchToRunner
  dsimp only
  split_ifs
  · exact failFatally_issues self job _
  · refine issues_call rfl fun _ _ => issues_call trivial fun requestId _ => ?_
    refine issues_call rfl fun _ _ => issues_call rfl fun result _ => ?_
    have hrecord := handleExecutionResult_issues self self.settings job jobTimeout result
    exact finishJob_issues self job (hrecord.mono fun _ => Op.Aside.task)
  · exact issues_call rfl fun _ _ => failFatally_issues self job _

theorem executeJob_issues (job : Job) (queueName : QueueKey) :
    TaskIssues self (self.executeJob job queueName) := by
  unfold RRQWorker.executeJob
  split
  · trivial
  · dsimp only
    split_ifs
    · exact failFatally_issues self job _
    · refine issues_call trivial fun now _ => ?_
      split
      · trivial
      · exact dispatchToRunner_issues self job queueName _

theorem taskProgram_issues (job : Job) (queueName : QueueKey) :
    TaskIssues self (self.taskProgram job queueName) :=
  issues_bind (executeJob_issues self job queueName) fun _ => trivial

end Task

-- What a sweep takes beside the recovery of each job.
structure SweepCode (sweeper : RRQWorker) (permits : Op → Prop)
    (possible : (op : Op) → op.Reply → Prop) : Prop where
  pages : ∀ cursor, permits (.redis (.scanActiveJobKeys cursor))
  health : ∀ worker, permits (.redis (.getWorkerHealth worker))
  entries : ∀ worker, permits (.redis (.getActiveJobIds worker))
  job : ∀ worker id, (Recover.recoverJob sweeper worker id).Issues permits possible

namespace SweepCode

variable {self : RRQWorker} {permits : Op → Prop} {possible : (op : Op) → op.Reply → Prop}
  (h : SweepCode self permits possible)

include h

theorem recoverIds (worker : WorkerId) (ids : List JobId) (recovered : Nat) :
    (Recover.recoverIds self worker ids recovered).Issues permits possible := by
  induction ids generalizing recovered with
  | nil => trivial
  | cons id ids ih =>
      refine issues_bind (h.job worker id) fun verdict => ?_
      split
      · trivial
      · trivial
      · exact ih recovered
      · split_ifs
        · trivial
        · exact ih (recovered + 1)

theorem sweepWorker (worker : WorkerId) (recovered : Nat) :
    (Recover.sweepWorker self worker recovered).Issues permits possible := by
  refine issues_call (h.health worker) fun reply _ => ?_
  split
  · trivial
  · split_ifs
    · trivial
    · refine issues_call (h.entries worker) fun reply _ => ?_
      split
      · trivial
      · exact h.recoverIds worker _ recovered

theorem sweepKeys (keys : List String) (recovered : Nat) :
    (Recover.sweepKeys self keys recovered).Issues permits possible := by
  induction keys generalizing recovered with
  | nil => trivial
  | cons key keys ih =>
      unfold Recover.sweepKeys
      dsimp only
      split_ifs
      · exact ih recovered
      · refine issues_bind (h.sweepWorker _ recovered) fun result => ?_
        split
        · trivial
        · exact ih _
        · trivial

theorem sweepPages (fuel cursor recovered : Nat) :
    (Recover.sweepPages self fuel cursor recovered).Issues permits possible := by
  induction fuel generalizing cursor recovered with
  | zero => trivial
  | succ fuel ih =>
      refine issues_call (h.pages cursor) fun reply _ => ?_
      split
      · trivial
      · refine issues_bind (h.sweepKeys _ recovered) fun result => ?_
        split
        · trivial
        · trivial
        · split_ifs
          · trivial
          · exact ih _ _

end SweepCode

section Heartbeat

variable {possible : (op : Op) → op.Reply → Prop} (self : RRQWorker)

abbrev HeartbeatIssues {α : Type} (possible : (op : Op) → op.Reply → Prop) (self : RRQWorker)
    (prog : Proc α) : Prop :=
  prog.Issues (Op.Permits (.heartbeat self.workerId)) possible

theorem isRecovery_lockOwner (worker : WorkerId) : IsRecovery (Recover.lockOwner worker) :=
  startsWith_append _ _

theorem given_issues {α : Type} {role : Role} (value : Option α) {ask : Proc α}
    (h : ask.Issues (Op.Permits role) possible) :
    (given value ask).Issues (Op.Permits role) possible := by
  cases value with
  | none => exact h
  | some value => trivial

theorem recoverFound_issues (settings : RRQSettings) (worker : WorkerId) (id : JobId) (job : Job) :
    HeartbeatIssues possible self (Recover.recoverFound settings worker id job) := by
  refine (Recover.recoverFound_handles settings job).mono fun op hop => ?_
  cases hop with
  | tryLock ms => exact isRecovery_lockOwner worker
  | requeue args hid howner =>
      have h := isRecovery_lockOwner worker
      rwa [← howner] at h
  | release => exact isRecovery_lockOwner worker
  | _ => trivial

theorem recoverJob_issues (worker : WorkerId) (id : JobId) :
    HeartbeatIssues possible self (Recover.recoverJob self worker id) := by
  refine issues_call rfl fun shutdown _ => ?_
  split_ifs
  · trivial
  refine issues_call trivial fun reply _ => ?_
  split
  · trivial
  · trivial
  · refine issues_bind (getJobDefinition_issues _ id trivial) fun job => ?_
    split
    · trivial
    · exact issues_call trivial fun _ _ => trivial
    · exact recoverFound_issues self self.settings worker id _

theorem heartbeat_sweeps : SweepCode self (Op.Permits (.heartbeat self.workerId)) possible where
  pages _ := trivial
  health _ := trivial
  entries _ := trivial
  job worker id := recoverJob_issues self worker id

theorem recoverIds_issues (worker : WorkerId) (ids : List JobId) (recovered : Nat) :
    HeartbeatIssues possible self (Recover.recoverIds self worker ids recovered) :=
  (heartbeat_sweeps self).recoverIds worker ids recovered

theorem sweepKeys_issues (keys : List String) (recovered : Nat) :
    HeartbeatIssues possible self (Recover.sweepKeys self keys recovered) :=
  (heartbeat_sweeps self).sweepKeys keys recovered

theorem sweepPages_issues (fuel cursor recovered : Nat) :
    HeartbeatIssues possible self (Recover.sweepPages self fuel cursor recovered) :=
  (heartbeat_sweeps self).sweepPages fuel cursor recovered

theorem heartbeatLoop_issues (fuel turns : Nat) :
    HeartbeatIssues possible self (self.heartbeatLoop fuel turns) := by
  induction turns with
  | zero => trivial
  | succ turns ih =>
      refine issues_call rfl fun shutdown _ => ?_
      split_ifs
      · trivial
      · exact issues_call rfl fun _ _ =>
          issues_bind (sweepPages_issues self fuel 0 0) fun _ => ih

end Heartbeat

section Client

abbrev ClientIssues {α : Type} (prog : Proc α) : Prop := Issuing .client prog

-- The jobs that a producer hands over go where their hash says.
theorem jobArgs_issues {α : Type} (config : Producer.Config) (functionName : String)
    (params : Params) (options : Producer.EnqueueOptions) (schedule : DateTime → Option DateTime)
    {next : Except EnqueueError Producer.JobArgs → Proc α}
    (h : ∀ reply, (∀ args, reply = .ok args → normalizeQueueName args.queueName = args.queueName) →
      ClientIssues (next reply)) :
    ClientIssues (Producer.jobArgs config functionName params options schedule >>= next) := by
  unfold Producer.jobArgs
  rw [bind_assoc]
  refine issues_bind (given_issues _ (issues_perform trivial)) fun id => ?_
  rw [bind_assoc]
  refine issues_bind (given_issues _ (issues_perform trivial)) fun enqueueTime => ?_
  split
  · exact h _ nofun
  · dsimp only
    split_ifs
    · exact h _ nofun
    · refine h _ fun args hargs => ?_
      obtain rfl := Except.ok.inj hargs
      exact normalizeQueueName_idem _

theorem enqueueJob_issues (args : Producer.JobArgs) (idempotencyKey : Option String)
    (ttlSeconds : Int) (hargs : normalizeQueueName args.queueName = args.queueName) :
    ClientIssues (Producer.enqueueJob args idempotencyKey ttlSeconds) := by
  refine issues_call hargs fun reply _ => ?_
  split
  · trivial
  · split_ifs <;> trivial

theorem enqueue_issues (config : Producer.Config) (functionName : String) (params : Params)
    (options : Producer.EnqueueOptions) :
    ClientIssues (Producer.enqueue config functionName params options) := by
  unfold Producer.enqueue
  split
  · trivial
  · trivial
  refine jobArgs_issues config functionName params options some fun reply hargs => ?_
  split
  · trivial
  have hargs := hargs _ rfl
  split
  · exact enqueueJob_issues _ none _ hargs
  · split
    · trivial
    · split_ifs
      · trivial
      · exact enqueueJob_issues _ _ _ hargs

theorem enqueueWithRateLimit_issues (config : Producer.Config) (functionName : String)
    (params : Params) (options : Producer.EnqueueOptions) (key : String)
    (window : Producer.Duration) :
    ClientIssues (Producer.enqueueWithRateLimit config functionName params options key window) := by
  unfold Producer.enqueueWithRateLimit
  split
  · trivial
  · trivial
  · trivial
  refine jobArgs_issues config functionName params options some fun reply hargs => ?_
  split
  · trivial
  have hargs := hargs _ rfl
  dsimp only
  split_ifs
  · trivial
  refine issues_call hargs fun reply _ => ?_
  split
  · trivial
  · split_ifs <;> trivial

theorem enqueueWithDebounce_issues (config : Producer.Config) (functionName : String)
    (params : Params) (options : Producer.EnqueueOptions) (key : String)
    (window : Producer.Duration) :
    ClientIssues (Producer.enqueueWithDebounce config functionName params options key window) := by
  unfold Producer.enqueueWithDebounce
  split
  · trivial
  · trivial
  · trivial
  refine jobArgs_issues config functionName params options window.after fun reply hargs => ?_
  split
  · trivial
  have hargs := hargs _ rfl
  dsimp only
  split_ifs
  · trivial
  refine issues_call hargs fun reply _ => ?_
  split
  · trivial
  · split_ifs <;> trivial

-- What an enqueue of the client takes. The job that it hands over goes where its hash says.
structure EnqueueCode (permits : Op → Prop) : Prop where
  id : permits .newId
  clock : permits .utcNow
  ttl : ∀ key, permits (.redis (.getLockTtl key))
  acquire : ∀ key id seconds, permits (.redis (.acquireUniqueJobLock key id seconds))
  release : ∀ key, permits (.redis (.releaseUniqueJobLock key))
  enqueue : ∀ id queueKey mapping score, mapping.id = some id →
    mapping.queueName = some queueKey → mapping.status = some JobStatus.Pending.asStr →
    normalizeQueueName queueKey = queueKey →
    permits (.redis (.atomicEnqueueJob id queueKey mapping score))

section EnqueueCode

variable {permits : Op → Prop} {possible : (op : Op) → op.Reply → Prop} (h : EnqueueCode permits)

include h

theorem reserveIfUnique_issues (options : RRQClient.EnqueueOptions) (id : JobId)
    (enqueueTime runTime : DateTime) (lockTtlSeconds : Int) :
    (RRQClient.reserveIfUnique options id enqueueTime runTime lockTtlSeconds).Issues permits
      possible := by
  unfold RRQClient.reserveIfUnique
  split
  · refine issues_call (h.ttl _) fun reply _ => ?_
    split
    · trivial
    · split_ifs
      · trivial
      · refine issues_call (h.acquire _ _ _) fun reply _ => ?_
        split
        · trivial
        · trivial
        · refine issues_call (h.ttl _) fun reply _ => ?_
          split
          · trivial
          · split_ifs <;> trivial
  · trivial

theorem clientEnqueue_issues (settings : RRQSettings) (functionName : String) (params : Params)
    (options : RRQClient.EnqueueOptions) :
    (RRQClient.enqueue settings functionName params options).Issues permits possible := by
  have hrelease : ∀ acquired,
      (RRQClient.releaseReserved options acquired).Issues permits possible := by
    intro acquired
    unfold RRQClient.releaseReserved
    split
    · exact issues_call (h.release _) fun _ _ => trivial
    · trivial
  have hid : (given options.jobId (perform .newId)).Issues permits possible := by
    cases options.jobId with
    | none => exact issues_perform h.id
    | some id => trivial
  refine issues_bind hid fun id => ?_
  dsimp only
  split_ifs
  · trivial
  split
  · trivial
  split_ifs
  · trivial
  refine issues_call h.clock fun enqueueTime _ => ?_
  split
  · trivial
  refine issues_bind (reserveIfUnique_issues h options id enqueueTime _ _) fun reserved => ?_
  split
  · trivial
  refine issues_call (h.enqueue _ _ _ _ rfl rfl rfl (normalizeQueueName_idem _)) fun reply _ => ?_
  split
  · trivial
  · exact issues_bind (hrelease _) fun _ => trivial
  · exact issues_bind (hrelease _) fun _ => trivial

end EnqueueCode

theorem client_enqueues : EnqueueCode (Op.Permits .client) where
  id := trivial
  clock := trivial
  ttl _ := trivial
  acquire _ _ _ := trivial
  release _ := trivial
  enqueue _ _ _ _ hid hqueue hstatus hname := ⟨hid, hqueue, hstatus, hname⟩

theorem jobCancel_issues (id : JobId) : ClientIssues (jobCancel id) := by
  refine issues_call trivial fun reply _ => ?_
  split
  · trivial
  · trivial
  · dsimp only
    split_ifs
    · trivial
    · refine issues_call trivial fun reply _ => ?_
      split
      · trivial
      · split_ifs
        · exact issues_call rfl fun _ _ => trivial
        · trivial
    · trivial

theorem request_issues (request : Request) : ClientIssues request.program := by
  cases request with
  | enqueue config functionName params options =>
      exact issues_bind (enqueue_issues config functionName params options) fun _ => trivial
  | enqueueWithRateLimit config functionName params options key window =>
      exact issues_bind (enqueueWithRateLimit_issues config functionName params options key window)
        fun _ => trivial
  | enqueueWithDebounce config functionName params options key window =>
      exact issues_bind (enqueueWithDebounce_issues config functionName params options key window)
        fun _ => trivial
  | clientEnqueue settings functionName params options =>
      exact issues_bind (clientEnqueue_issues client_enqueues settings functionName params options)
        fun _ => trivial
  | jobCancel id => exact jobCancel_issues id

end Client

end Rrq
