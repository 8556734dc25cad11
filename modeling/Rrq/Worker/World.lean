import Rrq.JobStore
import Rrq.Concurrent.Prog

-- What a process of the system can do, one atomic operation at a time, and the state that
-- all processes share: the store and the memory of every worker.

namespace Rrq

abbrev Pid := Nat

-- The configuration of a worker, as its constructor accepts it.
def provisionalClaimLockTimeoutMs (settings : RRQSettings) : Option Int :=
  if settings.defaultJobTimeoutSeconds ≤ 0 then none
  else if settings.defaultLockTimeoutExtensionSeconds < 0 then none
  else
    let sum := checkedAdd settings.defaultJobTimeoutSeconds settings.defaultLockTimeoutExtensionSeconds
    match sum.bind (checkedMul · 1000) with
    | none => none
    | some lockTimeoutMs => if lockTimeoutMs ≤ 0 then none else some lockTimeoutMs

structure RRQWorker where
  settings : RRQSettings
  queues : List QueueKey
  workerId : WorkerId
  runners : List String
  provisionalClaimLockTimeoutMs : Int
  burst : Bool
  queues_ne : queues ≠ []
  queues_normal : ∀ queue ∈ queues, normalizeQueueName queue = queue
  timeout_eq : Rrq.provisionalClaimLockTimeoutMs settings = some provisionalClaimLockTimeoutMs

-- A worker on the default queue under the default settings.
def RRQWorker.ofDefaults (workerId : WorkerId) : RRQWorker where
  settings := {}
  queues := ["rrq:queue:default"]
  workerId
  runners := ["python"]
  provisionalClaimLockTimeoutMs := 360000
  burst := false
  queues_ne := by simp
  queues_normal := by decide
  timeout_eq := by decide

structure RunningJobInfo where
  queueName : QueueKey
  runnerName : Option String := none
  requestId : Option String := none

inductive Role where
  | main (worker : WorkerId)
  | task (worker : WorkerId)
  | heartbeat (worker : WorkerId)
  | client
deriving DecidableEq

def Role.host : Role → Option WorkerId
  | main worker => some worker
  | task worker => some worker
  | heartbeat worker => some worker
  | client => none

-- The poll loop of a worker and its tasks act on the worker's claims. Its heartbeat acts on
-- what dead workers have left.
def Role.Claims (role : Role) (worker : WorkerId) : Prop :=
  role = main worker ∨ role = task worker

instance (role : Role) (worker : WorkerId) : Decidable (role.Claims worker) :=
  inferInstanceAs (Decidable (_ ∨ _))

inductive Op where
  | redis (command : Cmd)
  | utcNow
  | newId
  | shutdownRequested (worker : WorkerId)
  | fetchCount (worker : WorkerId)
  | acquirePermit (worker : WorkerId)
  | insertRunning (worker : WorkerId) (id : JobId) (info : RunningJobInfo)
  | spawnTask (self : RRQWorker) (job : Job) (queueName : QueueKey)
  | insertAbort (worker : WorkerId) (id : JobId) (task : Pid)
  | noteRunning (worker : WorkerId) (id : JobId) (update : RunningJobInfo → RunningJobInfo)
  | execute (worker : WorkerId) (id : JobId) (handler runner : String) (timeoutSeconds : Int)
  | removeRunning (worker : WorkerId) (id : JobId)
  | removeAbort (worker : WorkerId) (id : JobId)
  | runningJobs (worker : WorkerId)
  | graceOver (worker : WorkerId)
  | abortTasks (worker : WorkerId)
  | requestShutdown (worker : WorkerId)
  | spawnHeartbeat (self : RRQWorker) (fuel : Nat)

@[reducible] def Op.Reply : Op → Type
  | redis command => Except RedisError command.Answer
  | utcNow => DateTime
  | newId => String
  | shutdownRequested _ => Bool
  | fetchCount _ => Nat
  | acquirePermit _ => Bool
  | insertRunning _ _ _ => Unit
  | spawnTask _ _ _ => Pid
  | insertAbort _ _ _ => Unit
  | noteRunning _ _ _ => Unit
  | execute _ _ _ _ _ => RunnerExecutionResult
  | removeRunning _ _ => Unit
  | removeAbort _ _ => Unit
  | runningJobs _ => List (JobId × RunningJobInfo)
  | graceOver _ => Bool
  | abortTasks _ => Unit
  | requestShutdown _ => Unit
  | spawnHeartbeat _ _ => Pid

-- What the state leaves open about one operation.
structure Chance where
  fault : Fault := .none
  now : DateTime := ⟨0⟩
  flag : Bool := true
  count : Nat := 1
  text : String := ""
  page : Nat × List String := (0, [])
  result : RunnerExecutionResult := .TimedOut
  child : Pid := 0

-- The memory of one worker process.
structure Memory where
  alive : Bool := false
  shutdown : Bool := false
  running : List (JobId × RunningJobInfo) := []
  aborts : List (JobId × Pid) := []
  aborted : List Pid := []

def assign {β : Type} (entries : List (JobId × β)) (id : JobId) (value : β) : List (JobId × β) :=
  entries.filter (fun entry => entry.1 ≠ id) ++ [(id, value)]

def unassign {β : Type} (entries : List (JobId × β)) (id : JobId) : List (JobId × β) :=
  entries.filter fun entry => entry.1 ≠ id

-- Who answers for a claim: the poll loop until it hands the job to a task.
inductive Holder where
  | main
  | task (pid : Pid)
deriving DecidableEq

-- What a heartbeat is doing to the jobs of a worker that it takes for dead.
structure Sweep where
  host : WorkerId := ""
  worker : WorkerId := ""
  -- The job that it has decided to drop from the active set of the worker and not yet dropped.
  settling : Option JobId := none

-- The part of the past that the properties speak about. No program reads it.
structure History where
  -- Claims that their worker has not begun to clean up or to release.
  claims : WorkerId → JobId → Option Holder := fun _ _ => none
  -- Claims whose lock their worker has not released.
  held : WorkerId → JobId → Bool := fun _ _ => false
  -- The worker that claimed a job last, and the queue that it claimed the job from.
  lastClaim : JobId → Option WorkerId := fun _ => none
  claimedFrom : JobId → Option QueueKey := fun _ => none
  dispatched : List (WorkerId × JobId) := []
  sweeps : Pid → Sweep := fun _ => {}

structure World where
  store : Store
  mem : WorkerId → Memory
  history : History

namespace World

def ofStore (store : Store) : World where
  store
  mem _ := {}
  history := {}

def setMem (w : World) (worker : WorkerId) (update : Memory → Memory) : World :=
  { w with mem := Function.update w.mem worker (update (w.mem worker)) }

end World

namespace History

def claim (h : History) (worker : WorkerId) (queue : QueueKey) (ids : List JobId) : History :=
  { h with
    claims := fun owner id =>
      if owner = worker ∧ id ∈ ids then some .main else h.claims owner id
    held := fun owner id => if owner = worker ∧ id ∈ ids then true else h.held owner id
    lastClaim := fun id => if id ∈ ids then some worker else h.lastClaim id
    claimedFrom := fun id => if id ∈ ids then some queue else h.claimedFrom id }

def unclaim (h : History) (worker : WorkerId) (id : JobId) : History :=
  { h with claims := fun owner other =>
      if owner = worker ∧ other = id then none else h.claims owner other }

-- The worker gives a job up, and its lock too if it has been freed.
def release (h : History) (worker : WorkerId) (id : JobId) (freed : Bool) : History :=
  { h.unclaim worker id with held := fun owner other =>
      if freed ∧ owner = worker ∧ other = id then false else h.held owner other }

def handOver (h : History) (worker : WorkerId) (id : JobId) (task : Pid) : History :=
  { h with
    claims := fun owner other =>
      if owner = worker ∧ other = id then (h.claims owner other).map fun _ => .task task
      else h.claims owner other
    dispatched := h.dispatched ++ [(worker, id)] }

-- A crash ends what the worker had begun.
def crash (h : History) (worker : WorkerId) : History :=
  { h with
    claims := fun owner id => if owner = worker then none else h.claims owner id
    held := fun owner id => if owner = worker then false else h.held owner id
    sweeps := fun pid => if (h.sweeps pid).host = worker then {} else h.sweeps pid }

def setSweep (h : History) (pid : Pid) (sweep : Sweep) : History :=
  { h with sweeps := Function.update h.sweeps pid sweep }

-- How far a heartbeat has come with the job it looks at.
def noteSweep (h : History) (pid : Pid) (host : WorkerId) :
    (c : Cmd) → Except RedisError c.Answer → History
  | .getActiveJobIds worker, _ => h.setSweep pid { host, worker }
  | .getJobDataMap id, .ok none =>
      h.setSweep pid { host, worker := (h.sweeps pid).worker, settling := some id }
  | .tryLockJob id _ _, .ok true =>
      h.setSweep pid { host, worker := (h.sweeps pid).worker, settling := some id }
  | .removeActiveJob _ _, _ => h.setSweep pid { host, worker := (h.sweeps pid).worker }
  | .releaseJobLockIfOwner _ _, _ => h.setSweep pid { host, worker := (h.sweeps pid).worker }
  | _, _ => h

-- What a worker's own processes do to its claims.
def noteClaims (h : History) (role : Role) :
    (c : Cmd) → Except RedisError c.Answer → History
  | .atomicClaimReadyJobs args, .ok ids => h.claim args.workerId args.queueKey ids
  | .removeActiveJob worker id, _ => if role.Claims worker then h.unclaim worker id else h
  | .releaseJobLockIfOwner id owner, answer =>
      if role.Claims owner then h.release owner id answer.isOk else h
  | .releaseJobLock id, answer =>
      match role.host with
      | some worker => h.release worker id answer.isOk
      | none => h
  | .atomicRequeueJob args, answer =>
      if role.Claims args.releasingOwner then
        h.release args.releasingOwner args.id (answer.toOption.any (0 < ·))
      else h
  | _, _ => h

def note (h : History) (pid : Pid) (role : Role) (c : Cmd) (answer : Except RedisError c.Answer) :
    History :=
  match role with
  | .heartbeat host => h.noteSweep pid host c answer
  | _ => h.noteClaims role c answer

end History

namespace World

def exec (pid : Pid) (role : Role) : (op : Op) → Chance → World → op.Reply × World
  | .redis command, chance, w =>
      let (answer, store) := command.exec chance.fault chance.page w.store
      (answer, { w with store, history := w.history.note pid role command answer })
  | .utcNow, chance, w => (chance.now, w)
  | .newId, chance, w => (chance.text, w)
  | .shutdownRequested worker, _, w => ((w.mem worker).shutdown, w)
  | .fetchCount _, chance, w => (chance.count, w)
  | .acquirePermit _, chance, w => (chance.flag, w)
  | .insertRunning worker id info, _, w =>
      ((), w.setMem worker fun m => { m with running := assign m.running id info })
  | .spawnTask self job _, chance, w =>
      (chance.child, { w with history := w.history.handOver self.workerId job.id chance.child })
  | .insertAbort worker id task, _, w =>
      ((), w.setMem worker fun m => { m with aborts := assign m.aborts id task })
  | .noteRunning worker id update, _, w =>
      ((), w.setMem worker fun m => { m with running := m.running.map fun entry =>
        if entry.1 = id then (id, update entry.2) else entry })
  | .execute _ _ _ _ _, chance, w => (chance.result, w)
  | .removeRunning worker id, _, w =>
      ((), w.setMem worker fun m => { m with running := unassign m.running id })
  | .removeAbort worker id, _, w =>
      ((), w.setMem worker fun m => { m with aborts := unassign m.aborts id })
  | .runningJobs worker, _, w => ((w.mem worker).running, w)
  | .graceOver _, chance, w => (chance.flag, w)
  | .abortTasks worker, _, w =>
      ((), w.setMem worker fun m => { m with aborted := m.aborts.map Prod.snd })
  | .requestShutdown worker, _, w => ((), w.setMem worker fun m => { m with shutdown := true })
  | .spawnHeartbeat _ _, chance, w => (chance.child, w)

end World

abbrev Proc (α : Type) := Prog Op Op.Reply α

def perform (op : Op) : Proc op.Reply := Prog.perform op

def redis (command : Cmd) : Proc (Except RedisError command.Answer) := perform (.redis command)

-- A value that is given, or else one that is asked for.
def given {α : Type} (value : Option α) (ask : Proc α) : Proc α :=
  match value with
  | some value => pure value
  | none => ask

section Running

variable {α : Type} {pid : Pid} {role : Role} {oracle : Nat → Op → Chance}
  {post : α → World → Prop} {n : Nat} {w : World}

-- One command of a program run alone: all that later operations can see is its answer, the
-- store and the memory.
theorem ends_redis {c : Cmd} {next : Except RedisError c.Answer → Proc α}
    (h : ∀ answer store w',
      c.exec (oracle n (.redis c)).fault (oracle n (.redis c)).page w.store = (answer, store) →
      w'.store = store → w'.mem = w.mem →
      Prog.Ends (World.exec pid role) oracle post (next answer) (n + 1) w') :
    Prog.Ends (World.exec pid role) oracle post (redis c >>= next) n w :=
  Prog.ends_call (h _ _ _ rfl rfl rfl)

theorem ends_utcNow {next : DateTime → Proc α}
    (h : ∀ now, Prog.Ends (World.exec pid role) oracle post (next now) (n + 1) w) :
    Prog.Ends (World.exec pid role) oracle post (perform .utcNow >>= next) n w :=
  Prog.ends_call (h _)

theorem ends_graceOver {worker : WorkerId} {next : Bool → Proc α}
    (h : ∀ expired, Prog.Ends (World.exec pid role) oracle post (next expired) (n + 1) w) :
    Prog.Ends (World.exec pid role) oracle post (perform (.graceOver worker) >>= next) n w :=
  Prog.ends_call (h _)

theorem ends_runningJobs {worker : WorkerId} {next : List (JobId × RunningJobInfo) → Proc α}
    (h : Prog.Ends (World.exec pid role) oracle post (next (w.mem worker).running) (n + 1) w) :
    Prog.Ends (World.exec pid role) oracle post (perform (.runningJobs worker) >>= next) n w :=
  Prog.ends_call h

end Running

end Rrq
