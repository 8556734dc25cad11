import Rrq.JobStore
import Rrq.Concurrent.Pool

-- Putting jobs of the dead letter queue back into a queue, among workers that go on.

namespace Rrq.Dlq

inductive Op where
  | utcNow
  | getDlqJobIds (dlqKey : String)
  | getJobDataMap (id : JobId)
  | dlqRemoveJob (dlqKey : String) (id : JobId)
  | addJobToQueue (queueKey : QueueKey) (id : JobId) (score : ℚ)
  | updateJobFields (id : JobId) (status : JobStatus) (queueName : QueueKey)

@[reducible] def Op.Reply : Op → Type
  | utcNow => DateTime
  | getDlqJobIds _ => Except RedisError (List JobId)
  | getJobDataMap _ => Except RedisError (Option JobHash)
  | dlqRemoveJob _ _ => Except RedisError Int
  | addJobToQueue _ _ _ => Except RedisError Unit
  | updateJobFields _ _ _ => Except RedisError Unit

abbrev Task (α : Type) := Prog Op Op.Reply α

def perform (op : Op) : Task op.Reply := Prog.perform op

structure Options where
  dlqName : Option String := none
  targetQueue : Option String := none
  queue : Option String := none
  function : Option String := none
  jobId : Option JobId := none
  limit : Option Nat := none
  all : Bool := false
  dryRun : Bool := false

inductive Report where
  | refused
  | dryRun (ids : List JobId)
  | requeued (count : Nat)

def queueMatches (filter jobQueue : String) : Bool :=
  normalizeQueueName filter = normalizeQueueName jobQueue

namespace Options

variable (settings : RRQSettings) (options : Options)

def dlqKey : String :=
  withPrefix DLQ_KEY_PREFIX (options.dlqName.getD settings.defaultDlqName)

def target : QueueKey :=
  normalizeQueueName (options.targetQueue.getD settings.defaultQueueName)

def hasFilter : Bool :=
  options.queue.isSome || options.function.isSome || options.jobId.isSome

-- Whether the job that the list names so, with this hash, passes the filters.
def selects (id : JobId) (jobMap : JobHash) : Bool :=
  options.jobId.all (id = ·) &&
    options.queue.all (queueMatches · (jobMap.queueName.getD "")) &&
    options.function.all (jobMap.functionName = some ·)

end Options

def collect (options : Options) :
    List JobId → List JobHash → Task (Except RedisError (List JobHash))
  | [], jobs => pure (.ok jobs)
  | id :: ids, jobs => do
      match ← perform (.getJobDataMap id) with
      | .error error => pure (.error error)
      | .ok none => collect options ids jobs
      | .ok (some jobMap) =>
          collect options ids (if options.selects id jobMap then jobs ++ [jobMap] else jobs)

def requeueEach (dlqKey : String) (target : QueueKey) :
    List JobHash → Nat → Task (Except RedisError Nat)
  | [], requeued => pure (.ok requeued)
  | job :: jobs, requeued =>
      let id := job.id.getD ""
      if id = "" then requeueEach dlqKey target jobs requeued
      else do
        match ← perform (.dlqRemoveJob dlqKey id) with
        | .error error => pure (.error error)
        | .ok removed =>
            if 0 < removed then do
              let now ← perform .utcNow
              match ← perform (.addJobToQueue target id now.timestampMillis) with
              | .error error => pure (.error error)
              | .ok () => do
                  -- What comes of the update is ignored.
                  let _ ← perform (.updateJobFields id .Pending target)
                  requeueEach dlqKey target jobs (requeued + 1)
            else requeueEach dlqKey target jobs requeued

def dlqRequeue (settings : RRQSettings) (options : Options) :
    Task (Except RedisError Report) :=
  if options.hasFilter = false ∧ options.all = false then pure (.ok .refused)
  else do
    match ← perform (.getDlqJobIds (options.dlqKey settings)) with
    | .error error => pure (.error error)
    | .ok ids =>
        match ← collect options ids [] with
        | .error error => pure (.error error)
        | .ok jobs =>
            let jobs := match options.limit with
              | some limit => jobs.take limit
              | none => jobs
            if options.dryRun then pure (.ok (.dryRun (jobs.map fun job => job.id.getD "")))
            else do
              match ← requeueEach (options.dlqKey settings) (options.target settings) jobs 0 with
              | .error error => pure (.error error)
              | .ok requeued => pure (.ok (.requeued requeued))

-- What the state leaves open about one operation.
structure Chance where
  fault : Fault := .none
  now : DateTime := ⟨0⟩

-- What the properties speak about of the past of one requeue.
structure Watch where
  -- Taken from the list and not yet entered into the queue.
  moving : Option JobId := none
  -- Entered into the queue.
  shown : JobId → Bool := fun _ => false
  -- Since then a worker has sent a command that may set the status of the job.
  touched : JobId → Bool := fun _ => false
  -- Since then a worker has claimed the job or has changed its status.
  wrote : JobId → Bool := fun _ => false

abbrev Pid := Nat

structure State where
  store : Store
  watch : Pid → Watch := fun _ => {}

namespace State

def setWatch (st : State) (pid : Pid) (watch : Watch) : State :=
  { st with watch := Function.update st.watch pid watch }

def exec (pid : Pid) : (op : Op) → Chance → State → op.Reply × State
  | .utcNow, chance, st => (chance.now, st)
  | .getDlqJobIds dlqKey, chance, st =>
      match chance.fault with
      | .none => (.ok (st.store.dlq dlqKey), st)
      | _ => (.error .failed, st)
  | .getJobDataMap id, chance, st =>
      match chance.fault with
      | .none => (.ok (st.store.hash id), st)
      | _ => (.error .failed, st)
  | .dlqRemoveJob dlqKey id, chance, st =>
      match chance.fault with
      | .none =>
          if id ∈ st.store.dlq dlqKey then
            let store := st.store.setDlq dlqKey ((st.store.dlq dlqKey).erase id)
            (.ok 1, { st with store }.setWatch pid { st.watch pid with moving := some id })
          else (.ok 0, st)
      | _ => (.error .failed, st)
  | .addJobToQueue queueKey id score, chance, st =>
      match chance.fault with
      | .none =>
          let watch := st.watch pid
          (.ok (), { st with store := st.store.zadd queueKey id score }.setWatch pid { watch with
            moving := none
            shown := fun other => if other = id then true else watch.shown other })
      | _ => (.error .failed, st)
  | .updateJobFields id status queueName, chance, st =>
      match chance.fault with
      | .none => (.ok (), { st with store := st.store.hset id fun h =>
          { h with status := some status.asStr, queueName := some queueName } })
      | _ => (.error .failed, st)

end State

-- A command that may set the status of the job. A claim may take any job of its queue.
def settles (id : JobId) (s : Store) : Cmd → Bool
  | .atomicClaimReadyJobs args => id ∈ s.queues args.queueKey
  | .markJobPending other _ => other = id
  | .updateJobStatus other _ => other = id
  | .atomicRetryJob other _ _ _ _ => other = id
  | .atomicMoveJobToDlq other _ _ _ _ _ => other = id
  | .moveJobToDlq other _ _ _ => other = id
  | .atomicRequeueJob args => args.id = id
  | .saveJobResult other _ _ _ => other = id
  | .atomicEnqueueJob other _ _ _ => other = id
  | .producerEnqueue args _ _ => args.id = id
  | .producerRateLimit args _ _ => args.id = id
  | .producerDebounce _ _ _ => true
  | _ => false

def claimed (id : JobId) : (c : Cmd) → Except RedisError c.Answer → Bool
  | .atomicClaimReadyJobs _, .ok ids => id ∈ ids
  | _, _ => false

-- A worker has had a command answered that turned the one store into the other.
def Watch.note (watch : Watch) (c : Cmd) (answer : Except RedisError c.Answer) (s t : Store) :
    Watch :=
  { watch with
    touched := fun id => watch.touched id || watch.shown id && settles id s c
    wrote := fun id => watch.wrote id ||
      watch.shown id && (claimed id c answer || t.status id ≠ s.status id) }

inductive EnvEvent where
  | call (pid : Pid) (settings : RRQSettings) (options : Options)
  | crash (pid : Pid)
  | advance (now : Int)
  | worker (command : Cmd) (fault : Fault := .none) (page : Nat × List String := (0, []))
  | client (command : Cmd) (fault : Fault := .none) (page : Nat × List String := (0, []))

namespace EnvEvent

def move : EnvEvent → State → Option State
  | call _ _ _, st => some st
  | crash _, st => some st
  | advance now, st =>
      if st.store.now ≤ now then some { st with store := st.store.advance now } else none
  | worker command fault page, st =>
      let (answer, store) := command.exec fault page st.store
      some { store, watch := fun pid => (st.watch pid).note command answer st.store store }
  | client command fault page, st =>
      some { st with store := (command.exec fault page st.store).2 }

def stops : EnvEvent → Pid → Unit → Bool
  | crash pid, other, _ => other = pid
  | _, _, _ => false

def spawn : EnvEvent → Option (Pid × Unit × Task Unit)
  | call pid settings options => some (pid, (), do
      let _ ← dlqRequeue settings options
      pure ())
  | _ => none

end EnvEvent

def system : Machine Op Op.Reply Chance State Pid Unit EnvEvent where
  exec pid _ := State.exec pid
  fork _ _ _ _ := none
  move := EnvEvent.move
  stops := EnvEvent.stops
  spawn := EnvEvent.spawn

abbrev System := Pool Op Op.Reply State Pid Unit

-- Nothing is requeued.
def System.idle (s : Store) : System where
  state := { store := s }
  procs _ := none

-- One requeue, at its start.
def System.requeueing (s : Store) (settings : RRQSettings) (options : Options) : System where
  state := { store := s }
  procs pid := if pid = 0 then some ((), do
      let _ ← dlqRequeue settings options
      pure ()) else none

end Rrq.Dlq
