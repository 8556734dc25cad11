import Mathlib.Data.List.Dedup
import Mathlib.Data.List.Sort
import Rrq.Worker.Execute

-- How a worker starts: the runners that its queues need, and the checks on what its queues
-- are routed to.

namespace Rrq

structure RunnerConfig where
  cmd : Option (List String) := none
  poolSize : Option Nat := none
  maxInFlight : Option Nat := none
  tcpPort : Option Nat := none

-- The settings with what only the start of a worker reads.
structure WorkerSettings extends RRQSettings where
  runners : List (String × RunnerConfig) := []
  -- The runners are processes of their own, that the worker does not spawn.
  externalMode : Bool := false

def WorkerSettings.runnerNames (settings : WorkerSettings) : List String :=
  settings.runners.map Prod.fst

-- Loading the settings normalises the names of queues.
def normalizeQueueFields (settings : WorkerSettings) : WorkerSettings :=
  { settings with
    defaultQueueName := normalizeQueueName settings.defaultQueueName
    runnerRoutes := settings.runnerRoutes.map fun route => (normalizeQueueName route.1, route.2) }

-- The checks of a runner, but for its endpoint in external mode.
def RunnerConfig.valid (settings : WorkerSettings) (numCpus : Nat) (config : RunnerConfig) : Bool :=
  let poolSize := if settings.externalMode then 1 else config.poolSize.getD numCpus
  config.poolSize ≠ some 0 && config.maxInFlight ≠ some 0 &&
    (settings.externalMode || config.cmd.isSome) &&
    config.tcpPort.any fun port => port ≠ 0 && decide (port + (poolSize - 1) < 2 ^ 16)

def validateRunnerConfigs (settings : WorkerSettings) (numCpus : Nat) : Bool :=
  decide (0 < settings.defaultJobTimeoutSeconds) &&
    decide (0 ≤ settings.defaultLockTimeoutExtensionSeconds) &&
    (provisionalClaimLockTimeoutMs settings.toRRQSettings).isSome &&
    settings.runners.all fun runner => runner.2.valid settings numCpus

-- The settings that a file gives, when they are accepted.
def loadTomlSettings (given : WorkerSettings) (numCpus : Nat) : Option WorkerSettings :=
  let settings := normalizeQueueFields given
  if validateRunnerConfigs settings numCpus then some settings else none

def bareQueueName (queueName : QueueKey) : String :=
  String.ofList (queueName.toList.drop QUEUE_KEY_PREFIX.length)

section Needed

variable (settings : WorkerSettings)

def effectiveQueues : Option (List String) → List QueueKey
  | none | some [] => [normalizeQueueName settings.defaultQueueName]
  | some queues => queues.map normalizeQueueName

def neededRoute (queue : QueueKey) : Option String :=
  (settings.runnerRoutes.lookup queue).or (settings.runnerRoutes.lookup (bareQueueName queue))

def determineNeededRunners (queues : Option (List String)) : List String :=
  let effective := effectiveQueues settings queues
  let needsDefaultRunner := effective.any fun queue => (neededRoute settings queue).isNone
  effective.filterMap (neededRoute settings) ++
    if needsDefaultRunner && settings.defaultRunnerName ≠ "" then [settings.defaultRunnerName]
    else []

end Needed

-- One runner is built. Its processes start or fail to.
def buildRunner (settings : WorkerSettings) (starts : String → Except String Unit)
    (runner : String × RunnerConfig) : Except String String :=
  if !settings.externalMode && (runner.2.cmd.getD []).isEmpty then
    .error ("cmd must not be empty for runner '" ++ runner.1 ++ "'")
  else if runner.2.tcpPort.isNone then
    .error ("runner '" ++ runner.1 ++ "' is missing required field 'tcp_port'")
  else (starts runner.1).map fun () => runner.1

def buildRunnersFromSettingsFiltered (settings : WorkerSettings) (needed : List String)
    (starts : String → Except String Unit) : Except String (List String) :=
  (settings.runners.filter fun runner => runner.1 ∈ needed).mapM (buildRunner settings starts)

-- The routing checks, over routes and queues that are normalised.
def checkRouting (settings : RRQSettings) (runners : List String) (queues : List QueueKey) :
    Except String Unit :=
  let routed := resolveRoutedRunner settings.runnerRoutes
  if (queues.any fun queue => (routed queue).isNone) && settings.defaultRunnerName ∉ runners then
    .error ("default runner '" ++ settings.defaultRunnerName ++ "' is not configured")
  else
    let missing := queues.findSome? fun queue =>
      ((routed queue).filter (· ∉ runners)).map fun runner => (queue, runner)
    match missing with
    | some (queue, runner) => .error ("queue '" ++ queue ++ "' routes to runner '" ++ runner ++
        "' but that runner is not configured")
    | none => .ok ()

def lockTimeoutError (settings : RRQSettings) : String :=
  if settings.defaultJobTimeoutSeconds ≤ 0 then "default_job_timeout_seconds must be positive"
  else if settings.defaultLockTimeoutExtensionSeconds < 0 then
    "default_lock_timeout_extension_seconds must be >= 0"
  else "provisional claim lock timeout overflow"

namespace RRQWorker

-- The settings that a worker works with, and its queues.

def normalized (settings : RRQSettings) : RRQSettings :=
  { settings with
    defaultQueueName := normalizeQueueName settings.defaultQueueName
    runnerRoutes := settings.runnerRoutes.map fun route => (normalizeQueueName route.1, route.2) }

def ownQueues (settings : RRQSettings) (queues : Option (List String)) : List QueueKey :=
  let chosen := queues.getD [(normalized settings).defaultQueueName]
  ((chosen.map normalizeQueueName).insertionSort (· ≤ ·)).dedup

theorem mem_ownQueues {settings : RRQSettings} {queues : Option (List String)} {queue : QueueKey} :
    queue ∈ ownQueues settings queues ↔
      ∃ name ∈ queues.getD [(normalized settings).defaultQueueName],
        normalizeQueueName name = queue := by
  simp [ownQueues]

theorem normal_of_mem_ownQueues {settings : RRQSettings} {queues : Option (List String)}
    {queue : QueueKey} (h : queue ∈ ownQueues settings queues) :
    normalizeQueueName queue = queue := by
  obtain ⟨name, -, rfl⟩ := mem_ownQueues.mp h
  exact normalizeQueueName_idem name

def new (settings : RRQSettings) (queues : Option (List String)) (workerId : WorkerId)
    (runners : List String) (burst : Bool) (workerConcurrency : Nat) : Except String RRQWorker :=
  if hqueues : ownQueues settings queues = [] then
    .error "worker must be configured with at least one queue"
  else
    match checkRouting (normalized settings) runners (ownQueues settings queues) with
    | .error error => .error error
    | .ok () =>
        if runners = [] then .error "RRQWorker requires at least one runner"
        else if workerConcurrency = 0 then .error "worker_concurrency must be positive"
        else
          match htimeout : Rrq.provisionalClaimLockTimeoutMs (normalized settings) with
          | none => .error (lockTimeoutError settings)
          | some provisionalClaimLockTimeoutMs => .ok
              { settings := normalized settings, queues := ownQueues settings queues, workerId
                runners, provisionalClaimLockTimeoutMs, burst
                queues_ne := hqueues
                queues_normal := fun _ => normal_of_mem_ownQueues
                timeout_eq := htimeout }

end RRQWorker

-- The slots of the runners that are started, at least one.
def effectiveConcurrency (settings : WorkerSettings) (needed : List String) (watchMode : Bool)
    (numCpus : Nat) : Nat :=
  let chosen := settings.runners.filter fun runner => runner.1 ∈ needed
  let slots := chosen.map fun runner =>
    let poolSize :=
      if settings.externalMode || watchMode then 1 else runner.2.poolSize.getD numCpus
    let maxInFlight := if watchMode then 1 else runner.2.maxInFlight.getD 1
    poolSize * maxInFlight
  max 1 slots.sum

def runWorker (settings : WorkerSettings) (queues : List String) (burst watchMode : Bool)
    (numCpus : Nat) (starts : String → Except String Unit) (workerId : WorkerId) :
    Except String RRQWorker :=
  let selection := if queues = [] then none else some queues
  let needed := determineNeededRunners settings selection
  match buildRunnersFromSettingsFiltered settings needed starts with
  | .error error => .error error
  | .ok runners => RRQWorker.new settings.toRRQSettings selection workerId runners burst
      (effectiveConcurrency settings needed watchMode numCpus)

end Rrq
