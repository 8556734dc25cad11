import Rrq.Concurrent.Pool
import Rrq.Client
import Rrq.Worker.Run

-- The whole system: workers, their tasks and heartbeats, and the calls of clients.

namespace Rrq

inductive Request where
  | enqueue (config : Producer.Config) (functionName : String) (params : Params)
      (options : Producer.EnqueueOptions)
  | enqueueWithRateLimit (config : Producer.Config) (functionName : String) (params : Params)
      (options : Producer.EnqueueOptions) (key : String) (window : Producer.Duration)
  | enqueueWithDebounce (config : Producer.Config) (functionName : String) (params : Params)
      (options : Producer.EnqueueOptions) (key : String) (window : Producer.Duration)
  | clientEnqueue (settings : RRQSettings) (functionName : String) (params : Params)
      (options : RRQClient.EnqueueOptions)
  | jobCancel (id : JobId)

def Request.program : Request → Proc Unit
  | enqueue config functionName params options => do
      let _ ← Producer.enqueue config functionName params options
      pure ()
  | enqueueWithRateLimit config functionName params options key window => do
      let _ ← Producer.enqueueWithRateLimit config functionName params options key window
      pure ()
  | enqueueWithDebounce config functionName params options key window => do
      let _ ← Producer.enqueueWithDebounce config functionName params options key window
      pure ()
  | clientEnqueue settings functionName params options => do
      let _ ← RRQClient.enqueue settings functionName params options
      pure ()
  | jobCancel id => Rrq.jobCancel id

inductive EnvEvent where
  | advance (now : Int)
  | start (pid : Pid) (self : RRQWorker) (fuel : Nat)
  | crash (worker : WorkerId)
  -- A task that was told to stop does so.
  | kill (worker : WorkerId) (task : Pid)
  | requestShutdown (worker : WorkerId)
  | call (pid : Pid) (request : Request)

namespace World

def move : EnvEvent → World → Option World
  | .advance now, w =>
      if w.store.now ≤ now then some { w with store := w.store.advance now } else none
  | .start _ self _, w =>
      if (w.mem self.workerId).alive then none
      else some (w.setMem self.workerId fun _ => { alive := true })
  | .crash worker, w =>
      if (w.mem worker).alive then
        some { w.setMem worker (fun _ => {}) with history := w.history.crash worker }
      else none
  | .kill worker task, w => if task ∈ (w.mem worker).aborted then some w else none
  | .requestShutdown worker, w =>
      if (w.mem worker).alive then
        some (w.setMem worker fun m => { m with shutdown := true })
      else none
  | .call _ _, w => some w

end World

def EnvEvent.stops : EnvEvent → Pid → Role → Bool
  | crash worker, _, role => role.host = some worker
  | kill worker task, pid, role => pid = task ∧ role = .task worker
  | _, _, _ => false

def EnvEvent.spawn : EnvEvent → Option (Pid × Role × Proc Unit)
  | start pid self fuel => some (pid, .main self.workerId, self.run fuel)
  | call pid request => some (pid, .client, request.program)
  | _ => none

def Op.fork : (op : Op) → op.Reply → Option (Pid × Role × Proc Unit)
  | spawnTask self job queueName, task =>
      some (task, .task self.workerId, self.taskProgram job queueName)
  | spawnHeartbeat self fuel, heartbeat =>
      some (heartbeat, .heartbeat self.workerId, self.heartbeatLoop fuel fuel)
  | _, _ => none

def system : Machine Op Op.Reply Chance World Pid Role EnvEvent where
  exec := World.exec
  fork _ _ := Op.fork
  move := World.move
  stops := EnvEvent.stops
  spawn := EnvEvent.spawn

abbrev System := Pool Op Op.Reply World Pid Role

-- Nothing runs, and there are no jobs.
def System.start : System where
  state := .ofStore .empty
  procs _ := none

-- A client enqueues a job, and a worker starts and claims it.
def claimRun : List (Label Chance Pid EnvEvent) :=
  [.env (.call 0 (.enqueue {} "f" [] { jobId := some "j", enqueueTime := some ⟨0⟩ })), .run 0 {},
    .env (.start 1 (.ofDefaults "w0") 1), .run 1 { child := 2 }] ++ List.replicate 6 (.run 1 {})

end Rrq
