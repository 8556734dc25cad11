import Rrq.Concurrent.Events
import Rrq.Producer.Calls
import Rrq.Store.Placed
import Rrq.System.Permits

-- Jobs on their way in and out of the queues, one call after another. A job is in the queue
-- that its hash names, and in no other.

namespace Rrq

open Prog

namespace Op

-- The operations that leave every job in the queue it belongs to.
def Fits (belongs : JobId → QueueKey → Prop) : Op → Prop
  | redis c => c.Fits belongs
  | insertRunning _ id info => belongs id (normalizeQueueName info.queueName)
  | noteRunning _ _ _ => False
  | _ => True

-- The operations of an enqueue of the client.
def Adds : Op → Prop
  | redis c => c.Adds
  | utcNow => True
  | newId => True
  | _ => False

-- The hashes that are read, and the jobs that run, are of jobs that belong to a queue.
def Shows (belongs : JobId → QueueKey → Prop) : (op : Op) → op.Reply → Prop
  | redis (.getJobDataMap id), reply => ∀ h, reply = .ok (some h) → h.id = some id ∧
      ∃ queue, h.queueName = some queue ∧ belongs id queue ∧ normalizeQueueName queue = queue
  | runningJobs _, reply => ∀ entry ∈ reply, belongs entry.1 (normalizeQueueName entry.2.queueName)
  | _, _ => True

end Op

-- The jobs in the store and the maps of the workers belong to these queues.
structure World.Settled (belongs : JobId → QueueKey → Prop) (w : World) : Prop where
  store : w.store.PlacedAs belongs
  running : ∀ worker, ∀ entry ∈ (w.mem worker).running,
    belongs entry.1 (normalizeQueueName entry.2.queueName)

section Exec

variable {belongs : JobId → QueueKey → Prop} {w : World} {pid : Pid} {role : Role}

theorem of_mem_assign {β : Type} {entries : List (JobId × β)} {id : JobId} {value : β}
    {entry : JobId × β} (h : entry ∈ assign entries id value) :
    entry ∈ entries ∨ entry = (id, value) := by
  simp only [assign, List.mem_append, List.mem_filter, List.mem_singleton] at h
  exact h.imp And.left fun he => he

theorem World.Settled.setMem (hw : w.Settled belongs) (worker : WorkerId)
    (update : Memory → Memory) (h : ∀ entry ∈ (update (w.mem worker)).running,
      belongs entry.1 (normalizeQueueName entry.2.queueName)) :
    (w.setMem worker update).Settled belongs where
  store := hw.store
  running owner entry hentry := by
    by_cases ho : owner = worker
    · subst ho
      simp only [World.setMem, Function.update_self] at hentry
      exact h entry hentry
    · simp only [World.setMem, Function.update_of_ne ho] at hentry
      exact hw.running owner entry hentry

theorem getJobDataMap_shows {s : Store} (hs : s.PlacedAs belongs) (id : JobId) (fault : Fault)
    (page : Nat × List String) :
    (Op.redis (.getJobDataMap id)).Shows belongs ((Cmd.getJobDataMap id).exec fault page s).1 := by
  intro h hread
  have hhash : s.hash id = some h := by
    cases fault with
    | none => exact Except.ok.inj hread
    | _ => cases hread
  obtain ⟨cell, hcell, rfl⟩ := Option.map_eq_some_iff.mp hhash
  obtain ⟨queue, hqueue⟩ := hs.placed.stored id (by rw [hcell]; rfl)
  obtain ⟨raw, hraw, hid, hname, hnormal⟩ := hqueue.hash
  obtain rfl := Option.some.inj (hhash.symm.trans hraw)
  exact ⟨hid, queue, hname, (hs.belongs id queue).mp hqueue, hnormal⟩

theorem World.Settled.redis (hw : w.Settled belongs) {c : Cmd} (hc : c.Fits belongs)
    {fault : Fault} {page : Nat × List String} {answer : Except RedisError c.Answer} {store : Store}
    {after : World} (hexec : c.exec fault page w.store = (answer, store))
    (hstore : after.store = store) (hmem : after.mem = w.mem) : after.Settled belongs where
  store := by
    have hplaced := Cmd.placedAs_exec hw.store hc fault page
    rw [hexec] at hplaced
    rwa [hstore]
  running := by
    rw [hmem]
    exact hw.running

theorem settled_exec {op : Op} {chance : Chance} (hop : op.Fits belongs)
    (hw : w.Settled belongs) :
    op.Shows belongs (World.exec pid role op chance w).1 ∧
      (World.exec pid role op chance w).2.Settled belongs := by
  cases op with
  | redis c =>
      refine ⟨?_, Cmd.placedAs_exec hw.store hop chance.fault chance.page, hw.running⟩
      cases c with
      | getJobDataMap id => exact getJobDataMap_shows hw.store id chance.fault chance.page
      | _ => trivial
  | insertRunning worker id info =>
      refine ⟨trivial, hw.setMem worker (fun m => { m with running := assign m.running id info })
        fun entry hentry => ?_⟩
      rcases of_mem_assign hentry with hbefore | rfl
      · exact hw.running worker entry hbefore
      · exact hop
  | noteRunning => exact hop.elim
  | removeRunning worker id =>
      exact ⟨trivial, hw.setMem worker (fun m => { m with running := unassign m.running id })
        fun entry hentry => hw.running worker entry (List.mem_of_mem_filter hentry)⟩
  | runningJobs worker => exact ⟨hw.running worker, hw⟩
  | insertAbort worker id task =>
      exact ⟨trivial, hw.setMem worker (fun m => { m with aborts := assign m.aborts id task })
        (hw.running worker)⟩
  | removeAbort worker id =>
      exact ⟨trivial, hw.setMem worker (fun m => { m with aborts := unassign m.aborts id })
        (hw.running worker)⟩
  | abortTasks worker =>
      exact ⟨trivial, hw.setMem worker (fun m => { m with aborted := m.aborts.map Prod.snd })
        (hw.running worker)⟩
  | requestShutdown worker =>
      exact ⟨trivial, hw.setMem worker (fun m => { m with shutdown := true }) (hw.running worker)⟩
  | spawnTask => exact ⟨trivial, hw.store, hw.running⟩
  | _ => exact ⟨trivial, hw⟩

end Exec

-- The programs that give jobs back.

section Programs

variable {belongs : JobId → QueueKey → Prop}

abbrev Orderly {α : Type} (belongs : JobId → QueueKey → Prop) (prog : Proc α) : Prop :=
  prog.Issues (Op.Fits belongs) (Op.Shows belongs)

variable (self : RRQWorker) {id : JobId} {queueName : QueueKey}

theorem orderly_lockOwnedByOther (id : JobId) (attempts : Nat) :
    Orderly belongs (self.lockOwnedByOther id attempts) := by
  induction attempts with
  | zero => trivial
  | succ attempts ih =>
      refine issues_call trivial fun reply _ => ?_
      cases reply with
      | ok owner => trivial
      | error error => exact ih

theorem orderly_addUnlessQueued (h : belongs id (normalizeQueueName queueName)) :
    Orderly belongs (RRQWorker.addUnlessQueued queueName id) := by
  refine issues_call trivial fun reply _ => ?_
  split
  · trivial
  · trivial
  · refine issues_call trivial fun now _ => issues_call h fun reply _ => ?_
    split <;> trivial

theorem orderly_requeueWithoutDefinition (h : belongs id (normalizeQueueName queueName))
    (pendingError : Option String) :
    Orderly belongs
      (RRQWorker.requeueClaimedJobWithoutDefinition queueName id pendingError) := by
  refine issues_call ⟨_, h⟩ fun reply _ => ?_
  split
  · trivial
  · exact orderly_addUnlessQueued h

theorem orderly_cleanupClaimedJobState (id : JobId) :
    Orderly belongs (self.cleanupClaimedJobState id) := by
  refine issues_call trivial fun _ _ => issues_call trivial fun reply _ => ?_
  split
  · trivial
  · trivial
  · exact issues_call trivial fun _ _ => trivial

theorem orderly_releaseClaimedJob (h : belongs id (normalizeQueueName queueName)) (job : Job)
    (pendingError : Option String) :
    Orderly belongs (self.releaseClaimedJob queueName id job pendingError) := by
  have hrequeue : Orderly belongs
      (RRQWorker.requeueClaimedJobIfNeeded queueName id job pendingError) := by
    unfold RRQWorker.requeueClaimedJobIfNeeded
    split_ifs
    · exact orderly_requeueWithoutDefinition h pendingError
    · exact orderly_addUnlessQueued h
    · trivial
  refine issues_bind (orderly_lockOwnedByOther self id 2) fun owner => ?_
  dsimp only
  split_ifs
  · refine issues_bind hrequeue fun done => ?_
    split_ifs
    · exact orderly_cleanupClaimedJobState self id
    · trivial
  · exact orderly_cleanupClaimedJobState self id

theorem orderly_releaseWithoutDefinition (h : belongs id (normalizeQueueName queueName))
    (pendingError : Option String) :
    Orderly belongs (self.releaseClaimedJobWithoutDefinition queueName id pendingError) := by
  refine issues_bind (orderly_lockOwnedByOther self id 2) fun owner => ?_
  split
  · trivial
  · exact orderly_cleanupClaimedJobState self id
  · refine issues_bind (orderly_requeueWithoutDefinition h pendingError) fun done => ?_
    split_ifs
    · exact orderly_cleanupClaimedJobState self id
    · trivial

-- A definition that is read tells the queue that the job belongs to.
def Placed (belongs : JobId → QueueKey → Prop) (job : Job) : Prop :=
  ∃ queue, job.queueName = some queue ∧ belongs job.id queue ∧ normalizeQueueName queue = queue

theorem placed_of_parse {raw : JobHash} {defaultMaxRetries : Int} {job : Job}
    (hraw : (Op.redis (.getJobDataMap id)).Shows belongs (.ok (some raw)))
    (hparse : parseJobMap raw id defaultMaxRetries = .ok job) :
    job.id = id ∧ Placed belongs job := by
  obtain ⟨hid, queue, hqueue, hbelongs, hname⟩ := hraw raw rfl
  obtain ⟨-, hjob, -, -, -, hjobQueue, -⟩ := parseJobMap_ok hparse
  rw [hid, Option.getD_some] at hjob
  exact ⟨hjob, queue, hjobQueue.trans hqueue, hjob ▸ hbelongs, hname⟩

theorem orderly_getJobDefinition {α : Type} {defaultMaxRetries : Int}
    {rest : Except JobStore.LoadError (Option Job) → Proc α}
    (hnone : Orderly belongs (rest (.ok none)))
    (hsome : ∀ job, job.id = id → Placed belongs job → Orderly belongs (rest (.ok (some job))))
    (herror : ∀ error, Orderly belongs (rest (.error error))) :
    Orderly belongs (JobStore.getJobDefinition defaultMaxRetries id >>= rest) := by
  unfold JobStore.getJobDefinition
  rw [bind_assoc]
  refine issues_call trivial fun reply hreply => ?_
  split
  · exact herror _
  · exact hnone
  · split
    · rename_i job hparse
      obtain ⟨hid, hjob⟩ := placed_of_parse hreply hparse
      exact hsome job hid hjob
    · exact herror _

theorem orderly_scheduleRetry {settings : RRQSettings} {job : Job} (hjob : Placed belongs job)
    (errorMessage : String) (delaySeconds : ℚ) :
    Orderly belongs (scheduleRetry settings job errorMessage delaySeconds) := by
  obtain ⟨queue, hqueue, hbelongs, hname⟩ := hjob
  have hnote : ∀ time, Orderly belongs (redis (.updateJobNextScheduledRunTime job.id time)
      >>= fun _ => pure (.ok () : Outcome)) := fun time => by
    refine issues_call ⟨queue, hbelongs⟩ fun _ _ => ?_
    trivial
  have htarget : belongs job.id
      (normalizeQueueName (job.queueName.getD settings.defaultQueueName)) := by
    rwa [hqueue, Option.getD_some, hname]
  refine issues_call trivial fun now _ => issues_call htarget fun reply _ => ?_
  split
  · trivial
  · dsimp only
    split
    · exact hnote _
    · exact issues_call trivial fun now _ => hnote now

theorem orderly_drainJobs (running : List (JobId × RunningJobInfo))
    (h : ∀ entry ∈ running, belongs entry.1 (normalizeQueueName entry.2.queueName)) :
    Orderly belongs (self.drainJobs running) := by
  induction running with
  | nil => trivial
  | cons entry running ih =>
      obtain ⟨id, info⟩ := entry
      have hcleanup : Orderly belongs (redis (.removeActiveJob self.workerId id) >>= fun _ =>
          redis (.releaseJobLockIfOwner id self.workerId) >>= fun _ =>
            pure (.ok () : Except JobStore.LoadError Unit)) := by
        refine issues_call trivial fun _ _ => ?_
        exact issues_call trivial fun _ _ => trivial
      have hrequeue : ∀ status, Orderly belongs (self.drainRequeue id info.queueName status) :=
        fun status => issues_call trivial fun now _ =>
          issues_call (h (id, info) List.mem_cons_self) fun _ _ => trivial
      refine issues_bind (orderly_getJobDefinition ?_ (fun job _ _ => ?_) fun error => trivial)
        fun result => ?_
      · exact hcleanup
      · dsimp only
        split_ifs
        · exact issues_bind (hrequeue _) fun _ => hcleanup
        · exact hcleanup
      · split
        · trivial
        · exact ih fun entry hentry => h entry (List.mem_cons_of_mem _ hentry)

theorem orderly_drainTasks (fuel : Nat) : Orderly belongs (self.drainTasks fuel) := by
  have hawait : Orderly belongs (self.awaitRunning fuel) := by
    induction fuel with
    | zero => trivial
    | succ fuel ih =>
        refine issues_call trivial fun running _ => ?_
        split_ifs
        · trivial
        · refine issues_call trivial fun expired _ => ?_
          split_ifs
          · trivial
          · exact ih
  refine issues_bind hawait fun done => ?_
  split_ifs
  · trivial
  · exact issues_call trivial fun running hrunning => issues_call trivial fun _ _ =>
      orderly_drainJobs self running hrunning

theorem orderly_settleOrphan {worker : WorkerId} {job : Job} {queue : QueueKey}
    (hid : job.id = id) (h : belongs id queue) :
    Orderly belongs (Recover.settleOrphan worker id job queue) := by
  subst hid
  have hdrop : ∀ lockId, Orderly belongs (Recover.dropTracking worker job.id lockId) :=
    fun lockId => issues_call trivial fun _ _ => issues_call trivial fun _ _ => trivial
  refine issues_call trivial fun reply _ => ?_
  split
  · trivial
  · split_ifs
    · exact issues_call ⟨queue, h⟩ fun _ _ => issues_bind (hdrop job.id) fun _ => trivial
    · exact issues_bind (hdrop job.id) fun _ => trivial
  · split_ifs
    · have hask : Orderly belongs (given job.nextScheduledRunTime (perform .utcNow)) := by
        cases job.nextScheduledRunTime with
        | none => exact issues_perform trivial
        | some time => trivial
      refine issues_bind hask fun requeueTime => issues_call h fun reply _ => ?_
      unfold Recover.afterRequeue
      split
      · exact issues_call trivial fun _ _ => trivial
      · split
        · exact issues_call trivial fun _ _ => trivial
        · exact issues_bind (hdrop job.id) fun _ => trivial
        · exact issues_bind (hdrop job.id) fun _ => trivial
    · exact issues_bind (hdrop job.id) fun _ => trivial

theorem orderly_recoverJob (worker : WorkerId) (id : JobId) :
    Orderly belongs (Recover.recoverJob self worker id) := by
  refine issues_call trivial fun shutdown _ => ?_
  split_ifs
  · trivial
  refine issues_call trivial fun reply _ => ?_
  split
  · trivial
  · trivial
  · refine orderly_getJobDefinition ?_ (fun job hid hjob => ?_) fun error => trivial
    · exact issues_call trivial fun _ _ => trivial
    · obtain ⟨queue, hqueue, hbelongs, hname⟩ := hjob
      have htarget : belongs id
          (normalizeQueueName (job.queueName.getD self.settings.defaultQueueName)) := by
        rw [← hid]
        rwa [hqueue, Option.getD_some, hname]
      unfold Recover.recoverFound
      dsimp only
      split
      · trivial
      · split_ifs
        · trivial
        · refine issues_call trivial fun reply _ => ?_
          split
          · trivial
          · trivial
          · exact orderly_settleOrphan hid htarget

theorem orderly_recoverOrphanedJobs (fuel : Nat) :
    Orderly belongs (recoverOrphanedJobs self fuel) :=
  SweepCode.sweepPages
    ⟨fun _ => trivial, fun _ => trivial, fun _ => trivial, orderly_recoverJob self⟩ fuel 0 0

theorem orderly_dispatch {job : Job} (h : belongs job.id (normalizeQueueName queueName))
    (startTime : DateTime) : Orderly belongs (self.dispatch queueName job startTime) :=
  issues_call h fun _ _ => issues_call trivial fun _ _ => issues_perform trivial

theorem orderly_cleanupRunning (id : JobId) : Orderly belongs (self.cleanupRunning id) := by
  refine issues_call trivial fun _ _ => issues_call trivial fun _ _ => ?_
  refine issues_call trivial fun _ _ => issues_call trivial fun _ _ => ?_
  split <;> trivial

theorem orderly_jobCancel (id : JobId) : Orderly belongs (jobCancel id) := by
  refine issues_call trivial fun reply hreply => ?_
  split
  · trivial
  · trivial
  · rename_i raw
    obtain ⟨-, queue, -, hbelongs, -⟩ := hreply raw rfl
    dsimp only
    split_ifs
    · trivial
    · refine issues_call trivial fun reply _ => ?_
      split
      · trivial
      · split_ifs
        · exact issues_call ⟨queue, hbelongs⟩ fun _ _ => trivial
        · trivial
    · trivial

end Programs

-- The programs that bring jobs in.

section Calls

open Producer

variable {α : Type} {w : World} {pid : Pid} {role : Role} {oracle : Nat → Op → Chance} {n : Nat}

-- The program may add jobs, and leaves the others and the maps of the workers as they are.
abbrev Growing (pid : Pid) (role : Role) (oracle : Nat → Op → Chance) (w : World)
    (program : Proc α) (n : Nat) : Prop :=
  Ends (World.exec pid role) oracle
    (fun _ after => Store.Grows w.store after.store ∧ after.mem = w.mem) program n w

theorem growing_adds (hw : w.store.Placed) {program : Proc α}
    (hp : program.Issues Op.Adds fun _ _ => True) : Growing pid role oracle w program n := by
  refine ends_issues hp (fun count op after hop hafter => ⟨trivial, ?_⟩) ⟨hw.grows, rfl⟩
  cases op with
  | redis c => exact ⟨hafter.1.trans (Cmd.grows_adds hafter.1.placed hop _ _), hafter.2⟩
  | utcNow => exact hafter
  | newId => exact hafter
  | _ => exact hop.elim

theorem growing_creates (hw : w.store.Placed) {c : Cmd} (hc : c.Creates w.store)
    (answer : Except RedisError c.Answer → α) :
    Growing pid role oracle w (.call (.redis c) fun reply => .ret (answer reply)) n :=
  ⟨Cmd.grows_exec hw hc _ _, rfl⟩

-- What comes before the script has no part in it.
theorem growing_prepares (hw : w.store.Placed) {rejected : α → Prop} {script : Proc α → Prop}
    {program : Proc α} (hp : Prepares rejected script program)
    (hscript : ∀ rest k, script rest → Growing pid role oracle w rest k) :
    Growing pid role oracle w program n := by
  rcases hp.run pid role oracle n with ⟨answer, k, -, hall⟩ | ⟨rest, k, hrest, hall⟩
  · unfold Growing Ends
    rw [hall w]
    exact ⟨hw.grows, rfl⟩
  · unfold Growing Ends
    rw [hall w]
    exact hscript rest k hrest

theorem growing_bind {β : Type} {program : Proc α} {rest : α → β}
    (h : Growing pid role oracle w program n) :
    Growing pid role oracle w (program >>= fun value => .ret (rest value)) n :=
  ends_bind h fun _ _ _ hafter => hafter

variable {config : Config} {functionName : String} {params : Params} {options : EnqueueOptions}

theorem normal_of_effective {schedule : DateTime → Option DateTime} {args : JobArgs}
    (he : Effective config functionName params options schedule args) :
    normalizeQueueName args.queueName = args.queueName := by
  rw [he.queueName, normalizeQueueName_idem]

theorem growing_enqueue (hw : w.store.Placed) :
    Growing pid role oracle w (Producer.enqueue config functionName params options) n := by
  refine growing_prepares hw enqueue_prepares fun rest k hrest => ?_
  obtain ⟨args, ttlSeconds, he, rfl⟩ := hrest
  have hc : (Cmd.producerEnqueue args (options.idempotencyKey.map (IDEMPOTENCY_KEY_PREFIX ++ ·))
      ttlSeconds).Creates w.store := normal_of_effective he
  exact growing_creates hw hc answered

theorem growing_enqueueWithRateLimit (hw : w.store.Placed) (key : String) (window : Duration) :
    Growing pid role oracle w
      (Producer.enqueueWithRateLimit config functionName params options key window) n := by
  refine growing_prepares hw enqueueWithRateLimit_prepares fun rest k hrest => ?_
  obtain ⟨args, he, -, rfl⟩ := hrest
  have hc : (Cmd.producerRateLimit args (withPrefix RATE_LIMIT_KEY_PREFIX key)
      window.ceilSeconds).Creates w.store := normal_of_effective he
  exact growing_creates hw hc limited

theorem growing_enqueueWithDebounce (hw : w.store.Placed) {key : String} {window : Duration}
    (hkey : ∀ cell ∈ w.store.debounces (withPrefix DEBOUNCE_KEY_PREFIX key),
      w.store.status cell.value = some JobStatus.Pending.asStr →
      ((w.store.hash cell.value).bind JobHash.queueName).map normalizeQueueName =
        some (normalizeQueueName (queueNameOf config options))) :
    Growing pid role oracle w
      (Producer.enqueueWithDebounce config functionName params options key window) n := by
  refine growing_prepares hw enqueueWithDebounce_prepares fun rest k hrest => ?_
  obtain ⟨args, he, rfl⟩ := hrest
  have hc : (Cmd.producerDebounce args (withPrefix DEBOUNCE_KEY_PREFIX key)
      window.ceilSeconds).Creates w.store := by
    refine ⟨normal_of_effective he, fun existing hexisting hpending => ?_⟩
    obtain ⟨cell, hcell, rfl⟩ := Option.map_eq_some_iff.mp hexisting
    have hname := hkey cell hcell hpending
    rw [← he.queueName] at hname
    obtain ⟨found, hfound, hnormal⟩ := Option.map_eq_some_iff.mp hname
    obtain ⟨raw, hraw, hrawQueue⟩ := Option.bind_eq_some_iff.mp hfound
    obtain ⟨stored, hstored, rfl⟩ := Option.map_eq_some_iff.mp hraw
    obtain ⟨queue, hbelongs⟩ := hw.stored cell.value (by rw [hstored]; rfl)
    obtain ⟨again, hagain, -, hqueue, hidem⟩ := hbelongs.hash
    obtain rfl := Option.some.inj (hraw.symm.trans hagain)
    obtain rfl := Option.some.inj (hrawQueue.symm.trans hqueue)
    rwa [← hnormal, hidem]
  exact growing_creates hw hc answered

theorem adds_code : EnqueueCode Op.Adds where
  id := trivial
  clock := trivial
  ttl _ := trivial
  acquire _ _ _ := trivial
  release _ := trivial
  enqueue _ _ _ _ hid hqueue _ hname := ⟨hid, hqueue, hname⟩

end Calls

namespace Queueing

-- What has happened, and what the workers know from it: the queues that they have polled, each
-- with a job that they have claimed from it, and the definitions that they have read.
structure Ledger where
  world : World
  claimed : List (QueueKey × JobId)
  loaded : List Job

def Ledger.start : Ledger := ⟨.ofStore .empty, [], []⟩

inductive Action where
  | advance (now : Int)
  | call (request : Request)
  | claim (queueName : QueueKey) (args : Scripts.ClaimArgs)
  | load (defaultMaxRetries : Int) (id : JobId)
  | dispatch (self : RRQWorker) (queueName : QueueKey) (job : Job) (startTime : DateTime)
  -- A job that has been loaded, by its number.
  | retry (settings : RRQSettings) (loaded : Nat) (errorMessage : String) (delaySeconds : ℚ)
  | cleanup (self : RRQWorker) (id : JobId)
  | release (self : RRQWorker) (queueName : QueueKey) (id : JobId) (job : Job)
      (pendingError : Option String)
  | releaseWithoutDefinition (self : RRQWorker) (queueName : QueueKey) (id : JobId)
      (pendingError : Option String)
  | requestShutdown (self : RRQWorker)
  | drain (self : RRQWorker) (fuel : Nat)
  | recover (self : RRQWorker) (fuel : Nat)

-- Each action runs alone, with what its operations meet.
structure Turn where
  action : Action
  oracle : Nat → Op → Chance := fun _ _ => {}

def Turn.run {α : Type} (turn : Turn) (program : Proc α) (w : World) : α × World :=
  let (answer, _, after) := Prog.run (World.exec 0 .client) turn.oracle program 0 w
  (answer, after)

def Turn.step (turn : Turn) (l : Ledger) : Option Ledger :=
  match turn.action with
  | .advance now =>
      if l.world.store.now ≤ now then
        some { l with world := { l.world with store := l.world.store.advance now } }
      else none
  | .call request => some { l with world := (turn.run request.program l.world).2 }
  | .claim queueName args =>
      let (answer, world) := turn.run (JobStore.atomicClaimReadyJobs
        { args with queueKey := normalizeQueueName queueName }) l.world
      some { l with
        world
        claimed := l.claimed ++ (answer.toOption.getD []).map fun id => (queueName, id) }
  | .load defaultMaxRetries id =>
      let (answer, world) := turn.run (JobStore.getJobDefinition defaultMaxRetries id) l.world
      some { l with world, loaded := l.loaded ++ answer.toOption.join.toList }
  | .dispatch self queueName job startTime =>
      if (queueName, job.id) ∈ l.claimed then
        some { l with world := (turn.run (self.dispatch queueName job startTime) l.world).2 }
      else none
  | .retry settings loaded errorMessage delaySeconds =>
      l.loaded[loaded]?.map fun job =>
        { l with
          world := (turn.run (scheduleRetry settings job errorMessage delaySeconds) l.world).2 }
  | .cleanup self id => some { l with world := (turn.run (self.cleanupRunning id) l.world).2 }
  | .release self queueName id job pendingError =>
      if (queueName, id) ∈ l.claimed then
        some { l with
          world := (turn.run (self.releaseClaimedJob queueName id job pendingError) l.world).2 }
      else none
  | .releaseWithoutDefinition self queueName id pendingError =>
      if (queueName, id) ∈ l.claimed then
        some { l with world := (turn.run
          (self.releaseClaimedJobWithoutDefinition queueName id pendingError) l.world).2 }
      else none
  | .requestShutdown self =>
      some { l with world := (turn.run (perform (.requestShutdown self.workerId)) l.world).2 }
  | .drain self fuel => some { l with world := (turn.run (self.drainTasks fuel) l.world).2 }
  | .recover self fuel =>
      some { l with world := (turn.run (recoverOrphanedJobs self fuel) l.world).2 }

def queueing : EventSystem Ledger Turn := ⟨Turn.step⟩

-- A call that writes over a pending job names the queue that the job belongs to.
def Turn.Agrees (turn : Turn) (l : Ledger) : Prop :=
  match turn.action with
  | .call (.enqueueWithDebounce config _ _ options key _) =>
      ∀ cell ∈ l.world.store.debounces (withPrefix DEBOUNCE_KEY_PREFIX key),
        l.world.store.status cell.value = some JobStatus.Pending.asStr →
        ((l.world.store.hash cell.value).bind JobHash.queueName).map normalizeQueueName =
          some (normalizeQueueName (Producer.queueNameOf config options))
  | _ => True

-- What the store and the workers say of the queue of a job, they say alike.
structure Ledger.Consistent (belongs : JobId → QueueKey → Prop) (l : Ledger) : Prop where
  settled : l.world.Settled belongs
  claimed : ∀ entry ∈ l.claimed, belongs entry.2 (normalizeQueueName entry.1)
  loaded : ∀ job ∈ l.loaded, Placed belongs job

def Ledger.Sound (l : Ledger) : Prop := ∃ belongs, l.Consistent belongs

section Steps

variable {belongs : JobId → QueueKey → Prop} {l : Ledger} {turn : Turn}

theorem settled_run {α : Type} {program : Proc α} {w : World} (hw : w.Settled belongs)
    (hp : Orderly belongs program) (turn : Turn) : (turn.run program w).2.Settled belongs :=
  ends_issues hp (fun _ _ _ hop hafter => settled_exec hop hafter) hw

-- A program that leaves every job in its queue.
theorem Ledger.Consistent.work (h : l.Consistent belongs) {α : Type} {program : Proc α}
    (hp : Orderly belongs program) (turn : Turn) :
    Ledger.Consistent belongs { l with world := (turn.run program l.world).2 } where
  settled := settled_run h.settled hp turn
  claimed := h.claimed
  loaded := h.loaded

-- New jobs take nothing from what is known of the others.
theorem Ledger.Consistent.grow (h : l.Consistent belongs) {w : World}
    (hg : Store.Grows l.world.store w.store) (hm : w.mem = l.world.mem) :
    Ledger.Consistent w.store.Belongs { l with world := w } := by
  have hlater : ∀ id queue, belongs id queue → w.store.Belongs id queue :=
    fun id queue hid => hg.belongs id queue ((h.settled.store.belongs id queue).mpr hid)
  refine ⟨⟨hg.placed.placedAs, fun worker entry hentry => ?_⟩,
    fun entry hentry => hlater _ _ (h.claimed entry hentry), fun job hjob => ?_⟩
  · rw [hm] at hentry
    exact hlater _ _ (h.settled.running worker entry hentry)
  · obtain ⟨queue, hqueue, hbelongs, hname⟩ := h.loaded job hjob
    exact ⟨queue, hqueue, hlater _ _ hbelongs, hname⟩

theorem ends_getJobDefinition {w : World} (hw : w.Settled belongs) {pid : Pid} {role : Role}
    {oracle : Nat → Op → Chance} {n : Nat} (defaultMaxRetries : Int) (id : JobId) :
    Ends (World.exec pid role) oracle
      (fun answer after => after.Settled belongs ∧
        ∀ job, answer = .ok (some job) → Placed belongs job)
      (JobStore.getJobDefinition defaultMaxRetries id) n w := by
  refine ends_redis fun answer store after hexec hstore hmem => ?_
  have hfits : (Cmd.getJobDataMap id).Fits belongs := trivial
  have hafter := hw.redis hfits hexec hstore hmem
  have hshows := getJobDataMap_shows hw.store id
    (oracle n (.redis (.getJobDataMap id))).fault (oracle n (.redis (.getJobDataMap id))).page
  rw [hexec] at hshows
  split
  · exact ends_ret ⟨hafter, by rintro _ ⟨⟩⟩
  · exact ends_ret ⟨hafter, by rintro _ ⟨⟩⟩
  · split
    · rename_i job hparse
      refine ⟨hafter, fun found hfound => ?_⟩
      obtain rfl := Option.some.inj (Except.ok.inj hfound)
      exact (placed_of_parse hshows hparse).2
    · exact ends_ret ⟨hafter, by rintro _ ⟨⟩⟩

theorem ends_atomicClaimReadyJobs {w : World} (hw : w.Settled belongs) {pid : Pid} {role : Role}
    {oracle : Nat → Op → Chance} {n : Nat} (args : Scripts.ClaimArgs) :
    Ends (World.exec pid role) oracle
      (fun answer after => after.Settled belongs ∧
        ∀ ids, answer = .ok ids → ∀ id ∈ ids, belongs id args.queueKey)
      (JobStore.atomicClaimReadyJobs args) n w := by
  unfold JobStore.atomicClaimReadyJobs
  split_ifs
  · refine ⟨hw, fun ids hids id hid => ?_⟩
    obtain rfl := Except.ok.inj hids
    cases hid
  · exact ends_ret ⟨hw, by rintro _ ⟨⟩⟩
  · exact ends_ret ⟨hw, by rintro _ ⟨⟩⟩
  · refine ends_redis fun answer store after hexec hstore hmem => ?_
    have hfits : (Cmd.atomicClaimReadyJobs args).Fits belongs := trivial
    have hafter := hw.redis hfits hexec hstore hmem
    cases answer with
    | error error => exact ends_ret ⟨hafter, by rintro _ ⟨⟩⟩
    | ok ids =>
        refine ⟨hafter, fun found hfound id hid => ?_⟩
        obtain rfl := Except.ok.inj hfound
        have hqueued := Cmd.atomicClaimReadyJobs_mem hexec hid
        exact (hw.store.belongs id _).mp (hw.store.placed.queued _ id hqueued)

theorem claimed_of_answer {answer : Except PollError (List JobId)} {queue : QueueKey}
    (h : ∀ ids, answer = .ok ids → ∀ id ∈ ids, belongs id queue) {id : JobId}
    (hid : id ∈ answer.toOption.getD []) : belongs id queue := by
  cases answer with
  | error error => cases hid
  | ok ids => exact h ids rfl id hid

theorem loaded_of_answer {answer : Except JobStore.LoadError (Option Job)}
    (h : ∀ job, answer = .ok (some job) → Placed belongs job) {job : Job}
    (hjob : job ∈ answer.toOption.join.toList) : Placed belongs job := by
  rcases answer with error | _ | found
  · cases hjob
  · cases hjob
  · obtain rfl := List.mem_singleton.mp hjob
    exact h job rfl

theorem sound_call (h : l.Consistent belongs) {request : Request}
    (ha : Turn.Agrees ⟨.call request, turn.oracle⟩ l) :
    Ledger.Sound { l with world := (turn.run request.program l.world).2 } := by
  have hplaced := h.settled.store.placed
  have hgrow : Growing 0 .client turn.oracle l.world request.program 0 →
      Ledger.Sound { l with world := (turn.run request.program l.world).2 } :=
    fun hends => ⟨_, h.grow hends.1 hends.2⟩
  cases request with
  | enqueue config functionName params options =>
      exact hgrow (growing_bind (growing_enqueue hplaced))
  | enqueueWithRateLimit config functionName params options key window =>
      exact hgrow (growing_bind (growing_enqueueWithRateLimit hplaced key window))
  | enqueueWithDebounce config functionName params options key window =>
      exact hgrow (growing_bind (growing_enqueueWithDebounce hplaced ha))
  | clientEnqueue settings functionName params options =>
      exact hgrow (growing_bind (growing_adds hplaced
        (clientEnqueue_issues adds_code settings functionName params options)))
  | jobCancel id => exact ⟨belongs, h.work (orderly_jobCancel id) turn⟩

theorem sound_step (l : Ledger) (turn : Turn) (after : Ledger) (hl : l.Sound)
    (ha : turn.Agrees l) (hs : turn.step l = some after) : after.Sound := by
  obtain ⟨belongs, h⟩ := hl
  obtain ⟨action, oracle⟩ := turn
  cases action with
  | advance now =>
      simp only [Turn.step, Option.ite_none_right_eq_some, Option.some.injEq] at hs
      obtain ⟨-, rfl⟩ := hs
      have hgrows : Store.Grows l.world.store (l.world.store.advance now) :=
        ⟨h.settled.store.placed.advance now, fun _ _ => Store.belongs_advance now⟩
      exact ⟨_, h.grow (w := { l.world with store := l.world.store.advance now }) hgrows rfl⟩
  | call request =>
      obtain rfl := Option.some.inj hs
      exact sound_call h ha
  | claim queueName args =>
      obtain rfl := Option.some.inj hs
      obtain ⟨hsettled, hids⟩ : Ends _ _ _ _ _ _ := ends_atomicClaimReadyJobs h.settled
        { args with queueKey := normalizeQueueName queueName }
      refine ⟨belongs, hsettled, fun entry hentry => ?_, h.loaded⟩
      rcases List.mem_append.mp hentry with hbefore | hnew
      · exact h.claimed entry hbefore
      · obtain ⟨id, hid, rfl⟩ := List.mem_map.mp hnew
        exact claimed_of_answer hids hid
  | load defaultMaxRetries id =>
      obtain rfl := Option.some.inj hs
      obtain ⟨hsettled, hjobs⟩ : Ends _ _ _ _ _ _ :=
        ends_getJobDefinition h.settled defaultMaxRetries id
      refine ⟨belongs, hsettled, h.claimed, fun job hjob => ?_⟩
      rcases List.mem_append.mp hjob with hbefore | hnew
      · exact h.loaded job hbefore
      · exact loaded_of_answer hjobs hnew
  | dispatch self queueName job startTime =>
      simp only [Turn.step, Option.ite_none_right_eq_some, Option.some.injEq] at hs
      obtain ⟨hclaimed, rfl⟩ := hs
      exact ⟨belongs, h.work (orderly_dispatch self (h.claimed _ hclaimed) startTime) _⟩
  | retry settings loaded errorMessage delaySeconds =>
      simp only [Turn.step, Option.map_eq_some_iff] at hs
      obtain ⟨job, hjob, rfl⟩ := hs
      have hplaced := h.loaded job (List.mem_of_getElem? hjob)
      exact ⟨belongs, h.work (orderly_scheduleRetry hplaced errorMessage delaySeconds) _⟩
  | cleanup self id =>
      obtain rfl := Option.some.inj hs
      exact ⟨belongs, h.work (orderly_cleanupRunning self id) _⟩
  | release self queueName id job pendingError =>
      simp only [Turn.step, Option.ite_none_right_eq_some, Option.some.injEq] at hs
      obtain ⟨hclaimed, rfl⟩ := hs
      exact ⟨belongs, h.work
        (orderly_releaseClaimedJob self (h.claimed _ hclaimed) job pendingError) _⟩
  | releaseWithoutDefinition self queueName id pendingError =>
      simp only [Turn.step, Option.ite_none_right_eq_some, Option.some.injEq] at hs
      obtain ⟨hclaimed, rfl⟩ := hs
      exact ⟨belongs, h.work
        (orderly_releaseWithoutDefinition self (h.claimed _ hclaimed) pendingError) _⟩
  | requestShutdown self =>
      obtain rfl := Option.some.inj hs
      have hp : Orderly belongs (perform (.requestShutdown self.workerId)) :=
        issues_perform trivial
      exact ⟨belongs, h.work hp _⟩
  | drain self fuel =>
      obtain rfl := Option.some.inj hs
      exact ⟨belongs, h.work (orderly_drainTasks self fuel) _⟩
  | recover self fuel =>
      obtain rfl := Option.some.inj hs
      exact ⟨belongs, h.work (orderly_recoverOrphanedJobs self fuel) _⟩

end Steps

theorem consistent_start : Ledger.start.Consistent fun _ _ => False where
  settled := {
    store := {
      placed := {
        stored := fun _ hid => by cases hid
        queued := fun _ _ hid => absurd hid (SortedSet.not_mem_empty _) }
      belongs := fun _ _ => ⟨fun hbelongs => (by cases hbelongs.isSome), False.elim⟩ }
    running := fun _ _ hentry => by cases hentry }
  claimed _ h := by cases h
  loaded _ h := by cases h

end Queueing

-- A job waits in one queue at most, the one that its hash names.
def Store.SingleQueue (s : Store) : Prop :=
  ∀ id queue, id ∈ s.queues queue → (∀ other, id ∈ s.queues other → other = queue) ∧
    ∃ name, (s.hash id).bind JobHash.queueName = some name ∧ normalizeQueueName name = queue

theorem Store.Placed.singleQueue {s : Store} (hs : s.Placed) : s.SingleQueue := by
  intro id queue hid
  have hbelongs := hs.queued queue id hid
  refine ⟨fun other ho => (hs.queued other id ho).unique hbelongs, queue, ?_⟩
  obtain ⟨raw, hraw, -, hqueue, hname⟩ := hbelongs.hash
  rw [hraw]
  exact ⟨hqueue, hname⟩

namespace Queueing

theorem single_queue {l : Ledger} (h : queueing.Reach Turn.Agrees .start l) :
    l.world.store.SingleQueue := by
  have hsound : l.Sound := h.invariant ⟨_, consistent_start⟩ sound_step
  obtain ⟨belongs, hl⟩ := hsound
  exact hl.settled.store.placed.singleQueue

-- Two calls under one debounce key. The first queues a job, the second writes over it.

def debounceTurn (id : JobId) (queueName : String) : Turn where
  action := .call (.enqueueWithDebounce {} "f" []
    { jobId := some id, queueName := some queueName, enqueueTime := some ⟨0⟩ } "k" ⟨5, 0⟩)

def agrees (turn : Turn) (l : Ledger) : Bool :=
  match turn.action with
  | .call (.enqueueWithDebounce config _ _ options key _) =>
      (l.world.store.debounces (withPrefix DEBOUNCE_KEY_PREFIX key)).all fun cell =>
        decide (((l.world.store.hash cell.value).bind JobHash.queueName).map normalizeQueueName =
          some (normalizeQueueName (Producer.queueNameOf config options)))
  | _ => true

theorem agrees_of_agrees (turn : Turn) (l : Ledger) (h : agrees turn l = true) : turn.Agrees l := by
  unfold agrees at h
  unfold Turn.Agrees
  split at h
  · intro cell hcell _
    rw [Option.mem_def.mp hcell] at h
    exact of_decide_eq_true h
  · trivial

def claimTurn : Turn where
  action := .claim "a" {
    queueKey := ""
    workerId := "w0"
    nowMs := 6000
    maxClaims := 1
    defaultLockTimeoutMs := 1000
    lockTimeoutExtensionSeconds := 10
    startTime := ⟨0⟩ }

-- The job is claimed, and comes back for a retry.
def retriedTurns : List Turn :=
  [debounceTurn "j" "a", debounceTurn "i" "a", claimTurn, { action := .load 3 "j" },
    { action := .retry {} 0 "again" 1 }]

def isRetried (l : Ledger) : Bool :=
  decide ("j" ∈ l.world.store.queues "rrq:queue:a" ∧
    l.world.store.status "j" = some JobStatus.Retrying.asStr)

theorem single_queue_retried : ∃ l, queueing.Reach Turn.Agrees .start l ∧
    "j" ∈ l.world.store.queues "rrq:queue:a" ∧
      ∀ other, "j" ∈ l.world.store.queues other → other = "rrq:queue:a" := by
  have htest : (queueing.run agrees retriedTurns .start).map isRetried = some true := by
    decide +kernel
  obtain ⟨l, hreach, hretried⟩ := EventSystem.exists_reach agrees_of_agrees htest
  obtain ⟨hqueued, -⟩ := of_decide_eq_true hretried
  exact ⟨l, hreach, hqueued, (single_queue hreach "j" _ hqueued).1⟩

-- The second call names another queue.

def isDoubled (l : Ledger) : Bool :=
  decide ("j" ∈ l.world.store.queues "rrq:queue:a" ∧ "j" ∈ l.world.store.queues "rrq:queue:b")

theorem single_queue_fails : ¬ ∀ l : Ledger, queueing.Reach (fun _ _ => True) .start l →
    l.world.store.SingleQueue := by
  intro h
  have htest : (queueing.run (fun _ _ => true) [debounceTurn "j" "a", debounceTurn "i" "b"]
      .start).map isDoubled = some true := by decide +kernel
  obtain ⟨l, hreach, hdoubled⟩ := EventSystem.exists_reach (fun _ _ _ => trivial) htest
  obtain ⟨hfirst, hsecond⟩ := of_decide_eq_true hdoubled
  exact absurd ((h l hreach "j" _ hfirst).1 _ hsecond) (by decide)

end Queueing

end Rrq
