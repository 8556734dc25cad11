import Rrq.Concurrent.Conduct
import Rrq.System.Permits

-- What the processes of a worker owe to its maps of running jobs.

namespace Rrq

open Prog Conduct

def RRQWorker.jobTimeout (self : RRQWorker) (job : Job) : Int :=
  job.jobTimeoutSeconds.getD self.settings.defaultJobTimeoutSeconds

inductive Progress where
  | started
  | timed
  | executed
deriving DecidableEq

-- The clock is read for the deadline first.
def Progress.read : Progress → Progress
  | started => timed
  | progress => progress

-- What a process has begun with the maps of its worker.
inductive Part where
  | aside
  -- The poll loop has noted the job as running. It is to start the task,
  | entered (worker : WorkerId) (id : JobId)
  -- and to note the handle of the task.
  | spawned (worker : WorkerId) (id : JobId) (task : Pid)
  -- The task is to remove the job from both maps,
  | working (self : RRQWorker) (job : Job) (progress : Progress)
  -- and has removed it from the first.
  | leaving (worker : WorkerId) (id : JobId)

namespace Part

def host : Part → Option WorkerId
  | aside => none
  | entered worker _ => some worker
  | spawned worker _ _ => some worker
  | working self _ _ => some self.workerId
  | leaving worker _ => some worker

def next : Part → (op : Op) → op.Reply → Part
  | aside, .insertRunning worker id _, _ => entered worker id
  | entered _ _, .spawnTask self job _, task => spawned self.workerId job.id task
  | spawned _ _ _, .insertAbort _ _ _, _ => aside
  | working self job progress, .utcNow, _ => working self job progress.read
  | working self job _, .execute _ _ _ _ _, _ => working self job .executed
  | working _ _ _, .removeRunning worker id, _ => leaving worker id
  | leaving _ _, .removeAbort _ _, _ => aside
  | part, _, _ => part

-- The job that the task has yet to remove from the first map,
def worked : Part → Option (WorkerId × JobId)
  | working self job _ => some (self.workerId, job.id)
  | _ => none

-- or from the second.
def held : Part → Option (WorkerId × JobId)
  | working self job _ => some (self.workerId, job.id)
  | leaving worker id => some (worker, id)
  | _ => none

-- The job that stands in the first map for this process.
def covered : Part → Option (WorkerId × JobId)
  | entered worker id => some (worker, id)
  | working self job _ => some (self.workerId, job.id)
  | _ => none

def Works (part : Part) (worker : WorkerId) (id : JobId) : Prop := part.worked = some (worker, id)

def Holds (part : Part) (worker : WorkerId) (id : JobId) : Prop := part.held = some (worker, id)

def Covers (part : Part) (worker : WorkerId) (id : JobId) : Prop :=
  part.covered = some (worker, id)

instance (part : Part) (worker : WorkerId) (id : JobId) : Decidable (part.Works worker id) :=
  inferInstanceAs (Decidable (_ = _))

instance (part : Part) (worker : WorkerId) (id : JobId) : Decidable (part.Holds worker id) :=
  inferInstanceAs (Decidable (_ = _))

instance (part : Part) (worker : WorkerId) (id : JobId) : Decidable (part.Covers worker id) :=
  inferInstanceAs (Decidable (_ = _))

section Cases

variable {worker owner : WorkerId} {id other : JobId} {task : Pid} {self : RRQWorker} {job : Job}
  {progress : Progress}

@[simp] theorem covers_aside : ¬ aside.Covers worker id := by
  simp [Covers, covered]

@[simp] theorem covers_entered :
    (entered owner other).Covers worker id ↔ owner = worker ∧ other = id := by
  simp [Covers, covered]

@[simp] theorem covers_spawned : ¬ (spawned owner other task).Covers worker id := by
  simp [Covers, covered]

@[simp] theorem covers_working :
    (working self job progress).Covers worker id ↔ self.workerId = worker ∧ job.id = id := by
  simp [Covers, covered]

@[simp] theorem covers_leaving : ¬ (leaving owner other).Covers worker id := by
  simp [Covers, covered]

@[simp] theorem holds_aside : ¬ aside.Holds worker id := by
  simp [Holds, held]

@[simp] theorem holds_entered : ¬ (entered owner other).Holds worker id := by
  simp [Holds, held]

@[simp] theorem holds_spawned : ¬ (spawned owner other task).Holds worker id := by
  simp [Holds, held]

@[simp] theorem holds_working :
    (working self job progress).Holds worker id ↔ self.workerId = worker ∧ job.id = id := by
  simp [Holds, held]

@[simp] theorem holds_leaving :
    (leaving owner other).Holds worker id ↔ owner = worker ∧ other = id := by
  simp [Holds, held]

theorem works_cases {part : Part} (h : part.Works worker id) :
    ∃ self job progress, part = working self job progress ∧ self.workerId = worker ∧ job.id = id := by
  cases part with
  | working self job progress =>
      obtain ⟨hworker, hid⟩ := Prod.mk.inj (Option.some.inj h)
      exact ⟨self, job, progress, rfl, hworker, hid⟩
  | _ => cases h

end Cases

def Allows (part : Part) : Op → Prop
  | .insertRunning _ _ _ => part = aside
  | .spawnTask self job _ => part = entered self.workerId job.id
  | .insertAbort worker id task => part = spawned worker id task
  | .removeRunning worker id => part.Works worker id
  | .removeAbort worker id => part = leaving worker id
  | _ => True

-- No task dies before it cleans up: its deadline is a time, and what fails before the execution
-- gets into the DLQ.
def Survives : Part → (op : Op) → op.Reply → Prop
  | working self job progress, .utcNow, now => progress = .started → 0 < self.jobTimeout job →
      (now.addSeconds (self.jobTimeout job)).isSome
  | working _ _ progress, .redis (.atomicMoveJobToDlq _ _ _ _ _ _), reply =>
      progress = .executed ∨ reply.toOption.any (0 ≤ ·)
  | _, _, _ => True

end Part

def duties (role : Role) : Conduct Op Op.Reply Part where
  allows part op := op.Permits role ∧ part.Allows op
  possible part op reply := op.Possible reply ∧ part.Survives op reply
  next := Part.next

-- A process that is through owes nothing.
abbrev Dutiful (role : Role) (prog : Proc Unit) (part : Part) : Prop :=
  (duties role).Conforms (fun _ last => last = .aside) prog part

section Main

variable (self : RRQWorker)

abbrev MainConforms {α : Type} (self : RRQWorker) (prog : Proc α) : Prop :=
  (duties (.main self.workerId)).Conforms (fun _ last => last = .aside) prog .aside

variable {self}

theorem main_aside {α : Type} {prog : Proc α} (h : AsideIssues self prog) :
    MainConforms self prog := by
  refine conforms_of_issues h fun op hop => ?_
  cases op <;> first
    | exact hop.elim
    | exact ⟨⟨Op.Aside.main hop, trivial⟩, fun _ hreply =>
        ⟨hreply.1, rfl⟩⟩

theorem main_bind {α β : Type} {prog : Proc β} {rest : β → Proc α} (hp : MainConforms self prog)
    (hr : ∀ value, MainConforms self (rest value)) : MainConforms self (prog >>= rest) := by
  refine conforms_bind hp fun value last hlast => ?_
  subst hlast
  exact hr value

theorem main_call {α : Type} {op : Op} {next : op.Reply → Proc α}
    (ha : op.Permits (.main self.workerId)) (ho : Part.aside.Allows op)
    (hn : ∀ reply, Part.aside.next op reply = .aside)
    (hr : ∀ reply, MainConforms self (next reply)) : MainConforms self (perform op >>= next) := by
  refine conforms_call ⟨ha, ho⟩ fun reply _ => ?_
  have hsame : (duties (.main self.workerId)).next .aside op reply = .aside := hn reply
  rw [hsame]
  exact hr reply

variable (self)

-- The one place where a job gets into the maps.
theorem dispatch_conforms (queueName : QueueKey) (job : Job) (startTime : DateTime) :
    MainConforms self (self.dispatch queueName job startTime) := by
  refine conforms_call ⟨rfl, rfl⟩ fun _ _ => conforms_call ⟨rfl, rfl⟩ fun task _ => ?_
  exact ⟨⟨rfl, rfl⟩, fun _ _ => rfl⟩

theorem dispatchBatch_conforms (queueName : QueueKey) (count : Nat) (claimStartTime : DateTime)
    (batch : List (JobId × Option Job)) (fetched : Nat) :
    MainConforms self (self.dispatchBatch queueName count claimStartTime batch fetched) := by
  have hreleases := aside_releases self
  induction batch generalizing fetched with
  | nil => rfl
  | cons entry batch ih =>
      obtain ⟨id, jobOpt⟩ := entry
      have hfail : ∀ (error : PollError) (message : Option String),
          MainConforms self
            (self.releaseClaimedJobsFromIndex queueName message ((id, jobOpt) :: batch)
              >>= fun _ => pure (.error error : Except PollError (Nat × Bool))) :=
        fun error message =>
          main_bind (main_aside (releaseClaimedJobsFromIndex_issues hreleases queueName message _))
            fun _ => rfl
      refine main_call rfl trivial (fun _ => rfl) fun shutdown => ?_
      split_ifs
      · exact main_bind (main_aside (releaseRemainingClaimedJobs_issues hreleases queueName _ _))
          fun _ => rfl
      cases jobOpt with
      | none =>
          exact main_bind
            (main_aside (quarantineClaimedJobWithoutDefinition_issues hreleases queueName id _))
            fun _ => ih fetched
      | some job =>
      cases htimeout : RRQWorker.jobLockTimeoutMs self.settings job with
      | none =>
          simp only [htimeout]
          exact hfail _ _
      | some lockTimeoutMs =>
      simp only [htimeout]
      split_ifs
      · exact hfail _ _
      refine main_call rfl trivial (fun _ => rfl) fun reply => ?_
      split
      · exact hfail _ _
      · exact main_bind (main_aside (releaseClaimedJob_issues hreleases queueName _ job _))
          fun _ => ih fetched
      · refine main_call rfl trivial (fun _ => rfl) fun permit => ?_
        split_ifs
        · exact main_bind (dispatch_conforms self queueName job _) fun _ => ih (fetched + 1)
        · exact hfail _ _

theorem pollQueue_conforms (queueName : QueueKey) (count requestCount fetched : Nat) :
    MainConforms self (self.pollQueue queueName count requestCount fetched) := by
  have hreleases := aside_releases self
  refine main_call trivial trivial (fun _ => rfl) fun claimStartTime => ?_
  refine main_call trivial trivial (fun _ => rfl) fun now => ?_
  refine main_bind (main_aside ?_) fun claimed => ?_
  · unfold JobStore.atomicClaimReadyJobs
    split_ifs <;> try trivial
    refine issues_call rfl fun reply _ => ?_
    split <;> trivial
  · split
    · rfl
    · rfl
    · refine main_bind (main_aside (getJobDefinitions_issues hreleases _ _)) fun batch => ?_
      split
      · exact main_bind
          (main_aside (releaseRemainingClaimedJobsWithoutDefinitions_issues hreleases queueName _))
          fun _ => rfl
      · exact dispatchBatch_conforms self queueName count claimStartTime _ fetched

theorem pollSlots_conforms (count fairShare : Nat) (slots : List (Nat × QueueKey))
    (fetched : Nat) : MainConforms self (self.pollSlots count fairShare slots fetched) := by
  induction slots generalizing fetched with
  | nil => rfl
  | cons slot slots ih =>
      obtain ⟨pass, queueName⟩ := slot
      refine main_call rfl trivial (fun _ => rfl) fun shutdown => ?_
      dsimp only
      generalize (if pass = 0 then min (count - fetched) fairShare else count - fetched) =
        requestCount
      split_ifs
      · rfl
      · exact ih fetched
      · refine main_bind (pollQueue_conforms self queueName count _ fetched) fun result => ?_
        split
        · rfl
        · exact ih _
        · rfl

theorem pollLoop_conforms (fuel cursor : Nat) : MainConforms self (self.pollLoop fuel cursor) := by
  induction fuel generalizing cursor with
  | zero => rfl
  | succ fuel ih =>
      refine main_call rfl trivial (fun _ => rfl) fun shutdown => ?_
      split_ifs
      · rfl
      refine main_call rfl trivial (fun _ => rfl) fun fetchCount => ?_
      split_ifs
      · exact ih cursor
      refine main_bind (pollSlots_conforms self _ _ _ _) fun result => ?_
      split
      · rfl
      · refine main_call rfl trivial (fun _ => rfl) fun running => ?_
        split_ifs
        · rfl
        · exact ih (cursor + 1)
      · exact ih (cursor + 1)

theorem run_conforms (fuel : Nat) : MainConforms self (self.run fuel) := by
  refine main_call rfl trivial (fun _ => rfl) fun _ => ?_
  refine main_bind (pollLoop_conforms self fuel 0) fun finish => ?_
  split
  · rfl
  · rfl
  · exact main_call rfl trivial (fun _ => rfl) fun _ =>
      main_bind (main_aside (drainTasks_issues self fuel)) fun _ => rfl

end Main

section Task

variable (self : RRQWorker) (job : Job)

-- The outcome is recorded, whatever it is, and the task goes on.
theorem task_aside {prog : Proc Outcome} (h : AsideIssues self prog) :
    (duties (.task self.workerId)).Conforms (fun _ last => last = .working self job .executed) prog
      (.working self job .executed) := by
  refine conforms_of_issues h fun op hop => ?_
  cases op <;> first
    | exact hop.elim
    | exact ⟨⟨Op.Aside.task hop, trivial⟩, fun _ hreply =>
        ⟨hreply.1, rfl⟩⟩

-- Neither of the commands before the removals says anything about the maps.
theorem cleanupRunning_conforms (progress : Progress) :
    (duties (.task self.workerId)).Conforms (fun _ last => last = .aside)
      (self.cleanupRunning job.id) (.working self job progress) := by
  refine conforms_call ⟨rfl, trivial⟩ fun removed _ => ?_
  refine conforms_call ⟨rfl, trivial⟩ fun released _ => ?_
  refine conforms_call ⟨rfl, rfl⟩ fun _ _ => conforms_call ⟨rfl, rfl⟩ fun _ _ => ?_
  split <;> rfl

-- A move into the DLQ that succeeds.
theorem moveToDlq_conforms (message : String) {progress : Progress} (hp : progress ≠ .executed) :
    (duties (.task self.workerId)).Conforms
      (fun value last => value = .ok () ∧ ∃ progress, last = .working self job progress)
      (moveToDlq self.settings job message) (.working self job progress) := by
  refine conforms_call ⟨trivial, trivial⟩ fun now _ => ?_
  refine conforms_call ⟨trivial, trivial⟩ fun reply h => ?_
  have hread : progress.read ≠ .executed := by
    cases progress with
    | started => decide
    | timed => decide
    | executed => exact absurd rfl hp
  have hmoved : (Except.toOption reply).any (0 ≤ ·) := h.2.resolve_left hread
  cases reply with
  | error error => cases hmoved
  | ok n =>
      have hn : 0 ≤ n := of_decide_eq_true hmoved
      dsimp only
      rw [if_neg (not_lt.mpr hn)]
      exact ⟨rfl, progress.read, rfl⟩

theorem failFatally_conforms (message : String) {progress : Progress} (hp : progress ≠ .executed) :
    (duties (.task self.workerId)).Conforms (fun _ last => last = .aside)
      (self.failFatally job message) (.working self job progress) := by
  refine conforms_bind (moveToDlq_conforms self job message hp) ?_
  rintro value last ⟨rfl, progress, rfl⟩
  exact cleanupRunning_conforms self job progress

theorem finishJob_conforms {record : Proc Outcome} (hr : AsideIssues self record)
    (hy : record.Yields (· ≠ .error .panicked)) :
    (duties (.task self.workerId)).Conforms (fun _ last => last = .aside)
      (self.finishJob job record) (.working self job .executed) := by
  refine conforms_bind ((task_aside self job hr).yields hy) ?_
  rintro value last ⟨rfl, hv⟩
  split
  · exact absurd rfl hv
  · refine conforms_bind (cleanupRunning_conforms self job .executed) ?_
    rintro _ last rfl
    rfl
  · exact cleanupRunning_conforms self job .executed

theorem moveToDlq_yields (settings : RRQSettings) (message : String) :
    (moveToDlq settings job message).Yields (· ≠ .error .panicked) := by
  refine yields_call fun now => yields_call fun reply => ?_
  split
  · exact nofun
  · split_ifs <;> exact nofun

theorem scheduleRetry_yields (settings : RRQSettings) (message : String) (delaySeconds : ℚ) :
    (scheduleRetry settings job message delaySeconds).Yields (· ≠ .error .panicked) := by
  refine yields_call fun now => yields_call fun reply => ?_
  split
  · exact nofun
  · dsimp only
    split
    · exact yields_call fun _ => nofun
    · exact yields_call fun _ => yields_call fun _ => nofun

variable {job}

theorem retryOrMove_yields (settings : RRQSettings) (hj : (checkedAdd job.currentRetries 1).isSome)
    (message : String) (delaySeconds : Int → ℚ) :
    (retryOrMove settings job message delaySeconds).Yields (· ≠ .error .panicked) := by
  obtain ⟨anticipated, ha⟩ := Option.isSome_iff_exists.mp hj
  simp only [retryOrMove, ha]
  split_ifs
  · exact moveToDlq_yields job settings message
  · exact scheduleRetry_yields job settings message _

theorem handleExecutionResult_yields (settings : RRQSettings)
    (hj : (checkedAdd job.currentRetries 1).isSome) (jobTimeout : Int)
    (result : RunnerExecutionResult) :
    (handleExecutionResult settings job jobTimeout result).Yields (· ≠ .error .panicked) := by
  unfold handleExecutionResult
  split
  · unfold handleExecutionOutcome
    split
    · refine yields_call fun now => yields_call fun reply => ?_
      split
      · exact nofun
      · split
        · exact nofun
        · refine yields_call fun reply => ?_
          split <;> exact nofun
    · exact retryOrMove_yields settings hj _ _
    · exact moveToDlq_yields job settings _
    · split_ifs
      · exact moveToDlq_yields job settings _
      · exact retryOrMove_yields settings hj _ _
  · exact retryOrMove_yields settings hj _ _
  · exact moveToDlq_yields job settings _

theorem dispatchToRunner_conforms (hj : (checkedAdd job.currentRetries 1).isSome)
    (queueName : QueueKey) (jobTimeout : Int) :
    (duties (.task self.workerId)).Conforms (fun _ last => last = .aside)
      (self.dispatchToRunner job queueName jobTimeout) (.working self job .timed) := by
  unfold RRQWorker.dispatchToRunner
  dsimp only
  split_ifs
  · exact failFatally_conforms self job _ (by decide)
  · refine conforms_call ⟨rfl, trivial⟩ fun _ _ => conforms_call ⟨trivial, trivial⟩ fun _ _ => ?_
    refine conforms_call ⟨rfl, trivial⟩ fun _ _ => conforms_call ⟨rfl, trivial⟩ fun result _ => ?_
    exact finishJob_conforms self job
      (handleExecutionResult_issues self self.settings job jobTimeout result)
      (handleExecutionResult_yields self.settings hj jobTimeout result)
  · exact conforms_call ⟨rfl, trivial⟩ fun _ _ => failFatally_conforms self job _ (by decide)

theorem taskProgram_conforms (hj : (checkedAdd job.currentRetries 1).isSome)
    (queueName : QueueKey) :
    Dutiful (.task self.workerId) (self.taskProgram job queueName) (.working self job .started) := by
  refine conforms_bind ?_ fun _ last hlast => hlast
  obtain ⟨attempt, ha⟩ := Option.isSome_iff_exists.mp hj
  simp only [RRQWorker.executeJob, ha]
  split_ifs with ht
  · exact failFatally_conforms self job _ (by decide)
  · refine conforms_call ⟨trivial, trivial⟩ fun now hnow => ?_
    obtain ⟨deadline, hd⟩ := Option.isSome_iff_exists.mp (hnow.2 rfl (not_le.mp ht))
    have hdeadline : now.addSeconds
        (job.jobTimeoutSeconds.getD self.settings.defaultJobTimeoutSeconds) = some deadline := hd
    simp only [hdeadline]
    exact dispatchToRunner_conforms self hj queueName _

end Task

section Others

variable {self : RRQWorker}

-- A heartbeat and a client have nothing to do with the maps.
theorem others_dutiful {role : Role} {prog : Proc Unit} (hr : ∀ worker, ¬ role.Claims worker)
    (h : Issuing role prog) : Dutiful role prog .aside := by
  refine conforms_of_issues h fun op hop => ?_
  have haside : Part.aside.Allows op ∧ ∀ reply, Part.aside.next op reply = .aside := by
    cases role with
    | main worker => exact absurd (.inl rfl) (hr worker)
    | task worker => exact absurd (.inr rfl) (hr worker)
    | heartbeat worker => cases op <;> first | exact hop.elim | exact ⟨trivial, fun _ => rfl⟩
    | client => cases op <;> first | exact hop.elim | exact ⟨trivial, fun _ => rfl⟩
  exact ⟨⟨hop, haside.1⟩, fun reply hreply =>
    ⟨hreply.1, haside.2 reply⟩⟩

end Others

-- Whatever the system starts issues what its role permits.

-- A poll loop is in no task's part.
def Part.OfMain (part : Part) : Prop := ∀ self job progress, part ≠ working self job progress

theorem ofMain_step {worker : WorkerId} {part : Part} {op : Op} (hp : part.OfMain)
    (hop : (duties (.main worker)).allows part op) : op.Permits (.main worker) ∧
      ∀ reply, op.Possible reply → (duties (.main worker)).possible part op reply ∧
        ((duties (.main worker)).next part op reply).OfMain := by
  refine ⟨hop.1, fun reply hreply => ⟨⟨hreply, ?_⟩, ?_⟩⟩
  · unfold Part.Survives
    split
    · exact absurd rfl (hp _ _ _)
    · exact absurd rfl (hp _ _ _)
    · trivial
  · simp only [duties]
    unfold Part.next
    split
    case h_8 => exact hp
    all_goals first
      | exact absurd rfl (hp _ _ _)
      | rintro _ _ _ ⟨⟩

theorem run_issues (self : RRQWorker) (fuel : Nat) :
    Issuing (.main self.workerId) (self.run fuel) := by
  have hstart : Part.OfMain .aside := by rintro _ _ _ ⟨⟩
  exact Conforms.issues (run_conforms self fuel) hstart fun _ _ => ofMain_step

theorem fork_issues {op : Op} {reply : op.Reply} {pid : Pid} {role : Role} {prog : Proc Unit}
    (h : op.fork reply = some (pid, role, prog)) : Issuing role prog := by
  cases op <;> simp only [Op.fork, Option.some.injEq, Prod.mk.injEq, reduceCtorEq] at h
  · obtain ⟨-, rfl, rfl⟩ := h
    exact taskProgram_issues _ _ _
  · obtain ⟨-, rfl, rfl⟩ := h
    exact heartbeatLoop_issues _ _ _

theorem spawn_issues {event : EnvEvent} {pid : Pid} {role : Role} {prog : Proc Unit}
    (h : event.spawn = some (pid, role, prog)) : Issuing role prog := by
  cases event <;> simp only [EnvEvent.spawn, Option.some.injEq, Prod.mk.injEq, reduceCtorEq] at h
  · obtain ⟨-, rfl, rfl⟩ := h
    exact run_issues _ _
  · obtain ⟨-, rfl, rfl⟩ := h
    exact request_issues _

end Rrq
