import Rrq.Store.Standing
import Rrq.Worker.Drain
import Rrq.Worker.Execute.Tracking
import Rrq.Worker.Recover
import Rrq.Worker.Release.Theorems

-- What one program leaves of a job that its worker has.

namespace Rrq

open Prog Store

-- The hash of a job of this name, after so many failures of so many that it may have, and with
-- the result that it has come to.
structure Bears (id : JobId) (failures budget : Int) (h : JobHash) (value : Json := .null) :
    Prop where
  id : h.id.getD id = id
  failures : h.currentRetries = some (.int failures)
  budget : h.maxRetries = some (.int budget)
  result : h.result = some (.val value)

namespace Store

variable (s : Store) (id : JobId) (failures budget : Int)

def Waiting : Prop := ∃ h queue, s.Stands id h { queue := some queue } ∧
  Bears id failures budget h ∧
    (h.status = some JobStatus.Pending.asStr ∨ h.status = some JobStatus.Retrying.asStr)

def Running (worker : WorkerId) : Prop := ∃ h,
  s.Stands id h { worker := some worker, holder := some worker } ∧ Bears id failures budget h ∧
    h.status = some JobStatus.Active.asStr ∧ h.workerId = some worker

def Buried : Prop := ∃ h name, s.Stands id h { dlq := some name } ∧ Bears id failures budget h ∧
  h.status = some JobStatus.Failed.asStr

def Delivered (value : Json) : Prop := ∃ h, s.Stands id h {} ∧ Bears id failures budget h value ∧
  h.status = some JobStatus.Completed.asStr

-- What a failing attempt leaves of a job once its worker has let go of it.
def AfterFailure : Prop :=
  if budget ≤ failures + 1 then s.Buried id (failures + 1) budget
  else s.Waiting id (failures + 1) budget ∧ s.status id = some JobStatus.Retrying.asStr

end Store

-- A definition that was read for the job, as its task has it.
def Loaded (settings : RRQSettings) (id : JobId) (s : Store) (job : Job) : Prop :=
  ∃ raw parsed startTime, s.hash id = some raw ∧
    parseJobMap raw id settings.defaultMaxRetries = .ok parsed ∧ job = { parsed with startTime }

-- A definition that is read of the job agrees with its hash.
theorem Loaded.agrees {settings : RRQSettings} {id : JobId} {s : Store} {job : Job} {h : JobHash}
    {p : Standing} {failures budget : Int} (hl : Loaded settings id s job) (hs : s.Stands id h p)
    (hb : Bears id failures budget h) (hf : InI64 failures) (hm : InI64 budget) :
    job.id = id ∧ job.currentRetries = failures ∧ job.maxRetries = budget ∧
      h.status = some job.status.asStr ∧ job.workerId = h.workerId := by
  obtain ⟨raw, parsed, startTime, hraw, hparse, rfl⟩ := hl
  obtain rfl := Option.some.inj (hs.hash.symm.trans hraw)
  obtain ⟨hstatus, hid, hretries, hmax, -, -, hworker⟩ := parseJobMap_ok hparse
  refine ⟨hid.trans hb.id, ?_, ?_, hstatus, hworker⟩
  · rw [show _ = parsed.currentRetries from rfl, hretries, hb.failures]
    simp [IntText.parse, checkedI64, hf]
  · rw [show _ = parsed.maxRetries from rfl, hmax, hb.budget]
    simp [IntText.parse, checkedI64, hm]

-- What a requeue makes of the hash of an active job.

theorem Bears.requeued {id : JobId} {failures budget : Int} {h : JobHash}
    (hb : Bears id failures budget h) (args : Scripts.RequeueArgs) :
    Bears id failures budget (requeuedHash args false h) := by
  have hdemoted : Bears id failures budget (demotedHash args h) := by
    unfold demotedHash
    split_ifs <;> exact ⟨hb.id, hb.failures, hb.budget, hb.result⟩
  unfold requeuedHash
  split
  · exact ⟨hdemoted.id, hdemoted.failures, hdemoted.budget, hdemoted.result⟩
  · exact hdemoted

theorem status_requeuedHash {h : JobHash}
    (hactive : h.status = some JobStatus.Active.asStr) (args : Scripts.RequeueArgs) :
    (requeuedHash args false h).status = some JobStatus.Pending.asStr := by
  have hdemoted : (demotedHash args h).status = some JobStatus.Pending.asStr := by
    unfold demotedHash
    rw [if_pos hactive]
  unfold requeuedHash
  split <;> exact hdemoted

-- The outcomes that count against the budget of a job, those that end it, and those that
-- complete it.

def Failing : RunnerExecutionResult → Prop
  | .TimedOut => False
  | .Completed (.error _) => True
  | .Completed (.ok outcome) => outcome.status = .Retry ∨ outcome.status = .Error ∧
      outcome.error.bind ExecutionError.errorType ≠ some "handler_not_found"

def Dooming : RunnerExecutionResult → Prop
  | .TimedOut => True
  | .Completed (.error _) => False
  | .Completed (.ok outcome) => outcome.status = .Timeout ∨ outcome.status = .Error ∧
      outcome.error.bind ExecutionError.errorType = some "handler_not_found"

def Succeeding (value : Json) : RunnerExecutionResult → Prop
  | .TimedOut => False
  | .Completed (.error _) => False
  | .Completed (.ok outcome) => outcome.status = .Success ∧ outcome.result.getD .null = value

namespace RRQWorker

variable {self : RRQWorker} {pid : Pid} {role : Role} {oracle : Nat → Op → Chance} {n : Nat}
  {w : World} {α : Type} {id : JobId} {h : JobHash} {p : Standing} {failures budget : Int}

-- Nothing befalls the commands of a program.
def Calm (oracle : Nat → Op → Chance) : Prop := ∀ n op, (oracle n op).fault = .none

theorem getJobDataMap_calm (hs : w.store.Stands id h p) (page : Nat × List String) :
    (Cmd.getJobDataMap id).exec .none page w.store = (.ok (some h), w.store) := by
  simp [Cmd.exec, Cmd.single, Cmd.reply, hs.hash]

-- The answer does not matter to the store.
theorem saveJobResult_calm (value : Json) (ttl : Int) (time : DateTime)
    (page : Nat × List String) (s : Store) :
    ((Cmd.saveJobResult id value ttl time).exec .none page s).2 =
      (Pipelines.saveJobResult id value ttl time s).2 := by
  simp only [Cmd.exec, Cmd.single]
  rcases Pipelines.saveJobResult id value ttl time s with ⟨taken, t⟩
  cases taken <;> rfl

theorem releaseJobLockIfOwner_ends (hcalm : Calm oracle) (hs : w.store.Stands id h p)
    {owner : String} (hp : p.holder = some owner) {post : α → World → Prop}
    {next : Except RedisError Bool → Proc α}
    (hn : ∀ released n w', w'.store.Stands id h { p with holder := none } →
      Prog.Ends (World.exec pid role) oracle post (next (.ok released)) n w') :
    Prog.Ends (World.exec pid role) oracle post
      (redis (.releaseJobLockIfOwner id owner) >>= next) n w := by
  obtain ⟨count, t, hrun, ht⟩ := hs.released hp
  have hexec : ∀ page, (Cmd.releaseJobLockIfOwner id owner).exec .none page w.store =
      (.ok (decide (count ≠ 0)), t) := by
    intro page
    simp only [Cmd.exec, Cmd.script, hrun]
    rfl
  exact ends_calm hcalm hexec fun n w' hw => hn _ n w' (hw ▸ ht)

theorem removeActiveJob_ends (hcalm : Calm oracle) (hs : w.store.Stands id h p) {worker : WorkerId}
    (hp : ∀ other, p.worker = some other → other = worker) {post : α → World → Prop}
    {next : Except RedisError Unit → Proc α}
    (hn : ∀ n w', w'.store.Stands id h { p with worker := none } →
      Prog.Ends (World.exec pid role) oracle post (next (.ok ())) n w') :
    Prog.Ends (World.exec pid role) oracle post
      (redis (.removeActiveJob worker id) >>= next) n w :=
  ends_calm hcalm (fun _ => rfl) fun n w' hw => hn n w' (hw ▸ hs.zremActive hp)

-- The cleanup takes a job from its worker.
theorem cleanupRunning_stands (hcalm : Calm oracle) (hs : w.store.Stands id h p)
    (hworker : ∀ other, p.worker = some other → other = self.workerId)
    (hholder : p.holder = some self.workerId) :
    Prog.Ends (World.exec pid role) oracle
      (fun answer w' => answer = .ok () ∧
        w'.store.Stands id h { p with worker := none, holder := none })
      (self.cleanupRunning id) n w := by
  refine removeActiveJob_ends hcalm hs hworker fun n₁ w₁ h₁ => ?_
  refine releaseJobLockIfOwner_ends hcalm h₁ hholder fun released n₂ w₂ h₂ => ?_
  exact ends_call (ends_call (ends_ret ⟨rfl, h₂⟩))

-- Recording an outcome.

-- A counter that a further failure does not overflow.
def Tallies (failures : Int) : Prop := 0 ≤ failures ∧ failures < I64_MAX

theorem Tallies.inI64 (hf : Tallies failures) : InI64 failures := by
  have hlow := hf.1
  have hhigh := hf.2
  unfold InI64 I64_MIN at *
  omega

theorem Tallies.checkedAdd (hf : Tallies failures) : checkedAdd failures 1 = some (failures + 1) := by
  have hlow := hf.1
  have hhigh := hf.2
  refine if_pos ?_
  unfold InI64 I64_MIN at *
  omega

variable {settings : RRQSettings} {job : Job} {message : String}

def Doomed (id : JobId) (failures : Int) (p : Standing) (h : JobHash) (w : World) : Prop :=
  ∃ name message time, w.store.Stands id (Stands.buriedHash (failures + 1) message time h)
    { p with dlq := some name }

theorem moveToDlq_stands (hcalm : Calm oracle) (hs : w.store.Stands id h p) (hdlq : p.dlq = none)
    (hn : h.currentRetries = some (.int failures)) (hf : Tallies failures) (hid : job.id = id) :
    Prog.Ends (World.exec pid role) oracle
      (fun answer w' => answer = .ok () ∧ Doomed id failures p h w')
      (moveToDlq settings job message) n w := by
  subst hid
  refine ends_utcNow fun now => ?_
  obtain ⟨t, hrun, ht⟩ := hs.buried hdlq hn hf.checkedAdd hf.inI64
    (withPrefix DLQ_KEY_PREFIX (job.dlqName.getD settings.defaultDlqName)) message now
    job.jobUniqueKey
  have hexec : ∀ page, (Cmd.atomicMoveJobToDlq job.id
      (withPrefix DLQ_KEY_PREFIX (job.dlqName.getD settings.defaultDlqName)) message now
      DEFAULT_DLQ_RESULT_TTL_SECONDS job.jobUniqueKey).exec .none page w.store =
        (.ok (failures + 1), t) := by
    intro page
    simp only [Cmd.exec, Cmd.script, hrun]
    rfl
  refine ends_calm hcalm hexec fun n' w' hw => ?_
  have hpos : ¬ failures + 1 < 0 := by
    have := hf.1
    omega
  dsimp only
  rw [if_neg hpos]
  exact ends_ret ⟨rfl, _, message, now, hw ▸ ht⟩

-- The schedule of a retry is noted in the hash.
theorem scheduleRetry_stands (hcalm : Calm oracle) (hs : w.store.Stands id h p)
    (hqueue : p.queue = none) (hn : h.currentRetries = some (.int failures)) (hf : Tallies failures)
    (hid : job.id = id) (delaySeconds : ℚ) :
    Prog.Ends (World.exec pid role) oracle
      (fun answer w' => answer = .ok () ∧ ∃ queue time, w'.store.Stands id
        { Stands.retriedHash (failures + 1) message .Retrying h with
          nextScheduledRunTime := some (.val time) } { p with queue := some queue })
      (scheduleRetry settings job message delaySeconds) n w := by
  subst hid
  refine ends_utcNow fun now => ?_
  obtain ⟨t, hrun, ht⟩ := hs.retried hqueue hn hf.checkedAdd hf.inI64
    (normalizeQueueName (job.queueName.getD settings.defaultQueueName))
    (now.timestampMillis + delaySeconds * 1000) message .Retrying
  have hexec : ∀ page, (Cmd.atomicRetryJob job.id
      (normalizeQueueName (job.queueName.getD settings.defaultQueueName))
      (now.timestampMillis + delaySeconds * 1000) message .Retrying).exec .none page w.store =
        (.ok (failures + 1), t) := by
    intro page
    simp only [Cmd.exec, Cmd.script, hrun]
    rfl
  refine ends_calm hcalm hexec fun n₁ w₁ h₁ => ?_
  rw [← h₁] at ht
  have hnote : ∀ (time : DateTime) (k : Nat), Prog.Ends (World.exec pid role) oracle
      (fun answer w' => answer = .ok () ∧ ∃ queue time, w'.store.Stands job.id
        { Stands.retriedHash (failures + 1) message .Retrying h with
          nextScheduledRunTime := some (.val time) } { p with queue := some queue })
      (redis (.updateJobNextScheduledRunTime job.id time) >>= fun _ =>
        (pure (.ok ()) : Proc Outcome)) k w₁ :=
    fun time k => ends_calm hcalm (fun _ => rfl) fun _ w₂ h₂ =>
      ends_ret ⟨rfl, _, time, h₂ ▸ ht.hset _⟩
  dsimp only
  split
  · exact hnote _ _
  · exact ends_utcNow fun now => hnote now _

-- What the failure of an attempt leaves: another one to be made, or the end.
def Failed (id : JobId) (failures budget : Int) (p : Standing) (h : JobHash) (w : World) : Prop :=
  if budget ≤ failures + 1 then Doomed id failures p h w
  else ∃ queue message time, w.store.Stands id
    { Stands.retriedHash (failures + 1) message .Retrying h with
      nextScheduledRunTime := some (.val time) } { p with queue := some queue }

theorem retryOrMove_stands (hcalm : Calm oracle) (hs : w.store.Stands id h p)
    (hqueue : p.queue = none) (hdlq : p.dlq = none)
    (hn : h.currentRetries = some (.int failures)) (hf : Tallies failures) (hid : job.id = id)
    (hjob : job.currentRetries = failures) (hmax : job.maxRetries = budget)
    (delaySeconds : Int → ℚ) :
    Prog.Ends (World.exec pid role) oracle
      (fun answer w' => answer = .ok () ∧ Failed id failures budget p h w')
      (retryOrMove settings job message delaySeconds) n w := by
  unfold retryOrMove Failed
  rw [hjob, hf.checkedAdd, hmax]
  dsimp only
  split_ifs
  · exact moveToDlq_stands hcalm hs hdlq hn hf hid
  · refine Prog.ends_mono (scheduleRetry_stands hcalm hs hqueue hn hf hid _) ?_
    rintro answer w' ⟨hanswer, queue, time, hstands⟩
    exact ⟨hanswer, queue, message, time, hstands⟩

theorem handleExecutionResult_stands (hcalm : Calm oracle) (hs : w.store.Stands id h p)
    (hqueue : p.queue = none) (hdlq : p.dlq = none)
    (hn : h.currentRetries = some (.int failures)) (hf : Tallies failures) (hid : job.id = id)
    (hjob : job.currentRetries = failures) (hmax : job.maxRetries = budget) (jobTimeout : Int)
    {result : RunnerExecutionResult} (hfailing : Failing result) :
    Prog.Ends (World.exec pid role) oracle
      (fun answer w' => answer = .ok () ∧ Failed id failures budget p h w')
      (handleExecutionResult settings job jobTimeout result) n w := by
  cases result with
  | TimedOut => exact hfailing.elim
  | Completed answer =>
      cases answer with
      | error error => exact retryOrMove_stands hcalm hs hqueue hdlq hn hf hid hjob hmax _
      | ok outcome =>
          unfold handleExecutionResult handleExecutionOutcome
          rcases hfailing with hstatus | ⟨hstatus, hkind⟩
          · simp only [hstatus]
            exact retryOrMove_stands hcalm hs hqueue hdlq hn hf hid hjob hmax _
          · simp only [hstatus]
            rw [if_neg hkind]
            exact retryOrMove_stands hcalm hs hqueue hdlq hn hf hid hjob hmax _

theorem handleExecutionResult_dooms (hcalm : Calm oracle) (hs : w.store.Stands id h p)
    (hdlq : p.dlq = none) (hn : h.currentRetries = some (.int failures)) (hf : Tallies failures)
    (hid : job.id = id) (jobTimeout : Int) {result : RunnerExecutionResult}
    (hdooming : Dooming result) :
    Prog.Ends (World.exec pid role) oracle
      (fun answer w' => answer = .ok () ∧ Doomed id failures p h w')
      (handleExecutionResult settings job jobTimeout result) n w := by
  cases result with
  | TimedOut => exact moveToDlq_stands hcalm hs hdlq hn hf hid
  | Completed answer =>
      cases answer with
      | error error => exact hdooming.elim
      | ok outcome =>
          unfold handleExecutionResult handleExecutionOutcome
          rcases hdooming with hstatus | ⟨hstatus, hkind⟩
          · simp only [hstatus]
            exact moveToDlq_stands hcalm hs hdlq hn hf hid
          · simp only [hstatus]
            rw [if_pos hkind]
            exact moveToDlq_stands hcalm hs hdlq hn hf hid

-- The result is in place even if its expiry is refused.
theorem handleExecutionResult_saves (hcalm : Calm oracle) (hs : w.store.Stands id h p)
    (hid : job.id = id) (jobTimeout : Int) {result : RunnerExecutionResult} {value : Json}
    (hsucceeding : Succeeding value result) :
    Prog.Ends (World.exec pid role) oracle
      (fun answer w' => answer ≠ .error .panicked ∧ ∃ time,
        w'.store.Stands id (Stands.savedHash value time h) p)
      (handleExecutionResult settings job jobTimeout result) n w := by
  subst hid
  cases result with
  | TimedOut => exact hsucceeding.elim
  | Completed answer =>
      cases answer with
      | error error => exact hsucceeding.elim
      | ok outcome =>
          obtain ⟨hstatus, rfl⟩ := hsucceeding
          unfold handleExecutionResult handleExecutionOutcome
          simp only [hstatus]
          refine ends_utcNow fun now => ends_redis fun answer store w₁ hexec h₁ _ => ?_
          have hstands : w₁.store.Stands job.id
              (Stands.savedHash (outcome.result.getD .null) now h) p := by
            have hsaved := hs.saved (outcome.result.getD .null)
              (job.resultTtlSeconds.getD settings.defaultResultTtlSeconds) now
            rw [hcalm] at hexec
            have hstore : _ = w₁.store := (congrArg Prod.snd hexec).trans h₁.symm
            rw [saveJobResult_calm] at hstore
            exact hstore ▸ hsaved
          cases answer with
          | error error => exact ends_ret ⟨by simp, now, hstands⟩
          | ok _ =>
              cases job.jobUniqueKey with
              | none => exact ends_ret ⟨by simp, now, hstands⟩
              | some uniqueKey =>
                  refine ends_calm hcalm (fun page => rfl) fun n₂ w₂ h₂ => ?_
                  exact ends_ret ⟨by simp, now, h₂ ▸ hstands.setUniqueLock uniqueKey none⟩

-- The job is taken from its worker, whatever recording the outcome has answered.
theorem finishJob_cleans (hcalm : Calm oracle) (hid : job.id = id) {post : World → Prop}
    {record : Proc Outcome}
    (hrecord : Prog.Ends (World.exec pid role) oracle
      (fun answer w' => answer ≠ .error .panicked ∧ ∃ later q,
        w'.store.Stands id later q ∧ q.worker = some self.workerId ∧
          q.holder = some self.workerId ∧
          ∀ after : World, after.store.Stands id later { q with worker := none, holder := none } →
            post after) record n w) :
    Prog.Ends (World.exec pid role) oracle (fun _ => post) (self.finishJob job record) n w := by
  subst hid
  refine Prog.ends_bind hrecord ?_
  rintro answer k w₁ ⟨hanswer, later, q, hs, hworker, hholder, hpost⟩
  have hclean : Prog.Ends (World.exec pid role) oracle (fun _ => post) (self.cleanupRunning job.id)
      k w₁ := by
    refine Prog.ends_mono (cleanupRunning_stands hcalm hs (fun other ho => ?_) hholder) ?_
    · exact Option.some.inj (ho.symm.trans hworker)
    · exact fun _ after hafter => hpost after hafter.2
  cases answer with
  | ok _ => exact hclean
  | error error =>
      cases error with
      | panicked => exact absurd rfl hanswer
      | redis error => exact Prog.ends_bind hclean fun _ _ after hafter => ends_ret hafter
      | moveToDlqFailed => exact Prog.ends_bind hclean fun _ _ after hafter => ends_ret hafter

-- By the time of the outcome the memory of the worker is another one, and the store the same.
theorem executeJob_dispatches {result : RunnerExecutionResult}
    (hresult : ∀ n op, (oracle n op).result = result) {queueName : QueueKey}
    (hd : Dispatched self job queueName (oracle n .utcNow).now) {post : World → Prop}
    (hfinish : ∀ (jobTimeout : Int) (k : Nat) (w' : World), w'.store = w.store →
      Prog.Ends (World.exec pid role) oracle (fun _ => post)
        (self.finishJob job (handleExecutionResult self.settings job jobTimeout result)) k w') :
    Prog.Ends (World.exec pid role) oracle (fun _ => post) (self.executeJob job queueName) n w := by
  obtain ⟨attempt, hattempt⟩ := Option.isSome_iff_exists.mp hd.countable
  obtain ⟨deadline, hdeadline⟩ := Option.isSome_iff_exists.mp hd.deadline
  simp only [executeJob, hattempt, not_le.mpr hd.timeout, if_false]
  refine ends_call ?_
  simp only [World.exec, Prog.bind, hdeadline, dispatchToRunner]
  rw [if_neg hd.handler]
  refine ends_call ?_
  rw [if_pos hd.runner]
  refine ends_call (ends_call (ends_call ?_))
  change Prog.Ends _ _ _ (self.finishJob job (handleExecutionResult self.settings job _ (oracle _
    _).result)) _ _
  rw [hresult]
  exact hfinish _ _ _ rfl

section Execution

variable {result : RunnerExecutionResult} {queueName : QueueKey}

theorem executeJob_fails (hcalm : Calm oracle)
    (hresult : ∀ n op, (oracle n op).result = result) (hfailing : Failing result)
    (hr : w.store.Running id failures budget self.workerId)
    (hl : Loaded self.settings id w.store job) (hf : Tallies failures) (hm : InI64 budget)
    (hd : Dispatched self job queueName (oracle n .utcNow).now) :
    Prog.Ends (World.exec pid role) oracle
      (fun _ w' => w'.store.AfterFailure id failures budget)
      (self.executeJob job queueName) n w := by
  obtain ⟨h, hs, hb, -, -⟩ := hr
  obtain ⟨hid, hretries, hmax, -, -⟩ := hl.agrees hs hb hf.inI64 hm
  refine executeJob_dispatches hresult hd fun jobTimeout k w' hw => ?_
  rw [← hw] at hs
  refine finishJob_cleans hcalm hid (Prog.ends_mono (handleExecutionResult_stands hcalm hs rfl rfl
    hb.failures hf hid hretries hmax jobTimeout hfailing) ?_)
  rintro answer w₁ ⟨rfl, hfailed⟩
  refine ⟨by simp, ?_⟩
  unfold Failed at hfailed
  unfold AfterFailure
  split_ifs at hfailed ⊢ with hlast
  · obtain ⟨name, message, time, h₁⟩ := hfailed
    refine ⟨_, _, h₁, rfl, rfl, fun after hafter => ?_⟩
    exact ⟨_, name, hafter, ⟨hb.id, rfl, hb.budget, hb.result⟩, rfl⟩
  · obtain ⟨queue, message, time, h₁⟩ := hfailed
    refine ⟨_, _, h₁, rfl, rfl, fun after hafter => ?_⟩
    exact ⟨⟨_, queue, hafter, ⟨hb.id, rfl, hb.budget, hb.result⟩, .inr rfl⟩, hafter.status⟩

theorem executeJob_dooms (hcalm : Calm oracle)
    (hresult : ∀ n op, (oracle n op).result = result) (hdooming : Dooming result)
    (hr : w.store.Running id failures budget self.workerId)
    (hl : Loaded self.settings id w.store job) (hf : Tallies failures) (hm : InI64 budget)
    (hd : Dispatched self job queueName (oracle n .utcNow).now) :
    Prog.Ends (World.exec pid role) oracle
      (fun _ w' => w'.store.Buried id (failures + 1) budget) (self.executeJob job queueName) n w := by
  obtain ⟨h, hs, hb, -, -⟩ := hr
  obtain ⟨hid, -⟩ := hl.agrees hs hb hf.inI64 hm
  refine executeJob_dispatches hresult hd fun jobTimeout k w' hw => ?_
  rw [← hw] at hs
  refine finishJob_cleans hcalm hid (Prog.ends_mono (handleExecutionResult_dooms hcalm hs rfl
    hb.failures hf hid jobTimeout hdooming) ?_)
  rintro answer w₁ ⟨rfl, name, message, time, h₁⟩
  refine ⟨by simp, _, _, h₁, rfl, rfl, fun after hafter => ?_⟩
  exact ⟨_, name, hafter, ⟨hb.id, rfl, hb.budget, hb.result⟩, rfl⟩

theorem executeJob_delivers (hcalm : Calm oracle) {value : Json}
    (hresult : ∀ n op, (oracle n op).result = result) (hsucceeding : Succeeding value result)
    (hr : w.store.Running id failures budget self.workerId)
    (hl : Loaded self.settings id w.store job) (hf : Tallies failures) (hm : InI64 budget)
    (hd : Dispatched self job queueName (oracle n .utcNow).now) :
    Prog.Ends (World.exec pid role) oracle
      (fun _ w' => w'.store.Delivered id failures budget value)
      (self.executeJob job queueName) n w := by
  obtain ⟨h, hs, hb, -, -⟩ := hr
  obtain ⟨hid, -⟩ := hl.agrees hs hb hf.inI64 hm
  refine executeJob_dispatches hresult hd fun jobTimeout k w' hw => ?_
  rw [← hw] at hs
  refine finishJob_cleans hcalm hid (Prog.ends_mono (handleExecutionResult_saves hcalm hs hid
    jobTimeout hsucceeding) ?_)
  rintro answer w₁ ⟨hanswer, time, h₁⟩
  refine ⟨hanswer, _, _, h₁, rfl, rfl, fun after hafter => ?_⟩
  exact ⟨_, hafter, ⟨hb.id, hb.failures, hb.budget, rfl⟩, rfl⟩

-- A job that no runner is asked to execute is not tried again.

theorem failFatally_buries (hcalm : Calm oracle)
    (hr : w.store.Running id failures budget self.workerId) (hf : Tallies failures)
    (hid : job.id = id) (message : String) :
    Prog.Ends (World.exec pid role) oracle
      (fun _ w' => w'.store.Buried id (failures + 1) budget) (self.failFatally job message) n w := by
  obtain ⟨h, hs, hb, -, -⟩ := hr
  subst hid
  refine Prog.ends_bind (moveToDlq_stands hcalm hs rfl hb.failures hf rfl) ?_
  rintro _ k w₁ ⟨rfl, name, text, time, h₁⟩
  refine Prog.ends_mono (cleanupRunning_stands hcalm h₁ (fun other ho => ?_) rfl) ?_
  · exact (Option.some.inj ho).symm
  · rintro _ w₂ ⟨-, h₂⟩
    exact ⟨_, name, h₂, ⟨hb.id, rfl, hb.budget, hb.result⟩, rfl⟩

theorem executeJob_refuses (hcalm : Calm oracle)
    (hr : w.store.Running id failures budget self.workerId)
    (hl : Loaded self.settings id w.store job) (hf : Tallies failures) (hm : InI64 budget)
    (hfatal : Fatal self job queueName)
    (hdeadline : ((oracle n .utcNow).now.addSeconds
      (job.jobTimeoutSeconds.getD self.settings.defaultJobTimeoutSeconds)).isSome) :
    Prog.Ends (World.exec pid role) oracle
      (fun _ w' => w'.store.Buried id (failures + 1) budget) (self.executeJob job queueName) n w := by
  have hrunning := hr
  obtain ⟨h, hs, hb, -, -⟩ := hr
  obtain ⟨hid, hretries, -⟩ := hl.agrees hs hb hf.inI64 hm
  have hburies : ∀ (message : String) (k : Nat) (w' : World), w'.store = w.store →
      Prog.Ends (World.exec pid role) oracle
        (fun _ after => after.store.Buried id (failures + 1) budget)
        (self.failFatally job message) k w' := by
    intro message k w' hw
    rw [← hw] at hrunning
    exact failFatally_buries hcalm hrunning hf hid message
  simp only [executeJob, hretries, hf.checkedAdd]
  by_cases htimeout : job.jobTimeoutSeconds.getD self.settings.defaultJobTimeoutSeconds ≤ 0
  · rw [if_pos htimeout]
    exact hburies _ _ _ rfl
  · rw [if_neg htimeout]
    refine ends_call ?_
    obtain ⟨deadline, hdeadline⟩ := Option.isSome_iff_exists.mp hdeadline
    simp only [World.exec, Prog.bind, hdeadline, dispatchToRunner]
    by_cases hhandler : (splitRunnerName job.functionName).2 = ""
    · rw [if_pos hhandler]
      exact hburies _ _ _ rfl
    · rw [if_neg hhandler]
      have hrunner : runnerFor self job queueName ∉ self.runners := by
        rcases hfatal with h | h | h
        · exact absurd h htimeout
        · exact absurd h hhandler
        · exact h
      unfold runnerFor at hrunner
      refine ends_call ?_
      rw [if_neg hrunner]
      exact hburies _ _ _ rfl

end Execution

-- Giving a job back.

-- The requeue script takes an active job from its worker.
theorem atomicRequeueJob_stands (hcalm : Calm oracle) {args : Scripts.RequeueArgs}
    {worker : WorkerId} {holder : Option String}
    (hs : w.store.Stands args.id h { worker := some worker, holder })
    (hactive : h.status = some JobStatus.Active.asStr) (hb : Bears args.id failures budget h)
    (hworker : args.activeWorkerId = some worker) {post : α → World → Prop}
    {next : Except RedisError Int → Proc α}
    (hn : ∀ later queue n w', w'.store.Stands args.id later { queue := some queue, holder } →
      Bears args.id failures budget later → later.status = some JobStatus.Pending.asStr →
      Prog.Ends (World.exec pid role) oracle post (next (.ok 1)) n w') :
    Prog.Ends (World.exec pid role) oracle post
      (redis (.atomicRequeueJob args) >>= next) n w := by
  have hnot : args.id ∉ w.store.queues args.queueKey := by simp [hs.queued]
  have hrun := run_requeueJob_present hs.present hs.notMalformed
  rw [if_neg hnot] at hrun
  have hexec : ∀ page, (Cmd.atomicRequeueJob args).exec .none page w.store =
      (.ok 1, Store.requeued args w.store) := by
    intro page
    simp only [Cmd.exec, Cmd.script, hrun]
    rfl
  have hstands := hs.requeued rfl fun other ho => by
    rw [hworker]
    exact ho
  exact ends_calm hcalm hexec fun n w' hw => hn _ _ n w' (hw ▸ hstands) (hb.requeued args)
    (status_requeuedHash hactive args)

-- A shutdown puts the job back.
theorem drainJob_waits (hcalm : Calm oracle) (hr : w.store.Running id failures budget self.workerId)
    {job : Job} (hl : Loaded self.settings id w.store job) (info : RunningJobInfo) :
    Prog.Ends (World.exec pid role) oracle
      (fun _ w' => w'.store.Waiting id failures budget) (self.drainJob id info) n w := by
  obtain ⟨h, hs, hb, hactive, -⟩ := hr
  obtain ⟨raw, parsed, startTime, hraw, hparse, -⟩ := hl
  obtain rfl := Option.some.inj (hs.hash.symm.trans hraw)
  have hstatus : parsed.status = .Active := by
    have hsame := (parseJobMap_ok hparse).1
    rw [hactive] at hsame
    exact (asStr_injective (Option.some.inj hsame)).symm
  unfold drainJob JobStore.getJobDefinition
  rw [bind_assoc]
  refine ends_calm hcalm (getJobDataMap_calm hs) fun n₁ w₁ h₁ => ?_
  dsimp only
  rw [hparse]
  simp only [pure_eq_ret, ret_bind]
  rw [if_pos (show parsed.status.Live from .inl hstatus)]
  simp only [drainRequeue, bind_assoc]
  refine ends_utcNow fun now => ?_
  rw [← h₁] at hs
  refine atomicRequeueJob_stands hcalm hs hactive hb rfl ?_
  intro later queue n₂ w₂ h₂ hlater hpending
  refine removeActiveJob_ends hcalm h₂ (by simp) fun n₃ w₃ h₃ => ?_
  refine releaseJobLockIfOwner_ends hcalm h₃ rfl fun released n₄ w₄ h₄ => ?_
  exact ends_ret ⟨later, queue, h₄, hlater, .inl hpending⟩

-- A poll that goes no further gives a claimed job back.

theorem lockOwnedByOther_stands (hcalm : Calm oracle) (hs : w.store.Stands id h p)
    (hholder : p.holder = some self.workerId) :
    Prog.Ends (World.exec pid role) oracle
      (fun other w' => other = some false ∧ w'.store = w.store)
      (self.lockOwnedByOther id 2) n w := by
  rcases hs.lock_cases hholder with hlock | hlock
  · have hfree : ∀ page, (Cmd.getJobLockOwner id).exec .none page w.store =
        (.ok none, w.store) := by
      intro page
      simp [Cmd.exec, Cmd.single, getLock, hlock, Cmd.reply]
    exact ends_calm hcalm hfree fun n₁ w₁ h₁ => ends_ret ⟨rfl, h₁⟩
  · exact lockOwnedByOther_ends hcalm hlock

theorem requeueClaimedJobWithoutDefinition_stands (hcalm : Calm oracle)
    (hs : w.store.Stands id h p) (hqueue : p.queue = none) (queueName : QueueKey)
    (pendingError : Option String) :
    Prog.Ends (World.exec pid role) oracle
      (fun added w' => added = true ∧ ∃ lastError queue, w'.store.Stands id
        { h with status := some JobStatus.Pending.asStr, lastError, startTime := none, workerId := none }
        { p with queue := some queue })
      (requeueClaimedJobWithoutDefinition queueName id pendingError) n w := by
  refine ends_calm hcalm (fun page => rfl) fun n₁ w₁ h₁ => ?_
  have hpending : w₁.store.Stands id
      { h with
        status := some JobStatus.Pending.asStr
        lastError := pendingError.or h.lastError
        startTime := none
        workerId := none } p := by
    rw [h₁]
    exact (hs.hset _).hdel _
  have hnot : id ∉ w₁.store.queues (normalizeQueueName queueName) := by
    simp [hpending.queued, hqueue]
  have hasked : ∀ page, (Cmd.isJobQueued (normalizeQueueName queueName) id).exec .none page
      w₁.store = (.ok false, w₁.store) := by
    intro page
    simp [Cmd.exec, Cmd.single, Cmd.reply, hnot]
  refine ends_calm hcalm hasked fun n₂ w₂ h₂ => ends_utcNow fun now => ?_
  have hadded : (w₂.store.zadd (normalizeQueueName queueName) id now.timestampMillis).Stands id
      { h with
        status := some JobStatus.Pending.asStr
        lastError := pendingError.or h.lastError
        startTime := none
        workerId := none } { p with queue := some (normalizeQueueName queueName) } := by
    rw [h₂]
    exact hpending.zadd hqueue _ _
  exact ends_calm hcalm (fun page => rfl) fun n₃ w₃ h₃ => ends_ret ⟨rfl, _, _, h₃ ▸ hadded⟩

theorem releaseClaimedJob_waits (hcalm : Calm oracle)
    (hr : w.store.Running id failures budget self.workerId) (hf : Tallies failures)
    (hm : InI64 budget) {job : Job} (hl : Loaded self.settings id w.store job)
    (queueName : QueueKey) (pendingError : Option String) :
    Prog.Ends (World.exec pid role) oracle (fun _ w' => w'.store.Waiting id failures budget)
      (self.releaseClaimedJob queueName id job pendingError) n w := by
  obtain ⟨h, hs, hb, hactive, howner⟩ := hr
  obtain ⟨-, -, -, hstatus, hworker⟩ := hl.agrees hs hb hf.inI64 hm
  have hjob : job.status = .Active := by
    rw [hactive] at hstatus
    exact (asStr_injective (Option.some.inj hstatus)).symm
  refine Prog.ends_bind (lockOwnedByOther_stands hcalm hs rfl) ?_
  rintro _ n₁ w₁ ⟨rfl, h₁⟩
  dsimp only
  rw [if_pos ⟨by decide, hworker.trans howner⟩]
  unfold requeueClaimedJobIfNeeded
  rw [if_pos (show job.status.Live from .inl hjob), if_pos hjob]
  rw [← h₁] at hs
  refine Prog.ends_bind
    (requeueClaimedJobWithoutDefinition_stands hcalm hs rfl queueName pendingError) ?_
  rintro _ n₂ w₂ ⟨rfl, lastError, queue, h₂⟩
  rw [if_pos rfl]
  refine removeActiveJob_ends hcalm h₂ (fun _ heq => (Option.some.inj heq).symm) ?_
  intro n₃ w₃ h₃
  refine releaseJobLockIfOwner_ends hcalm h₃ rfl fun released n₄ w₄ h₄ => ?_
  exact ends_ret ⟨_, queue, h₄, ⟨hb.id, hb.failures, hb.budget, hb.result⟩, .inl rfl⟩

-- A recovery that takes the job from a worker without a lock puts it back.

theorem dropTracking_stands (hcalm : Calm oracle) (hs : w.store.Stands id h p)
    {worker : WorkerId} (hworker : p.worker = none)
    (hholder : p.holder = some (Recover.lockOwner worker)) :
    Prog.Ends (World.exec pid role) oracle
      (fun _ w' => w'.store.Stands id h { p with worker := none, holder := none })
      (Recover.dropTracking worker id id) n w := by
  refine removeActiveJob_ends hcalm hs (by simp [hworker]) fun n₁ w₁ h₁ => ?_
  refine releaseJobLockIfOwner_ends hcalm h₁ hholder fun released n₂ w₂ h₂ => ?_
  exact ends_ret h₂

theorem settleOrphan_waits (hcalm : Calm oracle) {worker : WorkerId} {job : Job}
    (hs : w.store.Stands id h { worker := some worker, holder := some (Recover.lockOwner worker) })
    (hb : Bears id failures budget h) (hactive : h.status = some JobStatus.Active.asStr)
    (hid : job.id = id) (hstatus : job.status = .Active) (queueName : QueueKey) :
    Prog.Ends (World.exec pid role) oracle (fun _ w' => w'.store.Waiting id failures budget)
      (Recover.settleOrphan worker id job queueName) n w := by
  subst hid
  have hnot : job.id ∉ w.store.queues queueName := by simp [hs.queued]
  have hasked : ∀ page, (Cmd.isJobQueued queueName job.id).exec .none page w.store =
      (.ok false, w.store) := by
    intro page
    simp [Cmd.exec, Cmd.single, Cmd.reply, hnot]
  refine ends_calm hcalm hasked fun n₁ w₁ h₁ => ?_
  dsimp only
  rw [if_pos (show job.status.Live from .inl hstatus)]
  rw [← h₁] at hs
  have hrequeue : ∀ (time : DateTime) (k : Nat) (w₂ : World), w₂.store = w₁.store →
      Prog.Ends (World.exec pid role) oracle (fun _ w' => w'.store.Waiting job.id failures budget)
        (redis (.atomicRequeueJob {
            id := job.id
            queueKey := queueName
            score := time.timestampMillis
            requeueMessage := Recover.recoverMessage job.status
            releasingOwner := Recover.lockOwner worker
            activeWorkerId := some worker
            nextScheduled := some time }) >>= Recover.afterRequeue worker job) k w₂ := by
    intro time k w₂ hw
    rw [← hw] at hs
    refine atomicRequeueJob_stands hcalm hs hactive hb rfl ?_
    intro later queue n₃ w₃ h₃ hlater hpending
    refine Prog.ends_bind (dropTracking_stands hcalm h₃ rfl rfl) fun _ n₄ w₄ h₄ => ?_
    exact ends_ret ⟨later, queue, h₄, hlater, .inl hpending⟩
  unfold Recover.requeueOrphan given
  cases job.nextScheduledRunTime with
  | some time => exact hrequeue time _ _ rfl
  | none => exact ends_utcNow fun now => hrequeue now _ _ rfl

theorem recoverFound_waits (hcalm : Calm oracle) {worker : WorkerId}
    (hr : w.store.Running id failures budget worker) (hfree : w.store.lock id = none)
    {raw : JobHash} (hraw : w.store.hash id = some raw) {defaultMaxRetries : Int}
    (hparse : parseJobMap raw id defaultMaxRetries = .ok job) :
    Prog.Ends (World.exec pid role) oracle
      (fun answer w' => answer = .ok .recovered → w'.store.Waiting id failures budget)
      (Recover.recoverFound settings worker id job) n w := by
  obtain ⟨h, hs, hb, hactive, -⟩ := hr
  obtain rfl := Option.some.inj (hs.hash.symm.trans hraw)
  obtain ⟨hstatus, hname, -⟩ := parseJobMap_ok hparse
  have hid : job.id = id := hname.trans hb.id
  have hjob : job.status = .Active := by
    rw [hactive] at hstatus
    exact (asStr_injective (Option.some.inj hstatus)).symm
  unfold Recover.recoverFound
  dsimp only
  split
  · exact ends_ret fun heq => by cases heq
  rename_i lockTimeoutMs hms
  split_ifs
  · exact ends_ret fun heq => by cases heq
  by_cases hpx : w.store.PxOk lockTimeoutMs
  · have hlocks : w.store.locks job.id = none := by
      rw [hid]
      exact Option.map_eq_none_iff.mp hfree
    have htaken : ∀ page, (Cmd.tryLockJob job.id (Recover.lockOwner worker) lockTimeoutMs).exec
        .none page w.store = (.ok true, w.store.setLock job.id (some {
          value := .owner (Recover.lockOwner worker)
          expireAt := some (w.store.now + (lockTimeoutMs : ℚ).num) })) := by
      intro page
      simp [Cmd.exec, Cmd.single, setLockNx, hpx, hlocks, Cmd.reply]
    refine ends_calm hcalm htaken fun n₁ w₁ h₁ => ?_
    have hheld := hs.setLock (Recover.lockOwner worker)
      (some (w.store.now + (lockTimeoutMs : ℚ).num))
    rw [hid] at h₁
    rw [← h₁] at hheld
    exact Prog.ends_mono (settleOrphan_waits hcalm hheld hb hactive hid hjob _) fun _ _ hw _ => hw
  · have hrefused : ∀ page, (Cmd.tryLockJob job.id (Recover.lockOwner worker) lockTimeoutMs).exec
        .none page w.store = (.error .failed, w.store) := by
      intro page
      simp [Cmd.exec, Cmd.single, setLockNx, hpx]
    exact ends_calm hcalm hrefused fun n₁ w₁ h₁ => ends_ret fun heq => by cases heq

theorem recoverJob_waits (hcalm : Calm oracle) {worker : WorkerId}
    (hr : w.store.Running id failures budget worker) :
    Prog.Ends (World.exec pid role) oracle
      (fun answer w' => answer = .ok .recovered → w'.store.Waiting id failures budget)
      (Recover.recoverJob self worker id) n w := by
  have hrunning := hr
  obtain ⟨h, hs, hb, hactive, -⟩ := hr
  refine ends_call ?_
  by_cases hshutdown : (w.mem self.workerId).shutdown = true
  · simp only [World.exec, hshutdown]
    exact ends_ret fun heq => by cases heq
  simp only [World.exec, hshutdown]
  rcases hs.lock_cases rfl with hlock | hlock
  · have hfree : ∀ page, (Cmd.getJobLockOwner id).exec .none page w.store =
        (.ok none, w.store) := by
      intro page
      simp [Cmd.exec, Cmd.single, getLock, hlock, Cmd.reply]
    refine ends_calm hcalm hfree fun n₁ w₁ h₁ => ?_
    unfold JobStore.getJobDefinition
    simp only [bind_assoc]
    rw [← h₁] at hs hrunning hlock
    refine ends_calm hcalm (getJobDataMap_calm hs) fun n₂ w₂ h₂ => ?_
    dsimp only
    rw [← h₂] at hs hrunning hlock
    cases hparse : parseJobMap h id self.settings.defaultMaxRetries with
    | error error => exact ends_ret fun heq => by cases heq
    | ok job => exact recoverFound_waits hcalm hrunning hlock hs.hash hparse
  · have hheld : ∀ page, (Cmd.getJobLockOwner id).exec .none page w.store =
        (.ok (some worker), w.store) := by
      intro page
      simp [Cmd.exec, Cmd.single, getLock, hlock, Cmd.reply]
    exact ends_calm hcalm hheld fun n₁ w₁ h₁ => ends_ret fun heq => by cases heq

end RRQWorker

end Rrq
