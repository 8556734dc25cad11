import Rrq.Producer.Calls
import Rrq.Store.Entries
import Rrq.Store.Standing
import Rrq.Worker.Release.Theorems

-- How a new job stands once a call has handed it over, and what the producer reads of a job.

namespace Rrq

namespace Store

-- Nothing in the store bears the name.
structure Clear (s : Store) (id : JobId) : Prop where
  job : s.jobs id = none
  queued : ∀ queue, id ∉ s.queues queue
  active : ∀ worker, id ∉ s.active worker
  lock : s.lock id = none
  listed : ∀ name, (s.dlq name).count id = 0

theorem Clear.made {s t : Store} {args : Producer.JobArgs} (hs : s.Clear args.id)
    (hm : Producer.Made args s t) (hactive : t.active = s.active) (hlocks : t.locks = s.locks)
    (hdlq : t.dlq = s.dlq) : t.Stands args.id args.mapping { queue := some args.queueName } where
  hash := hm.hash
  queued queue := by
    rw [hm.queues]
    by_cases hq : queue = args.queueName
    · subst hq
      simp
    · simp [hq, hs.queued queue, Ne.symm hq]
  active worker := by simp [hactive, hs.active worker]
  lock cell hcell := by
    rw [lock_congr (congrFun hlocks args.id), hs.lock] at hcell
    cases hcell
  listed name := by simp [hdlq, hs.listed name]

end Store

namespace Producer

section Calls

variable {pid : Pid} {role : Role} {oracle : Nat → Op → Chance} {n : Nat} {w : World}
  {kinds : Store.Kind → Prop} {R : Store → Store → Prop}

-- A program that comes to one command at most moves the store as that command does.
theorem Prepares.frames {α : Type} {rejected : α → Prop} {script : Proc α → Prop}
    {program : Proc α} (h : Prepares rejected script program)
    (hf : Store.Frame kinds (fun _ => True) R)
    (hs : ∀ rest, script rest → ∃ (c : Cmd) (answer : Except RedisError c.Answer → α),
      rest = .call (.redis c) (fun reply => .ret (answer reply)) ∧ ∀ kind ∈ c.kinds, kinds kind) :
    Prog.Ends (World.exec pid role) oracle (fun _ after => R w.store after.store) program n w := by
  unfold Prog.Ends
  rcases h.run pid role oracle n with ⟨answer, k, -, hrun⟩ | ⟨rest, k, hrest, hrun⟩
  · rw [hrun w]
    exact hf.refl _
  · rw [hrun w]
    obtain ⟨c, answer, rfl, hkinds⟩ := hs rest hrest
    exact Cmd.frame_of_exec hf hkinds rfl

variable {config : Config} {functionName : String} {params : Params} {options : EnqueueOptions}

theorem frames_program (call : Submission) (hf : Store.Frame kinds (fun _ => True) R)
    (hdefinition : kinds .definition) (hqueue : kinds .queue) :
    Prog.Ends (World.exec pid role) oracle (fun _ after => R w.store after.store)
      (call.program config functionName params options) n w := by
  have hkinds : ∀ kind ∈ [Store.Kind.definition, Store.Kind.queue], kinds kind := by
    simp [hdefinition, hqueue]
  cases call with
  | enqueue =>
      refine Prog.ends_bind (enqueue_prepares.frames hf ?_) fun _ _ _ h => Prog.ends_ret h
      rintro rest ⟨args, ttlSeconds, -, rfl⟩
      exact ⟨_, _, rfl, hkinds⟩
  | rateLimited key window =>
      refine enqueueWithRateLimit_prepares.frames hf ?_
      rintro rest ⟨args, -, -, rfl⟩
      exact ⟨_, _, rfl, hkinds⟩
  | debounced key window =>
      refine Prog.ends_bind (enqueueWithDebounce_prepares.frames hf ?_) fun _ _ _ h =>
        Prog.ends_ret h
      rintro rest ⟨args, -, rfl⟩
      exact ⟨_, _, rfl, hkinds⟩

-- The job that a call comes back with waits in its queue, if its name is a new one.
theorem program_stands (call : Submission) {id : JobId} (hclear : w.store.Clear id) :
    Prog.Ends (World.exec pid role) oracle
      (fun answer after => answer = .ok (some id) → ∃ args : JobArgs, args.id = id ∧
        Effective config functionName params options call.schedule args ∧
          after.store.Stands id args.mapping { queue := some args.queueName })
      (call.program config functionName params options) n w := by
  intro hanswer
  obtain ⟨args, rfl, he, hmade⟩ := ends_program call id hanswer hclear.job
  exact ⟨args, rfl, he, hclear.made hmade
    (frames_program call Store.frame_sameActive (by simp) (by simp))
    (frames_program call Store.frame_sameLocks (by simp) (by simp))
    (frames_program call Store.frame_sameDlq (by simp) (by simp))⟩

end Calls

-- The status of a job, as the producer tells it.

inductive Status where
  | Pending
  | Active
  | Completed
  | Failed
  | Retrying
  | Unknown
deriving DecidableEq

def Status.fromStr (s : String) : Status :=
  if s = "PENDING" then Pending
  else if s = "ACTIVE" then Active
  else if s = "COMPLETED" then Completed
  else if s = "FAILED" then Failed
  else if s = "RETRYING" then Retrying
  else Unknown

structure JobResult where
  status : Status
  result : Option Json
  lastError : Option String

-- An empty text and the text of null are no result.
def parseResult : Text Json → Option Json
  | .val .null => none
  | .val value => some value
  | .raw _ => none

def JobResult.ofData (data : JobHash) : JobResult where
  status := (data.status.map Status.fromStr).getD .Unknown
  result := data.result.bind parseResult
  lastError := data.lastError

def getJobStatus (id : JobId) : Proc (Except RedisError (Option JobResult)) := do
  match ← redis (.getJobDataMap id) with
  | .error error => pure (.error error)
  | .ok none => pure (.ok none)
  | .ok (some data) => pure (.ok (some (.ofData data)))

theorem getJobStatus_stands {pid : Pid} {role : Role} {oracle : Nat → Op → Chance} {n : Nat}
    {w : World} (hcalm : ∀ n op, (oracle n op).fault = .none) {id : JobId} {h : JobHash}
    {p : Store.Standing} (hs : w.store.Stands id h p) :
    Prog.Ends (World.exec pid role) oracle
      (fun answer after => answer = .ok (some (.ofData h)) ∧ after.store = w.store)
      (getJobStatus id) n w := by
  have hexec : ∀ page, (Cmd.getJobDataMap id).exec .none page w.store =
      (.ok (some h), w.store) := by
    intro page
    simp [Cmd.exec, Cmd.single, Cmd.reply, hs.hash]
  exact RRQWorker.ends_calm hcalm hexec fun n₁ w₁ h₁ => Prog.ends_ret ⟨rfl, h₁⟩

end Producer

end Rrq
