import Rrq.Client
import Rrq.Concurrent.Trace

-- How long a client keeps the unique lock that it takes for a job.

namespace Rrq

-- A whole number of seconds read off a span is the floor of a span that is not negative.
theorem secondsOf_nonneg {nanos : Int} (h : 0 ≤ nanos) :
    nanos.tdiv 1000000000 = nanos / 1000000000 :=
  Int.tdiv_eq_ediv_of_nonneg h

theorem secondsOf_nonpos {nanos : Int} (h : nanos ≤ 0) : nanos.tdiv 1000000000 ≤ 0 :=
  Int.neg_nonneg.mp (by
    rw [← Int.neg_tdiv]
    exact Int.tdiv_nonneg (Int.neg_nonneg.mpr h) (by decide))

namespace RRQClient

variable (settings : RRQSettings) (options : EnqueueOptions) (enqueueTime : DateTime)

def jobTimeoutOf : Int := options.jobTimeoutSeconds.getD settings.defaultJobTimeoutSeconds

-- How far ahead of now the caller puts the job, in nanoseconds.
def aheadOf : Int :=
  match options.deferUntil, options.deferBy with
  | some time, _ => time.nanos - enqueueTime.nanos
  | none, some nanos => nanos
  | none, none => 0

-- The lock lives for the longest of three spans, not for their sum. Each has room for the
-- deferral and the timeout only when one of the two is small.
def LockFits : Prop :=
  aheadOf options enqueueTime ≤
      (settings.defaultLockTimeoutExtensionSeconds + 1) * 1000000000 ∨
    aheadOf options enqueueTime + jobTimeoutOf settings options * 1000000000 ≤
      settings.defaultUniqueJobLockTtlSeconds * 1000000000 ∨
    match options.deferUntil, options.deferBy with
    | some _, _ =>
        jobTimeoutOf settings options = 1 ∧ 0 < aheadOf options enqueueTime ∧
          aheadOf options enqueueTime % 1000000000 = 0
    | none, some _ =>
        aheadOf options enqueueTime + jobTimeoutOf settings options * 1000000000 ≤ 1000000000 ∨
          jobTimeoutOf settings options = 1 ∧ aheadOf options enqueueTime % 1000000000 = 0
    | none, none => False

variable {settings options enqueueTime}

theorem lockTtlFloor_eq {jobTimeoutSeconds floor : Int}
    (h : lockTtlFloor settings jobTimeoutSeconds = some floor) :
    floor = jobTimeoutSeconds + settings.defaultLockTimeoutExtensionSeconds + 1 := by
  simp only [lockTtlFloor, checkedAdd, checkedI64, Option.bind_eq_some_iff,
    Option.ite_none_right_eq_some, Option.some.injEq] at h
  obtain ⟨_, ⟨-, rfl⟩, -, rfl⟩ := h
  rfl

-- One case for each way to put a job off.
theorem deferral_covers {floor ttl : Int} {runTime : DateTime}
    (hfloor : lockTtlFloor settings (jobTimeoutOf settings options) = some floor)
    (hpos : 0 < jobTimeoutOf settings options)
    (h : deferral options enqueueTime (max settings.defaultUniqueJobLockTtlSeconds floor) =
      some (runTime, ttl)) :
    runTime.nanos - enqueueTime.nanos + jobTimeoutOf settings options * 1000000000 ≤
      ttl * 1000000000 ↔ LockFits settings options enqueueTime := by
  have hfloor := lockTtlFloor_eq hfloor
  have hlongest := max_cases settings.defaultUniqueJobLockTtlSeconds floor
  generalize max settings.defaultUniqueJobLockTtlSeconds floor = longest at h hlongest
  unfold deferral at h
  unfold LockFits aheadOf
  match huntil : options.deferUntil, hby : options.deferBy with
  | some time, _ =>
      simp only [huntil, Option.some.injEq, Prod.mk.injEq] at h ⊢
      obtain ⟨rfl, rfl⟩ := h
      rcases le_total 0 (time.nanos - enqueueTime.nanos) with hahead | hahead
      · rw [secondsOf_nonneg hahead]
        split <;> omega
      · rw [if_neg (not_lt.mpr (secondsOf_nonpos hahead))]
        omega
  | none, some nanos =>
      simp only [huntil, hby, Option.ite_none_right_eq_some, Option.some.injEq,
        Prod.mk.injEq] at h ⊢
      obtain ⟨-, rfl, rfl⟩ := h
      dsimp only
      rcases le_total 0 nanos with hahead | hahead
      · rw [secondsOf_nonneg hahead]
        omega
      · rw [max_eq_right (secondsOf_nonpos hahead)]
        omega
  | none, none =>
      simp only [huntil, hby, Option.some.injEq, Prod.mk.injEq, or_false] at h ⊢
      obtain ⟨rfl, rfl⟩ := h
      omega

-- The two events of a client's history that matter here: it takes the unique lock, and it
-- hands the job over.

def takes (key : String) (id : JobId) (ttlSeconds : Int) : (op : Op) × op.Reply :=
  ⟨.redis (.acquireUniqueJobLock key id ttlSeconds), .ok true⟩

def hands (job : Job) (queueName : QueueKey) (score : ℚ) (reply : Except RedisError Bool) :
    (op : Op) × op.Reply :=
  ⟨.redis (.atomicEnqueueJob job.id queueName (buildJobMapping job) score), reply⟩

variable {functionName : String} {params : Params} {key : String} {id : JobId} {ttlSeconds : Int}
  {trace : List ((op : Op) × op.Reply)}

theorem trace_redis {α : Type} {command : Cmd}
    {next : Except RedisError command.Answer → Proc α} {answer : α}
    (h : (redis command >>= next).Trace trace answer) :
    ∃ reply rest, trace = ⟨.redis command, reply⟩ :: rest ∧ (next reply).Trace rest answer :=
  Prog.trace_perform_bind.mp h

theorem takes_not_mem_given {value : Option String} {answer : String}
    (h : (given value (perform .newId)).Trace trace answer) : takes key id ttlSeconds ∉ trace := by
  cases value with
  | some value =>
      obtain ⟨rfl, -⟩ := Prog.trace_ret.mp h
      simp
  | none =>
      obtain ⟨reply, rest, rfl, hrest⟩ := Prog.trace_call.mp h
      obtain ⟨rfl, -⟩ := Prog.trace_ret.mp hrest
      simp [takes]

-- Whoever has taken the lock has taken it for the time it asked for, and keeps its schedule.
theorem trace_reserve {wanted : String} {owner : JobId} {runTime : DateTime}
    {lockTtlSeconds : Int} {answer : Except EnqueueError (DateTime × Bool)}
    (h : (reserve wanted owner enqueueTime runTime lockTtlSeconds).Trace trace answer)
    (htakes : takes key id ttlSeconds ∈ trace) :
    key = wanted ∧ id = owner ∧ ttlSeconds = lockTtlSeconds ∧ answer = .ok (runTime, true) := by
  unfold reserve at h
  obtain ⟨look, rest, rfl, hrest⟩ := trace_redis h
  replace htakes : takes key id ttlSeconds ∈ rest := by simpa [takes] using htakes
  match look with
  | .error error =>
      obtain ⟨rfl, -⟩ := Prog.trace_ret.mp hrest
      exact absurd htakes List.not_mem_nil
  | .ok remaining =>
      dsimp only at hrest
      split at hrest
      · obtain ⟨rfl, -⟩ := Prog.trace_ret.mp hrest
        exact absurd htakes List.not_mem_nil
      · obtain ⟨reply, last, rfl, hlast⟩ := trace_redis hrest
        match reply with
        | .error error =>
            obtain ⟨rfl, -⟩ := Prog.trace_ret.mp hlast
            simp [takes] at htakes
        | .ok true =>
            obtain ⟨rfl, rfl⟩ := Prog.trace_ret.mp hlast
            simp only [takes, List.mem_singleton, Sigma.mk.injEq, Op.redis.injEq,
              Cmd.acquireUniqueJobLock.injEq] at htakes
            obtain ⟨⟨rfl, rfl, rfl⟩, -⟩ := htakes
            exact ⟨rfl, rfl, rfl, rfl⟩
        | .ok false =>
            -- The second look at the lock takes nothing.
            obtain ⟨again, end_, rfl, hend⟩ := trace_redis hlast
            have hnil : end_ = [] := by
              match again with
              | .error error => exact (Prog.trace_ret.mp hend).1
              | .ok remaining =>
                  dsimp only at hend
                  split at hend <;> exact (Prog.trace_ret.mp hend).1
            subst hnil
            simp [takes] at htakes

theorem trace_reserveIfUnique {owner : JobId} {runTime : DateTime} {lockTtlSeconds : Int}
    {answer : Except EnqueueError (DateTime × Bool)}
    (h : (reserveIfUnique options owner enqueueTime runTime lockTtlSeconds).Trace trace answer)
    (htakes : takes key id ttlSeconds ∈ trace) :
    options.uniqueKey = some key ∧ id = owner ∧ ttlSeconds = lockTtlSeconds ∧
      answer = .ok (runTime, true) := by
  unfold reserveIfUnique at h
  split at h
  · rename_i wanted hwanted
    obtain ⟨rfl, howner, httl, hanswer⟩ := trace_reserve h htakes
    exact ⟨hwanted, howner, httl, hanswer⟩
  · obtain ⟨rfl, -⟩ := Prog.trace_ret.mp h
    exact absurd htakes List.not_mem_nil

theorem takes_not_mem_releaseReserved {uniqueAcquired : Bool}
    (h : (releaseReserved options uniqueAcquired).Trace trace ()) :
    takes key id ttlSeconds ∉ trace := by
  unfold releaseReserved at h
  split at h
  · obtain ⟨reply, rest, rfl, hrest⟩ := trace_redis h
    obtain ⟨rfl, -⟩ := Prog.trace_ret.mp hrest
    simp [takes]
  · obtain ⟨rfl, -⟩ := Prog.trace_ret.mp h
    simp

-- Handing the job over comes first. Giving the lock back takes none.
theorem trace_enqueueJob {job : Job} {queueName : QueueKey} {runTime : DateTime}
    {uniqueAcquired : Bool} {answer : Except EnqueueError Job}
    (h : (enqueueJob options job queueName runTime uniqueAcquired).Trace trace answer) :
    takes key id ttlSeconds ∉ trace ∧
      ∃ reply, hands job queueName runTime.timestampMillis reply ∈ trace := by
  unfold enqueueJob at h
  obtain ⟨reply, rest, rfl, hrest⟩ := trace_redis h
  refine ⟨?_, reply, List.mem_cons_self⟩
  have hnone : takes key id ttlSeconds ∉ rest := by
    match reply with
    | .ok true =>
        obtain ⟨rfl, -⟩ := Prog.trace_ret.mp hrest
        simp
    | .ok false | .error error =>
        obtain ⟨before, _, after, rfl, hbefore, hafter⟩ := Prog.trace_bind.mp hrest
        obtain ⟨rfl, -⟩ := Prog.trace_ret.mp hafter
        simpa using takes_not_mem_releaseReserved hbefore
  simpa [takes] using hnone

-- A job whose unique lock was taken is handed over, and the lock lives to the end of the job's
-- time exactly when one of the spans it was chosen from has room for all of it.
theorem enqueue_lockCovers (functionName : String) (params : Params)
    {answer : Except EnqueueError Job}
    (htrace : (enqueue settings functionName params options).Trace trace answer)
    (htakes : takes key id ttlSeconds ∈ trace) :
    ∃ (job : Job) (queueName : QueueKey) (runTime : DateTime) (timeout : Int)
      (reply : Except RedisError Bool),
      job.id = id ∧ job.jobUniqueKey = some key ∧ job.nextScheduledRunTime = some runTime ∧
      job.jobTimeoutSeconds = some timeout ∧
      hands job queueName runTime.timestampMillis reply ∈ trace ∧
      (runTime.nanos - job.enqueueTime.nanos + timeout * 1000000000 ≤ ttlSeconds * 1000000000 ↔
        LockFits settings options job.enqueueTime) := by
  unfold enqueue at htrace
  obtain ⟨named, owner, rest, rfl, hnamed, hrest⟩ := Prog.trace_bind.mp htrace
  replace htakes := (List.mem_append.mp htakes).resolve_left (takes_not_mem_given hnamed)
  dsimp only at hrest
  split at hrest
  · obtain ⟨rfl, -⟩ := Prog.trace_ret.mp hrest
    exact absurd htakes List.not_mem_nil
  · rename_i hpos
    split at hrest
    · obtain ⟨rfl, -⟩ := Prog.trace_ret.mp hrest
      exact absurd htakes List.not_mem_nil
    · rename_i floor hfloor
      split at hrest
      · obtain ⟨rfl, -⟩ := Prog.trace_ret.mp hrest
        exact absurd htakes List.not_mem_nil
      · obtain ⟨enqueueTime, last, rfl, hlast⟩ := Prog.trace_perform_bind.mp hrest
        replace htakes : takes key id ttlSeconds ∈ last := by simpa [takes] using htakes
        split at hlast
        · obtain ⟨rfl, -⟩ := Prog.trace_ret.mp hlast
          exact absurd htakes List.not_mem_nil
        · rename_i runTime lockTtlSeconds hdeferral
          obtain ⟨before, reserved, after, rfl, hbefore, hafter⟩ := Prog.trace_bind.mp hlast
          match reserved with
          | .error error =>
              obtain ⟨rfl, -⟩ := Prog.trace_ret.mp hafter
              rw [List.append_nil] at htakes
              obtain ⟨-, -, -, hanswer⟩ := trace_reserveIfUnique hbefore htakes
              cases hanswer
          | .ok (due, uniqueAcquired) =>
              obtain ⟨hnone, reply, hhands⟩ := trace_enqueueJob hafter
              obtain ⟨hkey, rfl, rfl, hanswer⟩ := trace_reserveIfUnique hbefore
                ((List.mem_append.mp htakes).resolve_right hnone)
              cases hanswer
              exact ⟨_, _, runTime, jobTimeoutOf settings options, reply, rfl, hkey, rfl, rfl,
                List.mem_append_right _ (List.mem_cons_of_mem _ (List.mem_append_right _ hhands)),
                deferral_covers hfloor (not_le.mp hpos) hdeferral⟩

-- A job put off under the default settings, and the history of its client.

def deferred (seconds : Int) : EnqueueOptions where
  jobId := some "a"
  uniqueKey := some "k"
  deferBy := some (seconds * 1000000000)

def deferredJob (seconds : Int) : Job :=
  buildJob {} "f" [] (deferred seconds) "a" "rrq:queue:default" ⟨0⟩ ⟨seconds * 1000000000⟩ 300

def deferredTrace (seconds ttlSeconds : Int) : List ((op : Op) × op.Reply) :=
  [⟨.utcNow, ⟨0⟩⟩, ⟨.redis (.getLockTtl "k"), .ok 0⟩, takes "k" "a" ttlSeconds,
    hands (deferredJob seconds) "rrq:queue:default"
      (DateTime.timestampMillis ⟨seconds * 1000000000⟩) (.ok true)]

-- A minute leaves room.
theorem enqueue_lockCovers_minute :
    ∃ (job : Job) (queueName : QueueKey) (runTime : DateTime) (timeout : Int)
      (reply : Except RedisError Bool),
      hands job queueName runTime.timestampMillis reply ∈ deferredTrace 60 21600 ∧
      job.nextScheduledRunTime = some runTime ∧ job.jobTimeoutSeconds = some timeout ∧
      runTime.nanos - job.enqueueTime.nanos + timeout * 1000000000 ≤ 21600 * 1000000000 := by
  have htrace : (enqueue {} "f" [] (deferred 60)).Trace (deferredTrace 60 21600)
      (.ok (deferredJob 60)) := .call (.call (.call (.call (.ret _))))
  obtain ⟨job, queueName, runTime, timeout, reply, -, -, hrun, htimeout, hhands, hcovers⟩ :=
    enqueue_lockCovers "f" [] htrace (by simp [deferredTrace] : takes "k" "a" 21600 ∈ _)
  exact ⟨job, queueName, runTime, timeout, reply, hhands, hrun, htimeout,
    hcovers.mpr (.inl (show (60 * 1000000000 : Int) ≤ _ by decide))⟩

-- A day does not: the lock outlives the day by one second, and the job may take five minutes.
theorem enqueue_lockCovers_day :
    ¬ ∀ (settings : RRQSettings) (functionName : String) (params : Params)
      (options : EnqueueOptions) (trace : List ((op : Op) × op.Reply))
      (answer : Except EnqueueError Job) (key : String) (id : JobId) (ttlSeconds : Int) (job : Job)
      (queueName : QueueKey) (score : ℚ) (reply : Except RedisError Bool) (runTime : DateTime)
      (timeout : Int),
      (enqueue settings functionName params options).Trace trace answer →
      takes key id ttlSeconds ∈ trace → hands job queueName score reply ∈ trace →
      job.nextScheduledRunTime = some runTime → job.jobTimeoutSeconds = some timeout →
      runTime.nanos - job.enqueueTime.nanos + timeout * 1000000000 ≤ ttlSeconds * 1000000000 := by
  intro h
  have htrace : (enqueue {} "f" [] (deferred 86400)).Trace (deferredTrace 86400 86401)
      (.ok (deferredJob 86400)) := .call (.call (.call (.call (.ret _))))
  have hcovers := h {} "f" [] (deferred 86400) (deferredTrace 86400 86401) _ "k" "a" 86401
    (deferredJob 86400) "rrq:queue:default" _ (.ok true) ⟨86400 * 1000000000⟩ 300 htrace
    (by simp [deferredTrace]) (.tail _ (.tail _ (.tail _ (.head _)))) rfl rfl
  exact absurd hcovers (by decide)

end RRQClient

end Rrq
