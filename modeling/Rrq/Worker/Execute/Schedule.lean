import Rrq.Client
import Rrq.Worker.Execute

-- When a retry is due, as its queue says and as its hash says.

namespace Rrq

-- A number that the cast does not saturate is cut to its whole part.
theorem abs_sub_asI64 {x : ℚ} (hlow : I64_MIN < asI64 x) (hhigh : asI64 x < I64_MAX) :
    |x - asI64 x| < 1 := by
  unfold asI64 at *
  dsimp only at *
  rw [abs_lt]
  by_cases hx : 0 ≤ x
  · rw [if_pos hx] at *
    have heq : max I64_MIN (min I64_MAX ⌊x⌋) = ⌊x⌋ := by omega
    have hfloor := Int.floor_le x
    have hnext := Int.lt_floor_add_one x
    rw [heq]
    constructor <;> linarith
  · rw [if_neg hx] at *
    have heq : max I64_MIN (min I64_MAX ⌈x⌉) = ⌈x⌉ := by omega
    have hceil := Int.le_ceil x
    have hnext := Int.ceil_lt_add_one x
    rw [heq]
    constructor <;> linarith

-- The cast moves no number away from zero.
theorem asI64_toward_zero (x : ℚ) :
    (0 < asI64 x → (asI64 x : ℚ) ≤ x) ∧ (asI64 x < 0 → x ≤ asI64 x) := by
  unfold asI64
  dsimp only
  by_cases hx : 0 ≤ x
  · rw [if_pos hx]
    have hfloor := Int.floor_le x
    have hnonneg : 0 ≤ ⌊x⌋ := Int.floor_nonneg.mpr hx
    constructor
    · intro _
      have hle : max I64_MIN (min I64_MAX ⌊x⌋) ≤ ⌊x⌋ := by
        unfold I64_MIN
        omega
      exact (Int.cast_le.mpr hle).trans hfloor
    · intro hneg
      unfold I64_MIN I64_MAX at hneg
      omega
  · rw [if_neg hx]
    have hceil := Int.le_ceil x
    have hnonpos : ⌈x⌉ ≤ 0 := Int.ceil_le.mpr (by push_cast; linarith)
    constructor
    · intro hpos
      unfold I64_MIN I64_MAX at hpos
      omega
    · intro _
      have hle : ⌈x⌉ ≤ max I64_MIN (min I64_MAX ⌈x⌉) := by
        unfold I64_MAX
        omega
      exact hceil.trans (Int.cast_le.mpr hle)

namespace DateTime

-- A clock that has not come to the ends of what a point of time can hold.
def Inside (time : DateTime) : Prop :=
  MIN_SECONDS * 1000000000 < time.nanos ∧ time.nanos < MAX_SECONDS * 1000000000

-- The two denote one instant, to within a millisecond.
def Near (time : DateTime) (millis : ℚ) : Prop := |millis - time.nanos / 1000000| ≤ 1

-- The time that is noted for a score, if it can be noted.
theorem near_timestampMillisOpt {score : ℚ} {time : DateTime}
    (h : timestampMillisOpt (asI64 score) = some time) : time.Near score := by
  unfold timestampMillisOpt at h
  split_ifs at h with hrange
  obtain rfl := Option.some.inj h
  obtain ⟨hlow, hhigh⟩ := hrange
  have hcut : |score - asI64 score| < 1 := by
    apply abs_sub_asI64
    · unfold MIN_SECONDS at hlow
      unfold I64_MIN
      omega
    · unfold MAX_SECONDS at hhigh
      unfold I64_MAX
      omega
  have hmillis : ((asI64 score * 1000000 : Int) : ℚ) / 1000000 = asI64 score := by
    push_cast
    field_simp
  unfold Near
  rw [hmillis]
  exact hcut.le

-- A clock reading is nowhere near a score for which there is no time.
theorem not_near_inside {score : ℚ} {time : DateTime}
    (h : timestampMillisOpt (asI64 score) = none) (ht : time.Inside) : ¬ time.Near score := by
  unfold timestampMillisOpt at h
  split_ifs at h with hrange
  obtain ⟨hlow, hhigh⟩ := ht
  have hlow' : (MIN_SECONDS * 1000000000 : ℚ) < time.nanos := by exact_mod_cast hlow
  have hhigh' : (time.nanos : ℚ) < MAX_SECONDS * 1000000000 := by exact_mod_cast hhigh
  obtain ⟨hpos, hneg⟩ := asI64_toward_zero score
  unfold Near
  rw [abs_le]
  rintro ⟨hbelow, habove⟩
  by_cases hunder : asI64 score * 1000000 < MIN_SECONDS * 1000000000
  · have hwhole : asI64 score ≤ MIN_SECONDS * 1000 - 1 := by omega
    have hfirst := hneg (by unfold MIN_SECONDS at hwhole; omega)
    have hcast : (asI64 score : ℚ) ≤ MIN_SECONDS * 1000 - 1 := by exact_mod_cast hwhole
    linarith
  · have hover : (MAX_SECONDS + 1) * 1000 ≤ asI64 score := by
      unfold InRange at hrange
      omega
    have hlast := hpos (by unfold MAX_SECONDS at hover; omega)
    have hcast : ((MAX_SECONDS + 1) * 1000 : ℚ) ≤ asI64 score := by exact_mod_cast hover
    linarith

end DateTime

namespace Store

-- The job waits in the queue under a score, and its hash says when that is.
def ScheduledAlike (s : Store) (queue : QueueKey) (id : JobId) : Prop :=
  ∃ score time, (s.queues queue).score? id = some score ∧
    (s.hash id).bind JobHash.nextScheduledRunTime = some (.val time) ∧ time.Near score

end Store

namespace Cmd

variable {id : JobId} {page : Nat × List String} {s t : Store}

theorem atomicRetryJob_score {queueKey : QueueKey} {score : ℚ} {message : String}
    {status : JobStatus} {count : Int}
    (h : (atomicRetryJob id queueKey score message status).exec .none page s = (.ok count, t)) :
    (t.queues queueKey).score? id = some score := by
  simp only [exec, script, Scripts.retry, Script.run_call_bind] at h
  cases hcount : s.hincrby id with
  | none => simp [hcount] at h
  | some result =>
      obtain ⟨found, mid⟩ := result
      simp only [hcount, Script.run_write_bind, Script.pure_eq, Script.run_pure, Option.map_some,
        Option.getD_some, Prod.mk.injEq] at h
      obtain ⟨-, rfl⟩ := h
      simp [Store.zadd]

theorem updateJobNextScheduledRunTime_noted (page : Nat × List String) (id : JobId)
    (time : DateTime) (s : Store) (queue : QueueKey) :
    (((updateJobNextScheduledRunTime id time).exec .none page s).2.queues queue).score? id =
        (s.queues queue).score? id ∧
      (((updateJobNextScheduledRunTime id time).exec .none page s).2.hash id).bind
        JobHash.nextScheduledRunTime = some (.val time) := by
  simp only [exec, single, reply, Store.hset]
  cases s.jobs id <;> exact ⟨rfl, by simp [Store.hash]⟩

end Cmd

section Retry

variable {settings : RRQSettings} {job : Job} {pid : Pid} {role : Role}
  {oracle : Nat → Op → Chance} {n : Nat} {w : World}

-- The score of a retry that is put off from now.
def retryScore (now : DateTime) (delaySeconds : ℚ) : ℚ := now.timestampMillis + delaySeconds * 1000

def retryQueue (settings : RRQSettings) (job : Job) : QueueKey :=
  normalizeQueueName (job.queueName.getD settings.defaultQueueName)

-- Redis does what it is told, and the clock stays in its range.
structure Sound (oracle : Nat → Op → Chance) : Prop where
  faults : ∀ n op, (oracle n op).fault = .none
  clock : ∀ n, (oracle n .utcNow).now.Inside

theorem scheduleRetry_alike (ho : Sound oracle) (errorMessage : String) (delaySeconds : ℚ) :
    Prog.Ends (World.exec pid role) oracle
      (fun answer after => answer = .ok () →
        (after.store.ScheduledAlike (retryQueue settings job) job.id ↔
          (DateTime.timestampMillisOpt
            (asI64 (retryScore (oracle n .utcNow).now delaySeconds))).isSome))
      (scheduleRetry settings job errorMessage delaySeconds) n w := by
  -- What is noted decides, since the score stays.
  have hnote : ∀ (time : DateTime) (score : ℚ) (k : Nat) (w₁ : World),
      (w₁.store.queues (retryQueue settings job)).score? job.id = some score →
      Prog.Ends (World.exec pid role) oracle
        (fun _ after => after.store.ScheduledAlike (retryQueue settings job) job.id ↔
          time.Near score)
        (redis (.updateJobNextScheduledRunTime job.id time) >>= fun _ =>
          (pure (.ok ()) : Proc Outcome)) k w₁ := by
    intro time score k w₁ hscore
    refine ends_redis fun answer s₂ w₂ hexec hs₂ _ => Prog.ends_ret ?_
    rw [ho.faults] at hexec
    obtain ⟨hkept, hnoted⟩ := Cmd.updateJobNextScheduledRunTime_noted
      (oracle k (.redis (.updateJobNextScheduledRunTime job.id time))).page job.id time w₁.store
      (retryQueue settings job)
    rw [congrArg Prod.snd hexec, ← hs₂] at hkept hnoted
    constructor
    · rintro ⟨found, noted, hfound, htime, hnear⟩
      rw [hkept, hscore] at hfound
      rw [hnoted] at htime
      obtain rfl := Option.some.inj hfound
      obtain rfl := Text.val.inj (Option.some.inj htime)
      exact hnear
    · exact fun hnear => ⟨score, time, hkept.trans hscore, hnoted, hnear⟩
  unfold scheduleRetry
  refine Prog.ends_call ?_
  have hnow : (World.exec pid role .utcNow (oracle n .utcNow) w).1 = (oracle n .utcNow).now := rfl
  rw [hnow]
  refine ends_redis fun answer s₁ w₁ hexec hs₁ _ => ?_
  rw [ho.faults] at hexec
  cases answer with
  | error error => exact Prog.ends_ret nofun
  | ok count =>
      have hscore := Cmd.atomicRetryJob_score hexec
      rw [← hs₁] at hscore
      unfold retryScore
      dsimp only
      cases hopt : DateTime.timestampMillisOpt
        (asI64 ((oracle n .utcNow).now.timestampMillis + delaySeconds * 1000)) with
      | some time =>
          refine Prog.ends_mono (hnote time _ _ w₁ hscore) fun _ after hafter _ => ?_
          exact hafter.trans (iff_of_true (DateTime.near_timestampMillisOpt hopt) rfl)
      | none =>
          refine Prog.ends_call (Prog.ends_mono (hnote _ _ _ w₁ hscore) fun _ after hafter _ => ?_)
          exact hafter.trans
            (iff_of_false (DateTime.not_near_inside hopt (ho.clock _)) Bool.false_ne_true)

theorem retryOrMove_alike (ho : Sound oracle) (errorMessage : String) (delaySeconds : Int → ℚ)
    {attempt : Int} (hcount : checkedAdd job.currentRetries 1 = some attempt)
    (hbudget : attempt < job.maxRetries) :
    Prog.Ends (World.exec pid role) oracle
      (fun answer after => answer = .ok () →
        (after.store.ScheduledAlike (retryQueue settings job) job.id ↔
          (DateTime.timestampMillisOpt
            (asI64 (retryScore (oracle n .utcNow).now (delaySeconds attempt)))).isSome))
      (retryOrMove settings job errorMessage delaySeconds) n w := by
  unfold retryOrMove
  rw [hcount]
  dsimp only
  rw [if_neg (not_le.mpr hbudget)]
  exact scheduleRetry_alike ho errorMessage (delaySeconds attempt)

-- The queue and the hash agree about a retry as long as its score is a time at all.
theorem retry_scheduled_alike (settings : RRQSettings) (job : Job) (errorMessage : String)
    (retryAfterSeconds : Option ℚ) (pid : Pid) (role : Role) {oracle : Nat → Op → Chance} (n : Nat)
    (w : World) (ho : Sound oracle) {attempt : Int}
    (hcount : checkedAdd job.currentRetries 1 = some attempt) (hbudget : attempt < job.maxRetries) :
    Prog.Ends (World.exec pid role) oracle
      (fun answer after => answer = .ok () →
        (after.store.ScheduledAlike (retryQueue settings job) job.id ↔
          (DateTime.timestampMillisOpt (asI64 (retryScore (oracle n .utcNow).now
            (retryAfterSeconds.getD (calculateBackoffSeconds settings attempt))))).isSome))
      (processRetryJob settings job errorMessage retryAfterSeconds) n w ∧
    Prog.Ends (World.exec pid role) oracle
      (fun answer after => answer = .ok () →
        (after.store.ScheduledAlike (retryQueue settings job) job.id ↔
          (DateTime.timestampMillisOpt (asI64 (retryScore (oracle n .utcNow).now
            (calculateBackoffSeconds settings attempt)))).isSome))
      (processFailureJob settings job errorMessage) n w := by
  constructor
  · exact retryOrMove_alike ho errorMessage
      (fun attempt => retryAfterSeconds.getD (calculateBackoffSeconds settings attempt)) hcount
      hbudget
  · exact retryOrMove_alike ho errorMessage (calculateBackoffSeconds settings) hcount hbudget

end Retry

-- A runner asks for a retry in so many seconds, on an empty store.

def delayedJob : Job :=
  RRQClient.buildJob {} "f" [] {} "j" "rrq:queue:default" ⟨0⟩ ⟨0⟩ 300

abbrev delayedRun (delaySeconds : ℚ) : Outcome × Nat × World :=
  Prog.run (World.exec 0 (.task "w")) (fun _ _ => {})
    (processRetryJob {} delayedJob "again" (some delaySeconds)) 0 (.ofStore .empty)

-- Ten trillion seconds from now there is no time, and the hash says that the job is due.
theorem retry_scheduled_apart :
    (delayedRun 10000000000000).1 = .ok () ∧
      ¬ (delayedRun 10000000000000).2.2.store.ScheduledAlike "rrq:queue:default" "j" := by
  refine ⟨by decide +kernel, ?_⟩
  rintro ⟨score, time, hscore, htime, hnear⟩
  have hfar : ((delayedRun 10000000000000).2.2.store.queues "rrq:queue:default").score? "j" =
      some 10000000000000000 := by decide +kernel
  have hnow : ((delayedRun 10000000000000).2.2.store.hash "j").bind (fun h =>
      h.nextScheduledRunTime.bind Text.read) = some ⟨0⟩ := by decide +kernel
  rw [hfar] at hscore
  rw [← Option.bind_assoc, htime] at hnow
  obtain rfl := Option.some.inj hscore
  obtain rfl : time = ⟨0⟩ := Option.some.inj hnow
  unfold DateTime.Near at hnear
  norm_num at hnear

theorem retry_scheduled_alike_minute :
    (delayedRun 60).2.2.store.ScheduledAlike "rrq:queue:default" "j" := by
  have ho : Sound (fun _ _ => {}) := by
    refine ⟨fun _ _ => rfl, fun _ => ?_⟩
    unfold DateTime.Inside DateTime.MIN_SECONDS DateTime.MAX_SECONDS
    decide
  have halike := (retry_scheduled_alike {} delayedJob "again" (some 60) 0 (.task "w") 0
    (.ofStore .empty) ho rfl (by decide)).1
  exact (halike (by decide +kernel)).mpr (by decide +kernel)

end Rrq
