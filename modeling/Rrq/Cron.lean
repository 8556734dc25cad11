import Mathlib.Order.Bounds.Basic
import Rrq.Job

-- The periodic jobs of the settings.

namespace Rrq

-- What the cron crate makes of an expression: the instants it stands for, and the first of them
-- after a given time.
structure Schedule where
  instants : Set Int
  next : DateTime → Option DateTime
  next_least : ∀ time found, next time = some found →
    IsLeast { instant | instant ∈ instants ∧ time.nanos < instant } found.nanos

-- The schedule that stands for one second of every minute.
def Schedule.atSecond (second : Fin 60) : Schedule where
  instants := { instant | instant % 60000000000 = second * 1000000000 }
  next time :=
    some ⟨time.nanos + (60000000000 - (time.nanos - second * 1000000000) % 60000000000)⟩
  next_least := by
    rintro time _ ⟨⟩
    refine ⟨⟨?_, ?_⟩, fun instant ⟨hi, hlt⟩ => ?_⟩
    · change (_ + _) % _ = _
      omega
    · change time.nanos < _ + _
      omega
    · change _ + _ ≤ instant
      change instant % _ = _ at hi
      omega

structure CronJob where
  functionName : String
  schedule : String
  params : Params := []
  queueName : Option String := none
  unique : Bool := false
  nextRunTime : Option DateTime := none

inductive CronError where
  | invalidSchedule
  | noNextRunTime
deriving DecidableEq

def DateTime.NANOS_PER_MINUTE : Int := 60 * 1000000000

-- The time with its seconds and their fraction set to zero.
def DateTime.startOfMinute (time : DateTime) : DateTime :=
  ⟨time.nanos - time.nanos % NANOS_PER_MINUTE⟩

namespace CronJob

variable (parse : String → Option Schedule) (job : CronJob) (now : DateTime)

def scheduleNext : Except CronError CronJob :=
  match parse job.schedule with
  | none => .error .invalidSchedule
  | some schedule =>
      match schedule.next now.startOfMinute with
      | none => .error .noNextRunTime
      | some next => .ok { job with nextRunTime := some next }

-- Whether the job is to run, and the job with a time if it had none.
def due : Except CronError Bool × CronJob :=
  match job.nextRunTime with
  | some next => (.ok (decide (next.nanos ≤ now.nanos)), job)
  | none =>
      match job.scheduleNext parse now with
      | .error error => (.error error, job)
      | .ok job => (.ok (decide ((job.nextRunTime.getD now).nanos ≤ now.nanos)), job)

-- A job that cannot be scheduled anew keeps its time.
def rescheduled : CronJob := ((job.scheduleNext parse now).toOption).getD job

-- The time that the job is waiting for when it is looked at.
def upcoming : Option DateTime := (job.due parse now).2.nextRunTime

def Fires : Prop := (job.due parse now).1 = .ok true

instance : Decidable (job.Fires parse now) :=
  match h : (job.due parse now).1 with
  | .ok true => isTrue h
  | .ok false => isFalse (by simp [Fires, h])
  | .error _ => isFalse (by simp [Fires, h])

-- The job once a turn of the loop has passed.
def passed : CronJob :=
  if job.Fires parse now then (job.due parse now).2.rescheduled parse now
  else (job.due parse now).2

-- A job that is due has been since the current minute began, and will be due again.
def Punctual : Prop :=
  ∀ instant ∈ job.upcoming parse now, instant.nanos ≤ now.nanos →
    instant.nanos ≤ now.startOfMinute.nanos ∧
      ((parse job.schedule).bind fun schedule => schedule.next now.startOfMinute).isSome

instance : Decidable (job.Punctual parse now) := inferInstanceAs (Decidable (∀ _ ∈ _, _))

variable {parse job now}

theorem scheduleNext_ok {after : CronJob} (h : job.scheduleNext parse now = .ok after) :
    ∃ schedule next, parse job.schedule = some schedule ∧
      schedule.next now.startOfMinute = some next ∧
      after = { job with nextRunTime := some next } := by
  unfold scheduleNext at h
  split at h
  · cases h
  · rename_i schedule hparse
    split at h
    · cases h
    · rename_i next hnext
      exact ⟨schedule, next, hparse, hnext, (Except.ok.inj h).symm⟩

@[simp] theorem schedule_due : (job.due parse now).2.schedule = job.schedule := by
  unfold due
  split
  · rfl
  · split
    · rfl
    · rename_i after hafter
      obtain ⟨-, -, -, -, rfl⟩ := scheduleNext_ok hafter
      rfl

theorem due_of_some {next : DateTime} (h : job.nextRunTime = some next) :
    job.due parse now = (.ok (decide (next.nanos ≤ now.nanos)), job) := by
  unfold due
  rw [h]

-- A job that fires has a time that has come.
theorem Fires.instant (h : job.Fires parse now) :
    ∃ instant, job.upcoming parse now = some instant ∧ instant.nanos ≤ now.nanos := by
  unfold Fires due at h
  unfold upcoming due
  split at h
  · rename_i next hnext
    exact ⟨next, hnext, by simpa using h⟩
  · rename_i hnone
    split at h
    · cases h
    · rename_i after hafter
      obtain ⟨schedule, next, -, -, rfl⟩ := scheduleNext_ok hafter
      exact ⟨next, rfl, by simpa using h⟩

-- After a punctual firing the job waits for a later time.
theorem Fires.later (h : job.Fires parse now) (hp : job.Punctual parse now) {instant : DateTime}
    (hi : job.upcoming parse now = some instant) :
    ∃ next, (job.passed parse now).nextRunTime = some next ∧ instant.nanos < next.nanos := by
  obtain ⟨found, hfound, hcome⟩ := h.instant
  obtain rfl := Option.some.inj (hfound.symm.trans hi)
  obtain ⟨hstart, hsome⟩ := hp found hi hcome
  obtain ⟨next, hsome⟩ := Option.isSome_iff_exists.mp hsome
  obtain ⟨schedule, hparse, hnext⟩ := Option.bind_eq_some_iff.mp hsome
  have hleast := schedule.next_least _ _ hnext
  have hafter : now.startOfMinute.nanos < next.nanos := hleast.1.2
  refine ⟨next, ?_, by omega⟩
  have hok : (job.due parse now).2.scheduleNext parse now =
      .ok { (job.due parse now).2 with nextRunTime := some next } := by
    unfold scheduleNext
    simp [hparse, hnext]
  unfold passed rescheduled
  rw [if_pos h, hok]
  rfl

-- A job never waits for an earlier time than before.
theorem passed_later (hp : job.Punctual parse now) {before : DateTime}
    (hb : job.nextRunTime = some before) :
    ∃ next, (job.passed parse now).nextRunTime = some next ∧ before.nanos ≤ next.nanos := by
  have hupcoming : job.upcoming parse now = some before := by
    unfold upcoming
    rw [due_of_some hb, hb]
  by_cases h : job.Fires parse now
  · obtain ⟨next, hnext, hlater⟩ := h.later hp hupcoming
    exact ⟨next, hnext, hlater.le⟩
  · refine ⟨before, ?_, le_rfl⟩
    unfold passed
    rw [if_neg h]
    exact hupcoming

end CronJob

end Rrq
