import Rrq.Concurrent.Safe
import Rrq.Worker.Cron

-- For one scheduled time the loop calls the client at most once.

namespace Rrq.CronLoop

open Prog

variable {parse : String → Option Schedule} {settings : RRQSettings} {worker : WorkerId}

-- The jobs that are due at a time, in order.
def dueJobs (parse : String → Option Schedule) (now : DateTime) : Nat → List CronJob →
    List DueCronJob
  | _, [] => []
  | index, job :: jobs =>
      if job.Fires parse now then
        (job.due parse now).2.dueAt index :: dueJobs parse now (index + 1) jobs
      else dueJobs parse now (index + 1) jobs

def looked (parse : String → Option Schedule) (now : DateTime) (jobs : List CronJob) :
    List CronJob := jobs.map fun job => (job.due parse now).2

-- The turns that a loop which begins with these jobs can take.
def Turns (parse : String → Option Schedule) : List CronJob → List CronTurn → Prop
  | _, [] => True
  | jobs, t :: rest =>
      (∃ called, called.Sublist (dueJobs parse t.now 0 jobs) ∧
        t = turn t.now jobs (looked parse t.now jobs) called) ∧
      Turns parse (reschedule parse t.now (dueJobs parse t.now 0 jobs) (looked parse t.now jobs))
        rest

section Program

theorem collectDue_yields (now : DateTime) (index : Nat) (jobs : List CronJob) :
    (collectDue parse worker now index jobs).Yields fun found =>
      found = none ∨ found = some (dueJobs parse now index jobs, looked parse now jobs) := by
  induction jobs generalizing index with
  | nil => exact .inr rfl
  | cons job jobs ih =>
      refine yields_call fun shutdown => ?_
      cases shutdown with
      | true => exact .inl rfl
      | false =>
          refine yields_bind (ih (index + 1)) fun found hfound => ?_
          rcases hfound with rfl | rfl
          · exact .inl rfl
          · exact .inr rfl

theorem enqueueAll_yields (due : List DueCronJob) :
    (enqueueAll settings worker due).Yields fun result => result.2.Sublist due := by
  induction due with
  | nil => exact List.Sublist.slnil
  | cons first rest ih =>
      refine yields_call fun shutdown => ?_
      cases shutdown with
      | true => exact List.nil_sublist _
      | false =>
          refine yields_bind (yields_true _) fun called _ => yields_bind ih fun result hresult => ?_
          cases called with
          | true => exact hresult.cons_cons first
          | false => exact hresult.cons first

theorem cronLoop_yields (fuel : Nat) (jobs : List CronJob) :
    (cronLoop parse settings worker fuel jobs).Yields (Turns parse jobs) := by
  induction fuel generalizing jobs with
  | zero => trivial
  | succ fuel ih =>
      refine yields_call fun shutdown => ?_
      cases shutdown with
      | true => trivial
      | false =>
          refine yields_call fun now => yields_bind (collectDue_yields now 0 jobs) fun found h => ?_
          rcases h with rfl | rfl
          · trivial
          refine yields_bind (enqueueAll_yields _) fun result hsub => ?_
          obtain ⟨left, called⟩ := result
          cases left with
          | true => exact ⟨⟨called, hsub, rfl⟩, trivial⟩
          | false => exact yields_bind (ih _) fun rest hrest => ⟨⟨called, hsub, rfl⟩, hrest⟩

end Program

-- What one turn does to the job at an index.

section OneTurn

variable {now : DateTime} {jobs : List CronJob}

theorem mem_dueJobs {start : Nat} {due : DueCronJob} (h : due ∈ dueJobs parse now start jobs) :
    ∃ offset job, due.index = start + offset ∧ jobs[offset]? = some job ∧ job.Fires parse now := by
  induction jobs generalizing start with
  | nil => exact absurd h List.not_mem_nil
  | cons job jobs ih =>
      have hrest : due ∈ dueJobs parse now (start + 1) jobs → ∃ offset found,
          due.index = start + offset ∧ (job :: jobs)[offset]? = some found ∧
            found.Fires parse now := by
        intro hm
        obtain ⟨offset, found, hindex, hjob, hfires⟩ := ih hm
        exact ⟨offset + 1, found, by omega, by simpa using hjob, hfires⟩
      unfold dueJobs at h
      by_cases hf : job.Fires parse now
      · rw [if_pos hf] at h
        rcases List.mem_cons.mp h with rfl | hm
        · exact ⟨0, job, rfl, rfl, hf⟩
        · exact hrest hm
      · rw [if_neg hf] at h
        exact hrest h

-- The indices of the due jobs are increasing.
theorem dueJobs_increasing (start : Nat) :
    ((dueJobs parse now start jobs).map DueCronJob.index).Pairwise (· < ·) := by
  induction jobs generalizing start with
  | nil => exact .nil
  | cons job jobs ih =>
      unfold dueJobs
      by_cases hf : job.Fires parse now
      · rw [if_pos hf, List.map_cons, List.pairwise_cons]
        refine ⟨fun index hindex => ?_, ih (start + 1)⟩
        obtain ⟨due, hdue, rfl⟩ := List.mem_map.mp hindex
        obtain ⟨offset, -, hoffset, -⟩ := mem_dueJobs hdue
        change start < due.index
        omega
      · rw [if_neg hf]
        exact ih (start + 1)

theorem getElem?_reschedule (due : List DueCronJob) (jobs : List CronJob) (index : Nat)
    (hnodup : (due.map DueCronJob.index).Nodup) :
    (reschedule parse now due jobs)[index]? =
      if index ∈ due.map DueCronJob.index then
        jobs[index]?.map fun job => job.rescheduled parse now
      else jobs[index]? := by
  induction due generalizing jobs with
  | nil => simp [reschedule]
  | cons first rest ih =>
      obtain ⟨hnew, hrest⟩ := List.nodup_cons.mp hnodup
      have hstep : reschedule parse now (first :: rest) jobs = reschedule parse now rest
          (jobs.modify first.index fun job => job.rescheduled parse now) := rfl
      rw [hstep, ih _ hrest]
      by_cases hfirst : index = first.index
      · subst hfirst
        simp [hnew]
      · simp [hfirst, Ne.symm hfirst]

variable (parse now) in
theorem mem_index_dueJobs {index : Nat} {job : CronJob} (hjob : jobs[index]? = some job) :
    index ∈ (dueJobs parse now 0 jobs).map DueCronJob.index ↔ job.Fires parse now := by
  have hgeneral : ∀ start offset (jobs : List CronJob), jobs[offset]? = some job →
      job.Fires parse now →
        start + offset ∈ (dueJobs parse now start jobs).map DueCronJob.index := by
    intro start offset jobs
    induction jobs generalizing start offset with
    | nil => exact fun h _ => by simp at h
    | cons first rest ih =>
        intro h hf
        unfold dueJobs
        cases offset with
        | zero =>
            obtain rfl : first = job := by simpa using h
            rw [if_pos hf]
            exact List.mem_map.mpr ⟨_, List.mem_cons_self, rfl⟩
        | succ offset =>
            have hmem := ih (start + 1) offset (by simpa using h) hf
            have heq : start + (offset + 1) = start + 1 + offset := by omega
            rw [heq]
            split_ifs
            · exact List.mem_cons_of_mem _ hmem
            · exact hmem
  constructor
  · intro h
    obtain ⟨due, hdue, rfl⟩ := List.mem_map.mp h
    obtain ⟨offset, found, hindex, hfound, hfires⟩ := mem_dueJobs hdue
    have heq : due.index = offset := by omega
    rw [heq, hfound] at hjob
    exact Option.some.inj hjob ▸ hfires
  · intro hf
    simpa using hgeneral 0 index jobs hjob hf

variable (parse now jobs) in
theorem getElem?_passed (index : Nat) :
    (reschedule parse now (dueJobs parse now 0 jobs) (looked parse now jobs))[index]? =
      jobs[index]?.map fun job => job.passed parse now := by
  have hnodup : ((dueJobs parse now 0 jobs).map DueCronJob.index).Nodup :=
    (dueJobs_increasing 0).imp fun h => Nat.ne_of_lt h
  rw [getElem?_reschedule _ _ _ hnodup]
  unfold looked
  cases hjob : jobs[index]? with
  | none => simp [hjob]
  | some job =>
      have hiff := mem_index_dueJobs parse now hjob
      unfold CronJob.passed
      by_cases hf : job.Fires parse now
      · simp only [hiff.mpr hf, if_true, hf, List.getElem?_map, hjob, Option.map_some]
      · have hn : index ∉ (dueJobs parse now 0 jobs).map DueCronJob.index :=
          fun h => hf (hiff.mp h)
        rw [if_neg hn]
        simp only [if_false, hf, List.getElem?_map, hjob, Option.map_some]

-- A call is for the time that its job was waiting for.
theorem mem_calls {after : List CronJob} {called : List DueCronJob} {index : Nat}
    {instant : Option DateTime} (hsub : called.Sublist (dueJobs parse now 0 jobs))
    (hafter : after = looked parse now jobs)
    (h : (index, instant) ∈ (turn now jobs after called).calls) :
    ∃ job, jobs[index]? = some job ∧ job.Fires parse now ∧ instant = job.upcoming parse now := by
  obtain ⟨due, hdue, heq⟩ := List.mem_map.mp h
  obtain ⟨rfl, rfl⟩ := Prod.mk.injEq .. ▸ heq
  obtain ⟨offset, job, hindex, hjob, hfires⟩ := mem_dueJobs (hsub.subset hdue)
  have hoffset : due.index = offset := by omega
  refine ⟨job, hoffset ▸ hjob, hfires, ?_⟩
  rw [hafter, hoffset]
  simp [looked, hjob, CronJob.upcoming]

theorem nodup_calls {after : List CronJob} {called : List DueCronJob}
    (hsub : called.Sublist (dueJobs parse now 0 jobs)) :
    (turn now jobs after called).calls.Nodup := by
  have hindices : (called.map DueCronJob.index).Pairwise (· < ·) :=
    (dueJobs_increasing 0).sublist (hsub.map _)
  refine List.Pairwise.map _ ?_ (List.pairwise_map.mp hindices)
  intro first second hlt heq
  exact Nat.ne_of_lt hlt (congrArg Prod.fst heq)

end OneTurn

-- Every turn finds its jobs punctual.
def Punctual (parse : String → Option Schedule) (turns : List CronTurn) : Prop :=
  ∀ t ∈ turns, ∀ job ∈ t.jobs, job.Punctual parse t.now

-- Once a job waits for a time, no later call is for an earlier one.
theorem turns_later {jobs : List CronJob} {turns : List CronTurn} (hturns : Turns parse jobs turns)
    (hp : Punctual parse turns) {index : Nat} {job : CronJob} {next : DateTime}
    (hjob : jobs[index]? = some job) (hnext : job.nextRunTime = some next)
    {instant : Option DateTime} (h : (index, instant) ∈ turns.flatMap CronTurn.calls) :
    ∃ found, instant = some found ∧ next.nanos ≤ found.nanos := by
  induction turns generalizing jobs job next with
  | nil => exact absurd h List.not_mem_nil
  | cons t rest ih =>
      obtain ⟨⟨called, hsub, ht⟩, hrest⟩ := hturns
      have htjobs : t.jobs = jobs := by rw [ht]; rfl
      have hpt : job.Punctual parse t.now :=
        hp t List.mem_cons_self job (htjobs ▸ List.mem_of_getElem? hjob)
      rw [List.flatMap_cons, List.mem_append] at h
      rcases h with hnow | hlater
      · rw [ht] at hnow
        obtain ⟨found, hfound, hfires, rfl⟩ := mem_calls hsub rfl hnow
        obtain rfl := Option.some.inj (hfound.symm.trans hjob)
        refine ⟨next, ?_, le_rfl⟩
        unfold CronJob.upcoming
        rw [CronJob.due_of_some hnext, hnext]
      · obtain ⟨after, hafter, hle⟩ := CronJob.passed_later hpt hnext
        have hpassed := getElem?_passed parse t.now jobs index
        rw [hjob] at hpassed
        obtain ⟨found, hfound, hle'⟩ := ih hrest
          (fun t' ht' => hp t' (List.mem_cons_of_mem _ ht')) hpassed hafter hlater
        exact ⟨found, hfound, hle.trans hle'⟩

theorem turns_nodup {jobs : List CronJob} {turns : List CronTurn} (hturns : Turns parse jobs turns)
    (hp : Punctual parse turns) : (turns.flatMap CronTurn.calls).Nodup := by
  induction turns generalizing jobs with
  | nil => exact .nil
  | cons t rest ih =>
      obtain ⟨⟨called, hsub, ht⟩, hrest⟩ := hturns
      have htjobs : t.jobs = jobs := by rw [ht]; rfl
      have hprest : Punctual parse rest := fun t' ht' => hp t' (List.mem_cons_of_mem _ ht')
      rw [List.flatMap_cons, List.nodup_append]
      refine ⟨ht ▸ nodup_calls hsub, ih hrest hprest, ?_⟩
      rintro ⟨index, instant⟩ hnow other hlater rfl
      rw [ht] at hnow
      obtain ⟨job, hjob, hfires, rfl⟩ := mem_calls hsub rfl hnow
      have hpt : job.Punctual parse t.now :=
        hp t List.mem_cons_self job (htjobs ▸ List.mem_of_getElem? hjob)
      obtain ⟨found, hfound, -⟩ := hfires.instant
      obtain ⟨next, hnext, hlt⟩ := hfires.later hpt hfound
      have hpassed := getElem?_passed parse t.now jobs index
      rw [hjob] at hpassed
      obtain ⟨again, hagain, hle⟩ := turns_later hrest hprest hpassed hnext hlater
      obtain rfl := Option.some.inj (hfound.symm.trans hagain)
      omega

-- In a run whose turns are all punctual, no scheduled time of a job is called for twice.
theorem cronLoop_once {pid : Pid} {role : Role} {fuel : Nat} {jobs : List CronJob}
    {w last : World} {turns : List CronTurn}
    (hr : Discipline.RunsAmong (World.exec pid role) (fun _ _ _ => True) (fun _ _ => True)
      (cronLoop parse settings worker fuel jobs) w turns last)
    (hp : Punctual parse turns) : (turns.flatMap CronTurn.calls).Nodup :=
  turns_nodup (Discipline.yields_runs hr (cronLoop_yields fuel jobs)) hp

-- A job for one second of every minute, looked at by a lone loop whose clock goes by the number of
-- operations before.

def minuteJob : CronJob where
  functionName := "f"
  schedule := "every minute"

def minuteOracle (clock : Nat → Int) : Nat → Op → Chance := fun n _ =>
  { now := ⟨clock n * 1000000000⟩, text := toString n }

def minuteRun (mark : Fin 60) (clock : Nat → Int) (fuel : Nat) : List CronTurn × Nat × World :=
  Prog.run (World.exec 0 (.main "w0")) (minuteOracle clock)
    (cronLoop (fun _ => some (.atSecond mark)) {} "w0" fuel [minuteJob]) 0 (.ofStore .empty)

theorem runsAmong_minuteRun (mark : Fin 60) (clock : Nat → Int) (fuel : Nat) :
    Discipline.RunsAmong (World.exec 0 (.main "w0")) (fun _ _ _ => True) (fun _ _ => True)
      (cronLoop (fun _ => some (.atSecond mark)) {} "w0" fuel [minuteJob]) (.ofStore .empty)
      (minuteRun mark clock fuel).1 (minuteRun mark clock fuel).2.2 :=
  Discipline.runsAmong_run (fun _ => trivial) (fun _ _ _ => trivial) _ _ _

-- One second past three minutes in turn: the first turn finds the job not yet due, and the other two
-- call for it on the minute.
def onTheMinute (n : Nat) : Int := if n < 3 then 61 else if n < 9 then 121 else 181

theorem cronLoop_once_minute :
    ((minuteRun 0 onTheMinute 3).1.flatMap CronTurn.calls).map
      (fun call => (call.1, call.2.map DateTime.nanos)) =
        [(0, some 120000000000), (0, some 180000000000)] ∧
    ((minuteRun 0 onTheMinute 3).1.flatMap CronTurn.calls).Nodup :=
  ⟨by decide +kernel,
    cronLoop_once (runsAmong_minuteRun 0 onTheMinute 3) (by unfold Punctual; decide +kernel)⟩

-- Thirty seconds past it both turns enqueue a job for the same time.
def halfAMinute (n : Nat) : Int := if n < 8 then 40 else 70

theorem cronLoop_repeats : ∃ turns last,
    Discipline.RunsAmong (World.exec 0 (.main "w0")) (fun _ _ _ => True) (fun _ _ => True)
      (cronLoop (fun _ => some (.atSecond 30)) {} "w0" 2 [minuteJob]) (.ofStore .empty)
      turns last ∧
    (turns.map fun t => t.now.nanos).Pairwise (· < ·) ∧
    ¬ (turns.flatMap CronTurn.calls).Nodup ∧
    "4" ∈ last.store.queues "rrq:queue:default" ∧ "11" ∈ last.store.queues "rrq:queue:default" :=
  ⟨_, _, runsAmong_minuteRun 30 halfAMinute 2, by decide +kernel⟩

end Rrq.CronLoop
