import Rrq.Worker.Execute.Theorems

-- The entries that a worker keeps in memory for a job while it executes it.

namespace Rrq

namespace Store

open Script

-- The calls of the DLQ script, all of them.
def moveCalls (uniqueLockKey : Option String) : Nat := if uniqueLockKey.isSome then 7 else 6

theorem moveToDlq_answer (id : JobId) (dlqKey message : String) (time : DateTime)
    (uniqueLockKey : Option String) (budget : Budget) (s : Store) :
    ((Scripts.moveToDlq id dlqKey message time DEFAULT_DLQ_RESULT_TTL_SECONDS
      uniqueLockKey).run budget s).1 =
        some (((s.nextRetries id).filter fun _ => Reaches budget (moveCalls uniqueLockKey)).getD
          (-1)) := by
  rw [show (Scripts.moveToDlq id dlqKey message time DEFAULT_DLQ_RESULT_TTL_SECONDS
    uniqueLockKey).run budget s = _ from run_pcall_bind _ _ budget s]
  refine congrArg (fun answer : Option Int => some (answer.getD (-1))) ?_
  unfold Scripts.moveToDlqBody Scripts.expireDlq
  rw [if_pos (by decide)]
  cases hcount : s.nextRetries id with
  | none =>
      rw [run_bind_refused (by simp [hincrby, hcount])]
      rfl
  | some count =>
      have hincr : s.hincrby id =
          some (count, s.hset id fun h => { h with currentRetries := some (.int count) }) := by
        simp [hincrby, hcount]
      cases hs : spend budget with
      | none =>
          have hnot : ¬ Reaches budget (moveCalls uniqueLockKey) := by
            cases uniqueLockKey <;> exact not_reaches_succ hs _
          rw [run_bind_spent hs, Option.filter_some]
          simp [hnot]
      | some rest =>
          rw [run_bind_done hs hincr, Option.filter_some]
          cases uniqueLockKey with
          | none =>
              have hcalls : Reaches budget (moveCalls none) ↔ Reaches rest 5 := reaches_succ hs 5
              simp only [hcalls, decide_eq_true_eq]
              refine answers_write (answers_write (answers_write ?_)) rest _
              rw [bind_assoc]
              exact answers_write (answers_write (answers_pure count))
          | some key =>
              have hcalls : Reaches budget (moveCalls (some key)) ↔ Reaches rest 6 :=
                reaches_succ hs 6
              simp only [hcalls, decide_eq_true_eq]
              refine answers_write (answers_write (answers_write ?_)) rest _
              rw [bind_assoc]
              exact answers_write (answers_write (answers_write (answers_pure count)))

-- The script moves the job: its counter can be raised to a number, and no call is cut off.
def Movable (s : Store) (id : JobId) (uniqueLockKey : Option String) (fault : Fault) : Prop :=
  fault.Reaches (moveCalls uniqueLockKey) ∧ ∃ count, s.nextRetries id = some count ∧ 0 ≤ count

theorem nonneg_answer (count : Option Int) (reaches : Bool) :
    0 ≤ (count.filter fun _ => reaches).getD (-1) ↔
      reaches = true ∧ ∃ n, count = some n ∧ 0 ≤ n := by
  cases count with
  | none => simp
  | some n => cases reaches <;> simp [Option.filter]

theorem movable_iff {id : JobId} {dlqKey message : String} {time : DateTime}
    {uniqueLockKey : Option String} {fault : Fault} {page : Nat × List String} {s t : Store}
    {answer : Except RedisError Int}
    (h : (Cmd.atomicMoveJobToDlq id dlqKey message time DEFAULT_DLQ_RESULT_TTL_SECONDS
      uniqueLockKey).exec fault page s = (answer, t)) :
    Movable s id uniqueLockKey fault ↔ ∃ n, answer = .ok n ∧ 0 ≤ n := by
  have hanswer := congrArg Prod.fst h
  have hrun := fun budget => moveToDlq_answer id dlqKey message time uniqueLockKey budget s
  cases fault with
  | refused =>
      subst hanswer
      exact iff_of_false (fun hmove => hmove.1) (by rintro ⟨n, hn, -⟩; cases hn)
  | none =>
      simp only [Cmd.exec, Cmd.script, hrun none, Option.map_some, Option.getD_some] at hanswer
      subst hanswer
      simpa [Movable, Fault.Reaches] using (nonneg_answer (s.nextRetries id) true).symm
  | stops calls =>
      simp only [Cmd.exec, Cmd.script, hrun (some calls), Option.map_some,
        Option.getD_some] at hanswer
      subst hanswer
      have hreach := nonneg_answer (s.nextRetries id)
        (decide (Reaches (some calls) (moveCalls uniqueLockKey)))
      rw [decide_eq_true_iff] at hreach
      simp only [Except.ok.injEq, exists_eq_left']
      exact hreach.symm

end Store

namespace RRQWorker

open Store Prog

-- Nothing in the memory of the worker stands for the job.
structure Untracked (worker : WorkerId) (id : JobId) (w : World) : Prop where
  running : ∀ info, (id, info) ∉ (w.mem worker).running
  aborts : ∀ task, (id, task) ∉ (w.mem worker).aborts

-- The job has its entry among those that run, as its task finds it.
def Underway (worker : WorkerId) (id : JobId) (w : World) : Prop :=
  ∃ info, (id, info) ∈ (w.mem worker).running

theorem Underway.not_untracked {worker : WorkerId} {id : JobId} {w : World}
    (h : Underway worker id w) : ¬ Untracked worker id w := by
  intro hnone
  obtain ⟨info, hmem⟩ := h
  exact hnone.running info hmem

section Alone

variable {self : RRQWorker} {pid : Pid} {role : Role} {oracle : Nat → Op → Chance} {n : Nat}
  {w : World} {job : Job}

-- Whatever the two commands come to, the entries go.
theorem cleanupRunning_untracks {post : Outcome → World → Prop}
    (h : ∀ answer after, Untracked self.workerId job.id after → post answer after) :
    Ends (World.exec pid role) oracle post (cleanupRunning self job.id) n w := by
  refine ends_redis fun removed _ w₁ _ _ _ => ?_
  refine ends_redis fun released _ w₂ _ _ _ => ?_
  refine ends_call (ends_call ?_)
  have hnone : Untracked self.workerId job.id
      ((w₂.setMem self.workerId fun m => { m with running := unassign m.running job.id }).setMem
        self.workerId fun m => { m with aborts := unassign m.aborts job.id }) :=
    ⟨fun info => by simp [World.setMem, unassign], fun task => by simp [World.setMem, unassign]⟩
  cases removed with
  | error error => exact ends_ret (h _ _ hnone)
  | ok _ =>
      cases released with
      | error error => exact ends_ret (h _ _ hnone)
      | ok _ => exact ends_ret (h _ _ hnone)

-- An execution is cleaned up after, however it is recorded, unless recording it panics.
theorem finishJob_untracks {record : Proc Outcome} :
    Ends (World.exec pid role) oracle
      (fun answer after => answer ≠ .error .panicked → Untracked self.workerId job.id after)
      (finishJob self job record) n w := by
  have hrecord : Ends (World.exec pid role) oracle (fun _ _ => True) record n w := trivial
  refine ends_bind hrecord fun answer k w₁ _ => ?_
  match answer with
  | .error .panicked => exact ends_ret fun h => absurd rfl h
  | .error (.redis error) =>
      exact ends_bind (cleanupRunning_untracks fun _ _ hnone => hnone)
        fun _ _ _ hnone => ends_ret fun _ => hnone
  | .error .moveToDlqFailed =>
      exact ends_bind (cleanupRunning_untracks fun _ _ hnone => hnone)
        fun _ _ _ hnone => ends_ret fun _ => hnone
  | .ok () => exact cleanupRunning_untracks fun _ _ hnone _ => hnone

end Alone

-- The runner that a job resolves to.
def runnerFor (self : RRQWorker) (job : Job) (queueName : QueueKey) : String :=
  (splitRunnerName job.functionName).1.getD
    ((resolveRoutedRunner self.settings.runnerRoutes queueName).getD
      self.settings.defaultRunnerName)

-- The job is not handed to a runner: its timeout, its handler or its runner is not valid.
def Fatal (self : RRQWorker) (job : Job) (queueName : QueueKey) : Prop :=
  job.jobTimeoutSeconds.getD self.settings.defaultJobTimeoutSeconds ≤ 0 ∨
    (splitRunnerName job.functionName).2 = "" ∨ runnerFor self job queueName ∉ self.runners

-- When the task returns, the entries are gone exactly under the condition.
def UntracksIf (self : RRQWorker) (job : Job) (condition : Prop) (answer : Outcome)
    (after : World) : Prop :=
  answer ≠ .error .panicked → (Untracked self.workerId job.id after ↔ condition)

section Execution

variable {self : RRQWorker} {pid : Pid} {role : Role} {chances : Nat → Chance}
  {result : RunnerExecutionResult} {faults : FinishFaults} {n : Nat} {w : World} {job : Job}
  {queueName : QueueKey}

theorem moveToDlq_moves {settings : RRQSettings} (message : String) :
    FinishEnds pid role chances result faults
      (fun answer after => after.mem = w.mem ∧
        (answer = .ok () ↔ Movable w.store job.id job.jobUniqueKey faults.record))
      (moveToDlq settings job message) n w := by
  refine ends_utcNow fun now => ends_redis fun answer store w₁ hexec _ hm => ?_
  have hmove := movable_iff hexec
  cases answer with
  | error error =>
      refine ends_ret ⟨hm, iff_of_false nofun fun h => ?_⟩
      obtain ⟨count, hcount, -⟩ := hmove.mp h
      cases hcount
  | ok count =>
      dsimp only
      split
      · rename_i hneg
        refine ends_ret ⟨hm, iff_of_false nofun fun h => ?_⟩
        obtain ⟨_, hcount, hnonneg⟩ := hmove.mp h
        cases hcount
        exact absurd hnonneg (not_le.mpr hneg)
      · rename_i hnonneg
        exact ends_ret ⟨hm, iff_of_true rfl (hmove.mpr ⟨count, rfl, not_lt.mp hnonneg⟩)⟩

-- A failure to record a fatal error keeps the entries.
theorem failFatally_untracks (message : String) (hunder : Underway self.workerId job.id w) :
    FinishEnds pid role chances result faults
      (UntracksIf self job (Movable w.store job.id job.jobUniqueKey faults.record))
      (failFatally self job message) n w := by
  refine ends_bind (moveToDlq_moves message) fun answer k w₁ ⟨hm, hmove⟩ => ?_
  cases answer with
  | error error =>
      refine ends_ret fun _ => iff_of_false ?_ fun h => nomatch hmove.mpr h
      refine Underway.not_untracked ?_
      rw [Underway, hm]
      exact hunder
  | ok _ => exact cleanupRunning_untracks fun _ after hnone _ => iff_of_true hnone (hmove.mp rfl)

theorem Underway.note {update : RunningJobInfo → RunningJobInfo} {chance : Chance}
    (h : Underway self.workerId job.id w) :
    Underway self.workerId job.id
      (World.exec pid role (.noteRunning self.workerId job.id update) chance w).2 := by
  obtain ⟨info, hmem⟩ := h
  refine ⟨update info, ?_⟩
  simp only [World.exec, World.setMem, Function.update_self, List.mem_map]
  exact ⟨(job.id, info), hmem, if_pos rfl⟩

theorem dispatchToRunner_untracks (jobTimeout : Int) (hunder : Underway self.workerId job.id w)
    (hvalid : ¬ job.jobTimeoutSeconds.getD self.settings.defaultJobTimeoutSeconds ≤ 0) :
    FinishEnds pid role chances result faults
      (UntracksIf self job (¬ Fatal self job queueName ∨
        Movable w.store job.id job.jobUniqueKey faults.record))
      (dispatchToRunner self job queueName jobTimeout) n w := by
  have hfatal (h : Fatal self job queueName) :
      (¬ Fatal self job queueName ∨ Movable w.store job.id job.jobUniqueKey faults.record) ↔
        Movable w.store job.id job.jobUniqueKey faults.record :=
    or_iff_right (not_not.mpr h)
  unfold dispatchToRunner
  dsimp only
  by_cases hhandler : (splitRunnerName job.functionName).2 = ""
  · rw [if_pos hhandler, hfatal (.inr (.inl hhandler))]
    exact failFatally_untracks _ hunder
  · rw [if_neg hhandler]
    refine ends_call ?_
    by_cases hrunner : runnerFor self job queueName ∈ self.runners
    · have hgood : ¬ Fatal self job queueName := by
        rintro (h | h | h)
        · exact hvalid h
        · exact hhandler h
        · exact h hrunner
      unfold runnerFor at hrunner
      rw [if_pos hrunner]
      refine ends_call (ends_call (ends_call ?_))
      exact ends_mono finishJob_untracks fun answer after hnone hreturns =>
        iff_of_true (hnone hreturns) (.inl hgood)
    · rw [hfatal (.inr (.inr hrunner))]
      unfold runnerFor at hrunner
      rw [if_neg hrunner]
      exact failFatally_untracks _ hunder.note

theorem executeJob_untracks (hunder : Underway self.workerId job.id w) :
    FinishEnds pid role chances result faults
      (UntracksIf self job (¬ Fatal self job queueName ∨
        Movable w.store job.id job.jobUniqueKey faults.record))
      (executeJob self job queueName) n w := by
  unfold executeJob
  cases checkedAdd job.currentRetries 1 with
  | none => exact ends_ret fun hreturns => absurd rfl hreturns
  | some attempt =>
      dsimp only
      split
      · rename_i hinvalid
        have hfatal : Fatal self job queueName := .inl hinvalid
        rw [or_iff_right (not_not.mpr hfatal)]
        exact failFatally_untracks _ hunder
      · rename_i hvalid
        refine ends_utcNow fun now => ?_
        cases now.addSeconds (job.jobTimeoutSeconds.getD self.settings.defaultJobTimeoutSeconds) with
        | none => exact ends_ret fun hreturns => absurd rfl hreturns
        | some deadline => exact dispatchToRunner_untracks _ hunder hvalid

end Execution

theorem executeJob_untracks_iff (self : RRQWorker) (pid : Pid) (chances : Nat → Chance)
    (result : RunnerExecutionResult) (faults : FinishFaults) (w : World) (job : Job)
    (queueName : QueueKey) (hunder : Underway self.workerId job.id w)
    (hreturns : (Prog.run (World.exec pid (.task self.workerId))
      (finishOracle chances result faults) (executeJob self job queueName) 0 w).1 ≠
        .error .panicked) :
    Untracked self.workerId job.id (Prog.run (World.exec pid (.task self.workerId))
        (finishOracle chances result faults) (executeJob self job queueName) 0 w).2.2 ↔
      ¬ Fatal self job queueName ∨ Movable w.store job.id job.jobUniqueKey faults.record :=
  executeJob_untracks hunder hreturns

-- The world of an interrupted worker, with the entries of the job that it executes.
def underwayWorld : World :=
  lostWorld.setMem "w0" fun m => { m with
    running := [("j", { queueName := "rrq:queue:default" })], aborts := [("j", 1)] }

theorem underway_underwayWorld : Underway "w0" "j" underwayWorld :=
  ⟨{ queueName := "rrq:queue:default" }, List.mem_singleton.mpr rfl⟩

-- A job with a timeout that is not positive.
def timelessJob : Job := { lostJob with jobTimeoutSeconds := some 0 }

theorem executeJob_untracks_iff_timeless :
    Untracked "w0" "j" (Prog.run (World.exec 1 (.task "w0"))
        (finishOracle (fun _ => {}) .TimedOut {})
        (executeJob (.ofDefaults "w0") timelessJob "rrq:queue:default") 0 underwayWorld).2.2 ↔
      ¬ Fatal (.ofDefaults "w0") timelessJob "rrq:queue:default" ∨
        Movable underwayWorld.store "j" none .none :=
  executeJob_untracks_iff (.ofDefaults "w0") 1 (fun _ => {}) .TimedOut {} underwayWorld timelessJob
    "rrq:queue:default" underway_underwayWorld (by decide)

-- The job cannot be moved to the DLQ, and its entries stay.
theorem executeJob_stays_tracked : ¬ ∀ (self : RRQWorker) (pid : Pid) (chances : Nat → Chance)
    (result : RunnerExecutionResult) (faults : FinishFaults) (w : World) (job : Job)
    (queueName : QueueKey), Underway self.workerId job.id w →
    (Prog.run (World.exec pid (.task self.workerId)) (finishOracle chances result faults)
      (executeJob self job queueName) 0 w).1 ≠ .error .panicked →
    Untracked self.workerId job.id (Prog.run (World.exec pid (.task self.workerId))
      (finishOracle chances result faults) (executeJob self job queueName) 0 w).2.2 := by
  intro h
  have hreturns : (Prog.run (World.exec 1 (.task "w0"))
      (finishOracle (fun _ => {}) .TimedOut { record := .refused })
      (executeJob (.ofDefaults "w0") timelessJob "rrq:queue:default") 0 underwayWorld).1 ≠
        .error .panicked := by decide
  have hnone := h (.ofDefaults "w0") 1 (fun _ => {}) .TimedOut { record := .refused } underwayWorld
    timelessJob "rrq:queue:default" underway_underwayWorld hreturns
  have hfatal : Fatal (.ofDefaults "w0") timelessJob "rrq:queue:default" := .inl (by decide)
  have hiff := executeJob_untracks underway_underwayWorld hreturns
  rcases hiff.mp hnone with hgood | hmove
  · exact hgood hfatal
  · exact hmove.1

end RRQWorker

end Rrq
