import Rrq.Worker.Execute.Theorems
import Rrq.Worker.Routing

namespace Rrq

-- Names of functions.

theorem span_hash {before rest : List Char} (h : '#' ∉ before) :
    (before ++ '#' :: rest).span (· ≠ '#') = (before, '#' :: rest) := by
  rw [List.span_eq_takeWhile_dropWhile]
  have hall : ∀ c ∈ before, decide (c ≠ '#') = true := by
    intro c hc
    exact decide_eq_true fun he => h (he ▸ hc)
  rw [List.takeWhile_append_of_pos hall, List.dropWhile_append_of_pos hall]
  simp

-- A name is split at its first mark.
theorem splitRunnerName_marked {runner : List Char} {handler : String} (hrunner : '#' ∉ runner)
    (hhandler : handler ≠ "") :
    splitRunnerName (String.ofList runner ++ "#" ++ handler) =
      (if runner = [] then none else some (String.ofList runner), handler) := by
  have htext : (String.ofList runner ++ "#" ++ handler).toList =
      runner ++ '#' :: handler.toList := by simp
  have hspan : (runner ++ '#' :: handler.toList).span (· ≠ '#') = (runner, '#' :: handler.toList) :=
    span_hash hrunner
  obtain ⟨c, rest, hlist⟩ : ∃ c rest, handler.toList = c :: rest := by
    cases hl : handler.toList with
    | nil => exact absurd (String.toList_eq_nil_iff.mp hl) hhandler
    | cons c rest => exact ⟨c, rest, rfl⟩
  have hback : String.ofList (c :: rest) = handler := by
    rw [← hlist]
    exact String.ofList_toList
  unfold splitRunnerName
  rw [htext, hspan, hlist]
  cases runner with
  | nil => simp [hback]
  | cons r runner => simp [hback]

-- The handler of a name that has more marks is longer than what stands behind the last.
theorem splitRunnerName_remarked {runner handler : String} (hrunner : '#' ∈ runner.toList) :
    (splitRunnerName (runner ++ "#" ++ handler)).2 ≠ handler := by
  obtain ⟨before, behind, hlist, hbefore⟩ := List.eq_append_cons_of_mem hrunner
  have htext : runner ++ "#" ++ handler =
      String.ofList before ++ "#" ++ (String.ofList behind ++ "#" ++ handler) := by
    apply String.toList_inj.mp
    simp [hlist]
  have hne : String.ofList behind ++ "#" ++ handler ≠ "" := by
    intro he
    have := congrArg String.length he
    simp at this
  rw [htext, splitRunnerName_marked hbefore hne]
  intro he
  have := congrArg String.length he
  simp at this

section Routes

variable {settings : RRQSettings}

def RoutesNormal (settings : RRQSettings) : Prop :=
  ∀ route ∈ settings.runnerRoutes, normalizeQueueName route.1 = route.1

theorem normalized_routes (h : RoutesNormal settings) :
    (RRQWorker.normalized settings).runnerRoutes = settings.runnerRoutes := by
  have hmap : settings.runnerRoutes.map (fun route => (normalizeQueueName route.1, route.2)) =
      settings.runnerRoutes.map fun route => route := by
    apply List.map_congr_left
    intro route hroute
    rw [h route hroute]
  exact hmap.trans (List.map_id' _)

-- Where the jobs of a queue go that name no runner.
def runnerOf (settings : RRQSettings) (queue : QueueKey) : String :=
  (resolveRoutedRunner settings.runnerRoutes queue).getD settings.defaultRunnerName

-- The start-up filter looks a queue up as the worker does.
theorem neededRoute_eq {settings : WorkerSettings} {queue : QueueKey}
    (hqueue : normalizeQueueName queue = queue) :
    neededRoute settings queue = resolveRoutedRunner settings.runnerRoutes queue := by
  unfold neededRoute resolveRoutedRunner bareQueueName
  simp only [hqueue, Option.or_self]

theorem normal_of_mem_effectiveQueues {settings : WorkerSettings} {queues : Option (List String)}
    {queue : QueueKey} (h : queue ∈ effectiveQueues settings queues) :
    normalizeQueueName queue = queue := by
  unfold effectiveQueues at h
  split at h
  · rw [List.mem_singleton.mp h]
    exact normalizeQueueName_idem _
  · rw [List.mem_singleton.mp h]
    exact normalizeQueueName_idem _
  · obtain ⟨name, -, rfl⟩ := List.mem_map.mp h
    exact normalizeQueueName_idem name

-- The worker polls the queues that the filter looked at.
theorem mem_ownQueues_iff {settings : WorkerSettings} {queues : Option (List String)}
    (hqueues : queues ≠ some []) {queue : QueueKey} :
    queue ∈ RRQWorker.ownQueues settings.toRRQSettings queues ↔
      queue ∈ effectiveQueues settings queues := by
  rw [RRQWorker.mem_ownQueues]
  cases queues with
  | none => simp [effectiveQueues, RRQWorker.normalized, eq_comm]
  | some names =>
      cases names with
      | nil => exact absurd rfl hqueues
      | cons name names => simp [effectiveQueues, eq_comm]

-- The filter keeps the runners that the queues lead to.
theorem runnerOf_mem_needed {settings : WorkerSettings} {queues : Option (List String)}
    {queue : QueueKey} (hq : queue ∈ effectiveQueues settings queues)
    (hname : runnerOf settings.toRRQSettings queue ≠ "" ∨ settings.defaultRunnerName ≠ "") :
    runnerOf settings.toRRQSettings queue ∈ determineNeededRunners settings queues := by
  have hroute : neededRoute settings queue = resolveRoutedRunner settings.runnerRoutes queue :=
    neededRoute_eq (normal_of_mem_effectiveQueues hq)
  unfold runnerOf at hname ⊢
  unfold determineNeededRunners
  rw [← hroute] at hname ⊢
  apply List.mem_append.mpr
  cases hn : neededRoute settings queue with
  | some found => exact .inl (List.mem_filterMap.mpr ⟨queue, hq, hn⟩)
  | none =>
      rw [hn] at hname
      simp only [Option.getD_none, or_self] at hname
      have hneeds : (effectiveQueues settings queues).any (fun queue =>
          (neededRoute settings queue).isNone) = true :=
        List.any_eq_true.mpr ⟨queue, hq, by rw [hn]; rfl⟩
      right
      simp [hneeds, hname]

theorem leads_of_needed {settings : WorkerSettings} {queues : Option (List String)}
    {runner : String} (h : runner ∈ determineNeededRunners settings queues) :
    ∃ queue ∈ effectiveQueues settings queues,
      runnerOf settings.toRRQSettings queue = runner := by
  have hroute : ∀ queue ∈ effectiveQueues settings queues,
      neededRoute settings queue = resolveRoutedRunner settings.runnerRoutes queue :=
    fun queue hq => neededRoute_eq (normal_of_mem_effectiveQueues hq)
  unfold runnerOf
  rcases List.mem_append.mp h with hrouted | hdefault
  · obtain ⟨queue, hq, hr⟩ := List.mem_filterMap.mp hrouted
    refine ⟨queue, hq, ?_⟩
    rw [← hroute queue hq, hr]
    rfl
  · split at hdefault
    · rename_i hneeds
      obtain rfl := List.mem_singleton.mp hdefault
      obtain ⟨hneeds, -⟩ := Bool.and_eq_true_iff.mp hneeds
      obtain ⟨queue, hq, hnone⟩ := List.any_eq_true.mp hneeds
      refine ⟨queue, hq, ?_⟩
      rw [← hroute queue hq, Option.isNone_iff_eq_none.mp hnone]
      rfl
    · cases hdefault

-- The routing checks pass when every queue leads to a runner that is there.
theorem checkRouting_ok {runners : List String} {queues : List QueueKey} :
    checkRouting settings runners queues = .ok () ↔
      ∀ queue ∈ queues, runnerOf settings queue ∈ runners := by
  unfold checkRouting runnerOf
  dsimp only
  constructor
  · intro h queue hq
    split at h
    · cases h
    · rename_i hdefault
      split at h
      · cases h
      · rename_i hmissing
        cases hr : resolveRoutedRunner settings.runnerRoutes queue with
        | none =>
            by_contra hnot
            apply hdefault
            simp only [Bool.and_eq_true, List.any_eq_true, decide_eq_true_eq]
            exact ⟨⟨queue, hq, by rw [hr]; rfl⟩, hnot⟩
        | some runner =>
            have := List.findSome?_eq_none_iff.mp hmissing queue hq
            simpa [hr] using this
  · intro h
    have hdefault : ¬ ((queues.any fun queue =>
        (resolveRoutedRunner settings.runnerRoutes queue).isNone) &&
          decide (settings.defaultRunnerName ∉ runners)) = true := by
      simp only [Bool.and_eq_true, List.any_eq_true, decide_eq_true_eq]
      rintro ⟨⟨queue, hq, hnone⟩, hnot⟩
      have := h queue hq
      rw [Option.isNone_iff_eq_none.mp hnone] at this
      exact hnot this
    rw [if_neg hdefault]
    have hmissing : queues.findSome? (fun queue =>
        ((resolveRoutedRunner settings.runnerRoutes queue).filter (· ∉ runners)).map
          fun runner => (queue, runner)) = none := by
      apply List.findSome?_eq_none_iff.mpr
      intro queue hq
      have := h queue hq
      cases hr : resolveRoutedRunner settings.runnerRoutes queue with
      | none => rfl
      | some runner =>
          rw [hr] at this
          simpa using this
    rw [hmissing]

theorem findSome_congr {α β : Type} {f g : α → Option β} {xs : List α}
    (h : ∀ x ∈ xs, f x = g x) : xs.findSome? f = xs.findSome? g := by
  induction xs with
  | nil => rfl
  | cons x xs ih =>
      rw [List.findSome?_cons, List.findSome?_cons, h x List.mem_cons_self,
        ih fun y hy => h y (List.mem_cons_of_mem x hy)]

-- What the checks say depends only on whether the runners are there that the queues lead to.
theorem checkRouting_congr {runners others : List String} {queues : List QueueKey}
    (h : ∀ queue ∈ queues, runnerOf settings queue ∈ runners ↔ runnerOf settings queue ∈ others) :
    checkRouting settings runners queues = checkRouting settings others queues := by
  have hdefault : ((queues.any fun queue =>
      (resolveRoutedRunner settings.runnerRoutes queue).isNone) &&
        decide (settings.defaultRunnerName ∉ runners)) = ((queues.any fun queue =>
      (resolveRoutedRunner settings.runnerRoutes queue).isNone) &&
        decide (settings.defaultRunnerName ∉ others)) := by
    by_cases hany : (queues.any fun queue =>
        (resolveRoutedRunner settings.runnerRoutes queue).isNone) = true
    · obtain ⟨queue, hq, hnone⟩ := List.any_eq_true.mp hany
      have hsame := h queue hq
      unfold runnerOf at hsame
      rw [Option.isNone_iff_eq_none.mp hnone] at hsame
      simp only [Option.getD_none] at hsame
      simp [hsame]
    · simp [hany]
  have hmissing : queues.findSome? (fun queue =>
      ((resolveRoutedRunner settings.runnerRoutes queue).filter (· ∉ runners)).map
        fun runner => (queue, runner)) = queues.findSome? (fun queue =>
      ((resolveRoutedRunner settings.runnerRoutes queue).filter (· ∉ others)).map
        fun runner => (queue, runner)) := by
    apply findSome_congr
    intro queue hq
    have hsame := h queue hq
    unfold runnerOf at hsame
    cases hr : resolveRoutedRunner settings.runnerRoutes queue with
    | none => rfl
    | some runner =>
        rw [hr] at hsame
        simp only [Option.getD_some] at hsame
        simp [Option.filter, hsame]
  unfold checkRouting
  dsimp only
  rw [hdefault, hmissing]

theorem runnerOf_normalized (h : RoutesNormal settings) (queue : QueueKey) :
    runnerOf (RRQWorker.normalized settings) queue = runnerOf settings queue := by
  unfold runnerOf
  rw [normalized_routes h]
  rfl

end Routes

-- The runners of a worker.

theorem buildRunner_ok {settings : WorkerSettings} {starts : String → Except String Unit}
    {runner : String × RunnerConfig} {name : String}
    (h : buildRunner settings starts runner = .ok name) : name = runner.1 := by
  unfold buildRunner at h
  split at h
  · cases h
  split at h
  · cases h
  cases hs : starts runner.1 with
  | error error =>
      rw [hs] at h
      cases h
  | ok _ =>
      rw [hs] at h
      cases h
      rfl

theorem mapM_buildRunner {settings : WorkerSettings} {starts : String → Except String Unit}
    {runners : List (String × RunnerConfig)} {names : List String}
    (h : runners.mapM (buildRunner settings starts) = .ok names) :
    names = runners.map Prod.fst := by
  induction runners generalizing names with
  | nil =>
      cases h
      rfl
  | cons runner runners ih =>
      rw [List.mapM_cons] at h
      cases hfirst : buildRunner settings starts runner with
      | error error =>
          rw [hfirst] at h
          cases h
      | ok name =>
          cases hrest : runners.mapM (buildRunner settings starts) with
          | error error =>
              rw [hfirst, hrest] at h
              cases h
          | ok rest =>
              rw [hfirst, hrest] at h
              cases h
              rw [buildRunner_ok hfirst, ih hrest]
              rfl

-- A worker has the configured runners that are needed.
theorem built_runners {settings : WorkerSettings} {needed runners : List String}
    {starts : String → Except String Unit}
    (h : buildRunnersFromSettingsFiltered settings needed starts = .ok runners) :
    runners = settings.runnerNames.filter (· ∈ needed) := by
  rw [mapM_buildRunner h, WorkerSettings.runnerNames, List.filter_map]
  rfl

namespace RRQWorker

theorem new_ok {settings : RRQSettings} {queues : Option (List String)} {workerId : WorkerId}
    {runners : List String} {burst : Bool} {concurrency : Nat} {worker : RRQWorker}
    (h : new settings queues workerId runners burst concurrency = .ok worker) :
    worker.settings = normalized settings ∧ worker.queues = ownQueues settings queues ∧
      worker.runners = runners ∧
      checkRouting (normalized settings) runners (ownQueues settings queues) = .ok () := by
  unfold new at h
  split at h
  · cases h
  split at h
  · cases h
  rename_i hrouting
  split at h
  · cases h
  split at h
  · cases h
  split at h
  · cases h
  · cases h
    exact ⟨rfl, rfl, rfl, hrouting⟩

-- The runner that a job is sent to.
def resolvedRunner (self : RRQWorker) (functionName : String) (queueName : QueueKey) : String :=
  (splitRunnerName functionName).1.getD (runnerOf self.settings queueName)

-- The handler is executed on the runner, and the outcome is recorded.
def runOn (self : RRQWorker) (job : Job) (handlerName runner : String) (jobTimeout : Int) :
    Proc Outcome := do
  perform (.noteRunning self.workerId job.id fun info => { info with runnerName := some runner })
  let requestId ← perform .newId
  perform (.noteRunning self.workerId job.id fun info => { info with requestId := some requestId })
  let result ← perform (.execute self.workerId job.id handlerName runner jobTimeout)
  finishJob self job (handleExecutionResult self.settings job jobTimeout result)

def noRunner (self : RRQWorker) (job : Job) (runner : String) : Proc Outcome := do
  perform (.noteRunning self.workerId job.id fun info => { info with runnerName := some runner })
  failFatally self job ("No runner configured for '" ++ runner ++ "'.")

theorem dispatchToRunner_eq (self : RRQWorker) (job : Job) (queueName : QueueKey)
    (jobTimeout : Int) : dispatchToRunner self job queueName jobTimeout =
      if (splitRunnerName job.functionName).2 = "" then
        failFatally self job "Handler name is missing"
      else if resolvedRunner self job.functionName queueName ∈ self.runners then
        runOn self job (splitRunnerName job.functionName).2
          (resolvedRunner self job.functionName queueName) jobTimeout
      else noRunner self job (resolvedRunner self job.functionName queueName) := by
  unfold dispatchToRunner resolvedRunner runnerOf
  rcases splitRunnerName job.functionName with ⟨runnerName, handlerName⟩
  by_cases hhandler : handlerName = ""
  · simp only [hhandler, if_true]
  · simp only [hhandler, if_false]
    by_cases hrunner : runnerName.getD ((resolveRoutedRunner self.settings.runnerRoutes
        queueName).getD self.settings.defaultRunnerName) ∈ self.runners
    · simp only [hrunner, if_true]
      rfl
    · simp only [hrunner, if_false]
      rfl

-- The job, the handler and the runner that a program comes to before it does anything in the
-- store, when the clock shows this time.
def executedOn (now : DateTime) : Proc Outcome → Option (JobId × String × String)
  | .call .utcNow next => executedOn now (next now)
  | .call (.noteRunning _ _ _) next => executedOn now (next ())
  | .call .newId next => executedOn now (next "")
  | .call (.execute _ id handlerName runner _) _ => some (id, handlerName, runner)
  | _ => none

theorem executedOn_dispatch {now : DateTime} {self : RRQWorker} {job : Job} {queueName : QueueKey}
    {handler runner : String} {jobTimeout : Int} :
    executedOn now (dispatchToRunner self job queueName jobTimeout) =
        some (job.id, handler, runner) ↔
      (splitRunnerName job.functionName).2 = handler ∧ handler ≠ "" ∧
        resolvedRunner self job.functionName queueName = runner ∧ runner ∈ self.runners := by
  have heq : executedOn now (dispatchToRunner self job queueName jobTimeout) =
      if (splitRunnerName job.functionName).2 = "" then none
      else if resolvedRunner self job.functionName queueName ∈ self.runners then
        some (job.id, (splitRunnerName job.functionName).2,
          resolvedRunner self job.functionName queueName)
      else none := by
    rw [dispatchToRunner_eq]
    split
    · rfl
    · split <;> rfl
  rw [heq]
  constructor
  · intro h
    obtain ⟨hempty, h⟩ := Option.ite_none_left_eq_some.mp h
    obtain ⟨hmem, h⟩ := Option.ite_none_right_eq_some.mp h
    obtain ⟨hhandler, hrunner⟩ : _ ∧ _ := by simpa using h
    exact ⟨hhandler, hhandler ▸ hempty, hrunner, hrunner ▸ hmem⟩
  · rintro ⟨rfl, hempty, rfl, hmem⟩
    rw [if_neg hempty, if_pos hmem]

-- What is checked before a job is routed: its retries can be counted, and its timeout is positive
-- and leads to a time that can be told.
structure Checked (worker : RRQWorker) (job : Job) (now : DateTime) : Prop where
  retries : (checkedAdd job.currentRetries 1).isSome
  positive : 0 < job.jobTimeoutSeconds.getD worker.settings.defaultJobTimeoutSeconds
  told : (now.addSeconds
    (job.jobTimeoutSeconds.getD worker.settings.defaultJobTimeoutSeconds)).isSome

theorem executedOn_utcNow (now : DateTime) (next : DateTime → Proc Outcome) :
    executedOn now (perform .utcNow >>= next) = executedOn now (next now) := rfl

theorem executedOn_executeJob (now : DateTime) (self : RRQWorker) (job : Job)
    (queueName : QueueKey) {found : JobId × String × String} :
    executedOn now (executeJob self job queueName) = some found ↔
      Checked self job now ∧ executedOn now (dispatchToRunner self job queueName
        (job.jobTimeoutSeconds.getD self.settings.defaultJobTimeoutSeconds)) = some found := by
  unfold executeJob
  dsimp only
  generalize hjobTimeout :
    job.jobTimeoutSeconds.getD self.settings.defaultJobTimeoutSeconds = jobTimeout
  cases hretries : checkedAdd job.currentRetries 1 with
  | none =>
      refine iff_of_false (fun h => by cases h) ?_
      rintro ⟨hchecked, -⟩
      have := hchecked.retries
      rw [hretries] at this
      cases this
  | some attempt =>
      dsimp only
      split_ifs with hpositive
      · refine iff_of_false (fun h => by cases h) ?_
        rintro ⟨hchecked, -⟩
        exact absurd (hjobTimeout ▸ hchecked.positive) (Int.not_lt.mpr hpositive)
      rw [executedOn_utcNow]
      cases htold : now.addSeconds jobTimeout with
      | none =>
          refine iff_of_false (fun h => by cases h) ?_
          rintro ⟨hchecked, -⟩
          have := hchecked.told
          rw [hjobTimeout, htold] at this
          cases this
      | some deadline =>
          refine (and_iff_right ?_).symm
          exact ⟨by rw [hretries]; rfl, by rw [hjobTimeout]; omega, by rw [hjobTimeout, htold]; rfl⟩

-- A job is executed by a handler on a runner when its name and its queue lead there and the
-- worker has the runner.
theorem dispatchToRunner_eq_runOn_iff {self : RRQWorker} {job : Job} {queueName : QueueKey}
    {handler runner : String} {jobTimeout : Int} :
    dispatchToRunner self job queueName jobTimeout = runOn self job handler runner jobTimeout ↔
      (splitRunnerName job.functionName).2 = handler ∧ handler ≠ "" ∧
        resolvedRunner self job.functionName queueName = runner ∧ runner ∈ self.runners := by
  constructor
  · intro h
    have hrun : executedOn ⟨0⟩ (dispatchToRunner self job queueName jobTimeout) =
        some (job.id, handler, runner) := by rw [h]; rfl
    exact executedOn_dispatch.mp hrun
  · rintro ⟨rfl, hempty, rfl, hmem⟩
    rw [dispatchToRunner_eq, if_neg hempty, if_pos hmem]

-- Filtering the runners changes nothing in what the routing checks say, and with a default
-- runner a job that names no runner finds one, or names no handler either.
theorem filtering_strands_none {settings : WorkerSettings}
    (hroutes : RoutesNormal settings.toRRQSettings) (hdefault : settings.defaultRunnerName ≠ "")
    {queues : Option (List String)} (hqueues : queues ≠ some []) :
    let filtered := settings.runnerNames.filter (· ∈ determineNeededRunners settings queues)
    let queueNames := ownQueues settings.toRRQSettings queues
    checkRouting (normalized settings.toRRQSettings) filtered queueNames =
        checkRouting (normalized settings.toRRQSettings) settings.runnerNames queueNames ∧
      ∀ {workerId : WorkerId} {burst : Bool} {concurrency : Nat} {worker : RRQWorker},
        new settings.toRRQSettings queues workerId filtered burst concurrency = .ok worker →
          ∀ queueName ∈ worker.queues, ∀ job : Job,
            (splitRunnerName job.functionName).1 = none → ∀ jobTimeout,
              dispatchToRunner worker job queueName jobTimeout =
                  failFatally worker job "Handler name is missing" ∨
                ∃ handler, ∃ runner ∈ worker.runners,
                  dispatchToRunner worker job queueName jobTimeout =
                    runOn worker job handler runner jobTimeout := by
  intro filtered queueNames
  constructor
  · apply checkRouting_congr
    intro queue hq
    rw [runnerOf_normalized hroutes, List.mem_filter, decide_eq_true_eq]
    apply and_iff_left
    exact runnerOf_mem_needed ((mem_ownQueues_iff hqueues).mp hq) (.inr hdefault)
  · intro workerId burst concurrency worker hnew queueName hq job hname jobTimeout
    obtain ⟨hsettings, hown, hrunners, hrouting⟩ := new_ok hnew
    have hmem : runnerOf worker.settings queueName ∈ worker.runners := by
      rw [hsettings, hrunners]
      exact checkRouting_ok.mp hrouting queueName (hown ▸ hq)
    by_cases hempty : (splitRunnerName job.functionName).2 = ""
    · left
      rw [dispatchToRunner_eq, if_pos hempty]
    · right
      refine ⟨_, _, hmem, dispatchToRunner_eq_runOn_iff.mpr ⟨rfl, hempty, ?_, hmem⟩⟩
      rw [resolvedRunner, hname]
      rfl

theorem routesNormal_of_load {given settings : WorkerSettings} {numCpus : Nat}
    (h : loadTomlSettings given numCpus = some settings) :
    RoutesNormal settings.toRRQSettings := by
  unfold loadTomlSettings at h
  obtain ⟨-, h⟩ := Option.ite_none_right_eq_some.mp h
  obtain rfl := Option.some.inj h
  intro route hroute
  obtain ⟨raw, -, rfl⟩ := List.mem_map.mp hroute
  exact normalizeQueueName_idem raw.1

-- A worker that has started.
theorem runWorker_ok {settings : WorkerSettings} {queues : List String} {burst watchMode : Bool}
    {numCpus : Nat} {starts : String → Except String Unit} {workerId : WorkerId}
    {worker : RRQWorker}
    (h : runWorker settings queues burst watchMode numCpus starts workerId = .ok worker) :
    ∃ selection, selection = (if queues = [] then none else some queues) ∧
      worker.settings = normalized settings.toRRQSettings ∧
      worker.queues = ownQueues settings.toRRQSettings selection ∧
      worker.runners =
        settings.runnerNames.filter (· ∈ determineNeededRunners settings selection) ∧
      ∀ queue ∈ worker.queues, runnerOf worker.settings queue ∈ worker.runners := by
  unfold runWorker at h
  dsimp only at h
  split at h
  · cases h
  · rename_i runners hbuilt
    obtain ⟨hsettings, hown, hrunners, hrouting⟩ := new_ok h
    refine ⟨_, rfl, hsettings, hown, hrunners.trans (built_runners hbuilt), ?_⟩
    rw [hsettings, hown, hrunners]
    exact checkRouting_ok.mp hrouting

-- The prefix selects the runner: it has no mark in its name, and some queue of the worker leads to
-- it. Without a name before the mark it is the job's own queue that counts.
def Selects (settings : WorkerSettings) (queues : List String) (runner : String)
    (queueName : QueueKey) : Prop :=
  '#' ∉ runner.toList ∧
    if runner = "" then runnerOf settings.toRRQSettings queueName = ""
    else ∃ queue ∈ effectiveQueues settings (if queues = [] then none else some queues),
      runnerOf settings.toRRQSettings queue = runner

section Selection

variable {given settings : WorkerSettings} {numCpus : Nat} {queues : List String}
  {burst watchMode : Bool} {starts : String → Except String Unit} {workerId : WorkerId}
  {worker : RRQWorker} {runner handler : String} {job : Job} {queueName : QueueKey}

theorem selects_iff (hload : loadTomlSettings given numCpus = some settings)
    (hstart : runWorker settings queues burst watchMode numCpus starts workerId = .ok worker)
    (hrunner : runner ∈ settings.runnerNames) (hhandler : handler ≠ "")
    (hname : job.functionName = runner ++ "#" ++ handler) (hqueue : queueName ∈ worker.queues) :
    ((splitRunnerName job.functionName).2 = handler ∧ handler ≠ "" ∧
        resolvedRunner worker job.functionName queueName = runner ∧ runner ∈ worker.runners) ↔
      Selects settings queues runner queueName := by
  obtain ⟨selection, hselection, hsettings, -, hrunners, hleads⟩ := runWorker_ok hstart
  rw [Selects, ← hselection, hname]
  have hown : runnerOf worker.settings queueName = runnerOf settings.toRRQSettings queueName := by
    rw [hsettings]
    exact runnerOf_normalized (routesNormal_of_load hload) queueName
  by_cases hmark : '#' ∈ runner.toList
  · -- The name is split at a mark before the last.
    have hne : (splitRunnerName (runner ++ "#" ++ handler)).2 ≠ handler :=
      splitRunnerName_remarked hmark
    constructor
    · rintro ⟨hsame, -⟩
      exact absurd hsame hne
    · rintro ⟨hplain, -⟩
      exact absurd hmark hplain
  have hsplit : splitRunnerName (runner ++ "#" ++ handler) =
      (if runner.toList = [] then none else some runner, handler) := by
    have := splitRunnerName_marked hmark hhandler
    rwa [String.ofList_toList] at this
  by_cases hempty : runner = ""
  · subst hempty
    have hresolved : resolvedRunner worker ("" ++ "#" ++ handler) queueName =
        runnerOf settings.toRRQSettings queueName := by
      rw [resolvedRunner, hsplit]
      exact hown
    rw [if_pos rfl, hresolved, hsplit]
    constructor
    · rintro ⟨-, -, hrunner, -⟩
      exact ⟨hmark, hrunner⟩
    · rintro ⟨-, hrunner⟩
      refine ⟨rfl, hhandler, hrunner, ?_⟩
      rw [← hrunner, ← hown]
      exact hleads queueName hqueue
  · have hlist : runner.toList ≠ [] := fun h => hempty (String.toList_eq_nil_iff.mp h)
    have hresolved : resolvedRunner worker (runner ++ "#" ++ handler) queueName = runner := by
      rw [resolvedRunner, hsplit, if_neg hlist]
      rfl
    rw [if_neg hempty, hresolved, hsplit, hrunners, List.mem_filter, decide_eq_true_eq]
    constructor
    · rintro ⟨-, -, -, -, hneeded⟩
      exact ⟨hmark, leads_of_needed hneeded⟩
    · rintro ⟨-, queue, hq, hleads⟩
      refine ⟨rfl, hhandler, rfl, hrunner, ?_⟩
      rw [← hleads]
      exact runnerOf_mem_needed hq (.inl (hleads.symm ▸ hempty))

-- A runner that is named executes the job exactly when the prefix selects it, once the job has
-- passed what is checked before.
theorem prefix_selects_iff (hload : loadTomlSettings given numCpus = some settings)
    (hstart : runWorker settings queues burst watchMode numCpus starts workerId = .ok worker)
    (hrunner : runner ∈ settings.runnerNames) (hhandler : handler ≠ "")
    (hname : job.functionName = runner ++ "#" ++ handler) (hqueue : queueName ∈ worker.queues) :
    (∀ now, executedOn now (executeJob worker job queueName) = some (job.id, handler, runner) ↔
      Checked worker job now ∧ Selects settings queues runner queueName) ∧
    ∀ jobTimeout, dispatchToRunner worker job queueName jobTimeout =
        runOn worker job handler runner jobTimeout ↔
      Selects settings queues runner queueName := by
  have hselects := selects_iff hload hstart hrunner hhandler hname hqueue
  constructor
  · intro now
    rw [executedOn_executeJob, executedOn_dispatch, hselects]
  · intro jobTimeout
    rw [dispatchToRunner_eq_runOn_iff, hselects]

end Selection

-- Two runners, of which one has a queue routed to it.
def twoRunners : WorkerSettings where
  runnerRoutes := [("bulk", "rust")]
  runners := [("python", { cmd := some ["rrq-runner"], tcpPort := some 9000 }),
    ("rust", { cmd := some ["runner"], tcpPort := some 9100 })]

theorem exists_ok {α : Type} {result : Except String α} (h : result.toBool = true) :
    ∃ value, result = .ok value := by
  cases result with
  | ok value => exact ⟨value, rfl⟩
  | error error => cases h

theorem filtering_strands_none_bulk : ∃ worker,
    new (normalizeQueueFields twoRunners).toRRQSettings (some ["bulk"]) "w" ["rust"] false 1 =
        .ok worker ∧
      ∀ job : Job, job.functionName = "f" →
        dispatchToRunner worker job "rrq:queue:bulk" 1 =
            failFatally worker job "Handler name is missing" ∨
          ∃ handler, ∃ runner ∈ worker.runners,
            dispatchToRunner worker job "rrq:queue:bulk" 1 = runOn worker job handler runner 1 := by
  obtain ⟨worker, hworker⟩ : ∃ worker, new (normalizeQueueFields twoRunners).toRRQSettings
      (some ["bulk"]) "w" ["rust"] false 1 = .ok worker := exists_ok (by decide +kernel)
  have hroutes : RoutesNormal (normalizeQueueFields twoRunners).toRRQSettings := by
    unfold RoutesNormal
    decide
  have hqueues : (some ["bulk"] : Option (List String)) ≠ some [] := by decide
  have hqueue : "rrq:queue:bulk" ∈ worker.queues := by
    rw [(new_ok hworker).2.1]
    decide +kernel
  refine ⟨worker, hworker, fun job hname => ?_⟩
  apply (filtering_strands_none hroutes (by decide) hqueues).2 hworker _ hqueue
  rw [hname]
  decide

theorem load_twoRunners :
    loadTomlSettings twoRunners 4 = some (normalizeQueueFields twoRunners) := by
  unfold loadTomlSettings
  exact if_pos (by decide)

theorem checked_of_second {worker : RRQWorker} {job : Job} (hretries : job.currentRetries = 0)
    (htimeout : job.jobTimeoutSeconds = some 1) : Checked worker job ⟨0⟩ := by
  refine ⟨?_, ?_, ?_⟩
  · rw [hretries]
    decide
  · rw [htimeout, Option.getD_some]
    decide
  · rw [htimeout, Option.getD_some]
    decide

-- The queue that is routed to the runner is among those of the worker, and a job of another queue
-- with one second to run names the runner.
theorem prefix_selects_iff_bulk : ∃ worker,
    runWorker (normalizeQueueFields twoRunners) ["default", "bulk"] false false 4
        (fun _ => .ok ()) "w" = .ok worker ∧
      ∀ job : Job, job.functionName = "rust" ++ "#" ++ "f" → job.currentRetries = 0 →
        job.jobTimeoutSeconds = some 1 →
          executedOn ⟨0⟩ (executeJob worker job "rrq:queue:default") = some (job.id, "f", "rust") ∧
            dispatchToRunner worker job "rrq:queue:default" 1 = runOn worker job "f" "rust" 1 := by
  obtain ⟨worker, hworker⟩ : ∃ worker, runWorker (normalizeQueueFields twoRunners)
      ["default", "bulk"] false false 4 (fun _ => .ok ()) "w" = .ok worker :=
    exists_ok (by decide +kernel)
  have hqueue : "rrq:queue:default" ∈ worker.queues := by
    obtain ⟨_, rfl, -, hown, -⟩ := runWorker_ok hworker
    rw [hown]
    decide +kernel
  refine ⟨worker, hworker, fun job hname hretries htimeout => ?_⟩
  have hselects : Selects (normalizeQueueFields twoRunners) ["default", "bulk"] "rust"
      "rrq:queue:default" := ⟨by decide, "rrq:queue:bulk", by decide, by decide⟩
  have hchecked : Checked worker job ⟨0⟩ := checked_of_second hretries htimeout
  obtain ⟨hexecuted, hdispatched⟩ :=
    prefix_selects_iff load_twoRunners hworker (by decide) (by decide) hname hqueue
  exact ⟨(hexecuted ⟨0⟩).mpr ⟨hchecked, hselects⟩, (hdispatched 1).mpr hselects⟩

-- A worker on a queue without a route starts the default runner only, and a job that names the
-- other one goes to the DLQ.
theorem prefix_selects_fails : ¬ ∀ (given settings : WorkerSettings) (numCpus : Nat),
    loadTomlSettings given numCpus = some settings → ∀ (queues : List String)
      (burst watchMode : Bool) (starts : String → Except String Unit) (workerId : WorkerId)
      (worker : RRQWorker),
      runWorker settings queues burst watchMode numCpus starts workerId = .ok worker →
        ∀ runner ∈ settings.runnerNames, ∀ handler ≠ "", ∀ job : Job,
          job.functionName = runner ++ "#" ++ handler → ∀ queueName ∈ worker.queues, ∀ now,
            Checked worker job now →
              executedOn now (executeJob worker job queueName) = some (job.id, handler, runner) ∧
                ∀ jobTimeout, dispatchToRunner worker job queueName jobTimeout ≠
                  noRunner worker job runner := by
  intro h
  obtain ⟨worker, hworker⟩ : ∃ worker, runWorker (normalizeQueueFields twoRunners)
      [] false false 4 (fun _ => .ok ()) "w" = .ok worker := exists_ok (by decide +kernel)
  obtain ⟨_, rfl, hsettings, hown, hrunners, -⟩ := runWorker_ok hworker
  have hqueue : "rrq:queue:default" ∈ worker.queues := by
    rw [hown]
    decide +kernel
  have hchecked : Checked worker
      { lostJob with functionName := "rust" ++ "#" ++ "f", jobTimeoutSeconds := some 1 } ⟨0⟩ :=
    checked_of_second rfl rfl
  obtain ⟨-, hnever⟩ := h twoRunners _ 4 load_twoRunners [] false false _ "w" worker hworker "rust"
    (by decide) "f" (by decide) _ rfl "rrq:queue:default" hqueue ⟨0⟩ hchecked
  apply hnever 1
  rw [dispatchToRunner_eq, hrunners]
  rfl

end RRQWorker

end Rrq
