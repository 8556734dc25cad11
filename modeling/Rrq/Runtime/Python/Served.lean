import Rrq.Runtime.Python.Numbered

namespace Rrq.Runtime.Python

-- The response has been written.
@[grind] def Stage.Wrote : Stage → Bool
  | draining | ended => true
  | _ => false

-- Whether a cancellation that is thrown into a task now leaves it to respond: not before its
-- first step and not while it waits for the write lock.
@[grind] def Stage.Interruptible : Stage → Bool
  | created | waiting _ => false
  | _ => true

@[grind] def Own (request : ExecutionRequest) (outcome : ExecutionOutcome) : Prop :=
  outcome.jobId = some request.jobId ∧ outcome.requestId = some request.requestId

-- What the handler leaves can be dumped, and carries no ids but those of the request.
def Settlement.Answerable (request : ExecutionRequest) : Settlement → Bool
  | .outcome result =>
      result.Dumps && decide (filled result.jobId request.jobId = some request.jobId) &&
        decide (filled result.requestId request.requestId = some request.requestId)
  | .value result => result.Dumps
  | _ => true

def Ending.Answerable (request : ExecutionRequest) : Ending → Bool
  | executed settlement => settlement.Answerable request
  | escaped => false
  | _ => true

theorem Settlement.Answerable.outcome {registered : String → Bool} {request : ExecutionRequest}
    {settlement : Settlement} (h : settlement.Answerable request = true) :
    (PythonRunner.execute registered request settlement).Dumps = true ∧
      Own request (PythonRunner.execute registered request settlement) := by
  unfold PythonRunner.execute
  split
  · exact ⟨rfl, rfl, rfl⟩
  cases settlement with
  | outcome outcome =>
      simp only [Settlement.Answerable, Bool.and_eq_true, decide_eq_true_eq] at h
      obtain ⟨⟨hdumps, hjob⟩, hrequest⟩ := h
      exact ⟨hdumps, hjob, hrequest⟩
  | value value =>
      refine ⟨?_, rfl, rfl⟩
      simpa [ExecutionOutcome.Dumps, Settlement.Answerable] using h
  | retry message deferSeconds => exact ⟨rfl, rfl, rfl⟩
  | timesOut message => exact ⟨rfl, rfl, rfl⟩
  | raises message => exact ⟨rfl, rfl, rfl⟩

theorem Ending.Answerable.outcome {registered : String → Bool} {request : ExecutionRequest}
    {ending : Ending} (h : ending.Answerable request = true) :
    ∃ outcome, ending.outcome registered request = some outcome ∧ outcome.Dumps = true ∧
      Own request outcome := by
  cases ending with
  | executed settlement => exact ⟨_, rfl, Settlement.Answerable.outcome h⟩
  | exceeded => exact ⟨_, rfl, rfl, rfl, rfl⟩
  | expired => exact ⟨_, rfl, rfl, rfl, rfl⟩
  | cancelled => exact ⟨_, rfl, rfl, rfl, rfl⟩
  | raised message => exact ⟨_, rfl, rfl, rfl, rfl⟩
  | escaped => cases h

namespace RunnerRuntime

@[grind] def Open (st : RunnerRuntime) (connection : ConnectionId) : Prop :=
  (st.connections connection).phase.Open = true

instance (st : RunnerRuntime) (connection : ConnectionId) : Decidable (st.Open connection) :=
  inferInstanceAs (Decidable (_ = _))

-- A cancellation reaches a task when that can take it, and what a handler comes to can be
-- written.
def orderly : Event → RunnerRuntime → Bool
  | .track, st =>
      st.queue.head?.all fun event => (st.tracker.named event).all fun requestId =>
        (st.tracker.inFlight requestId).all fun entry => (st.tasks entry.task).all fun task =>
          decide (st.Open task.connection → task.stage.Interruptible = true)
  | .finish id ending, st =>
      (st.tasks id).all fun task =>
        decide (st.Open task.connection → ending.Answerable task.request = true)
  | _, _ => true

def admitted (event : Event) (st : RunnerRuntime) : Bool := distinct event st && orderly event st

-- How often a task has been answered.

def answered (responses : List Response) (id : TaskId) : Nat :=
  responses.countP fun response => response.answers = some id

@[simp, grind =] theorem answered_nil (id : TaskId) : answered [] id = 0 := rfl

@[simp, grind =] theorem answered_append (responses : List Response) (response : Response)
    (id : TaskId) : answered (responses ++ [response]) id =
      answered responses id + if response.answers = some id then 1 else 0 := by
  simp [answered, List.countP_append, List.countP_cons]

theorem answered_eq_zero {responses : List Response} {id : TaskId}
    (h : ∀ response ∈ responses, response.answers ≠ some id) : answered responses id = 0 := by
  apply List.countP_eq_zero.mpr
  simpa using h

-- The tasks of the requests can take a cancellation.
def Spares (st : RunnerRuntime) (requestIds : List RequestId) : Prop :=
  ∀ requestId ∈ requestIds, ∀ entry, st.tracker.inFlight requestId = some entry →
    ∀ task, st.tasks entry.task = some task → st.Open task.connection →
      task.stage.Interruptible = true

theorem Spares.cancelRequest {st : RunnerRuntime} {requestIds : List RequestId}
    (h : st.Spares requestIds) (requestId : RequestId) :
    (st.cancelRequest requestId).Spares requestIds := by
  intro found hfound entry hentry task ht hopen
  rw [cancelRequest_tracker, InflightTracker.removeRequest_inFlight] at hentry
  have hentry : st.tracker.inFlight found = some entry := by
    by_cases hf : found = requestId
    · rw [if_pos hf] at hentry
      cases hentry
    · rw [if_neg hf] at hentry
      exact hentry
  unfold RunnerRuntime.cancelRequest at ht hopen
  split at ht
  · rename_i hnone
    simp only [hnone] at hopen
    exact h found hfound entry hentry task ht hopen
  · rename_i other hother
    simp only [hother] at hopen
    obtain ⟨before, hbefore, hconnection, -, hstage, -⟩ := before_cancelTask ht
    rw [hstage]
    apply h found hfound entry hentry before hbefore
    unfold Open at hopen ⊢
    rw [phase_cancelTask] at hopen
    exact hconnection ▸ hopen

theorem spares_of_orderly {st : RunnerRuntime} {event : TrackerEvent} {rest : List TrackerEvent}
    (hq : st.queue = event :: rest) (h : orderly .track st = true) :
    { st with queue := rest }.Spares (st.tracker.named event) := by
  intro requestId hmem entry hentry task ht hopen
  have hentry : st.tracker.inFlight requestId = some entry := hentry
  have ht : st.tasks entry.task = some task := ht
  simp only [orderly, hq, List.head?_cons, Option.all_some, List.all_eq_true] at h
  have hspared := h requestId hmem
  simp only [hentry, Option.all_some, ht, decide_eq_true_eq] at hspared
  exact hspared hopen

theorem answerable_of_orderly {st : RunnerRuntime} {id : TaskId} {task : Task} {ending : Ending}
    (ht : st.tasks id = some task) (h : orderly (.finish id ending) st = true)
    (hopen : st.Open task.connection) : ending.Answerable task.request = true := by
  simp only [orderly, ht, Option.all_some, decide_eq_true_eq] at h
  exact h hopen

section

variable {st : RunnerRuntime} {connection other : ConnectionId} {update : Lock Writer → Lock Writer}

theorem open_setLock : (st.setLock connection update).Open other ↔ st.Open other := by
  simp only [Open, setLock]
  grind

theorem responses_setLock : ((st.setLock connection update).connections other).responses =
    (st.connections other).responses := by
  simp only [setLock]
  grind

end

theorem caughtUp_teardown {st : RunnerRuntime} {connection : ConnectionId} :
    (st.teardown connection).caughtUp =
      ((st.connections connection).connectionRequests.map .cancelRequest).foldl
        InflightTracker.handle st.caughtUp := by
  rw [teardown, caughtUp, List.foldl_append]
  rfl

-- A task is answered where it belongs, once it is about to be over, and when it is over it has
-- given back its slot.
structure Served (st : RunnerRuntime) : Prop where
  slot : ∀ id task, st.tasks id = some task → task.stage.Ended = true →
    task.request.requestId ∉ (st.connections task.connection).connectionRequests
  closed : ∀ c, ¬ st.Open c → (st.connections c).connectionRequests = []
  job : ∀ c r, ((st.connections c).connectionJobs r).isSome = true →
    r ∈ (st.connections c).connectionRequests
  counted : ∀ id task, st.tasks id = some task → st.Open task.connection →
    answered (st.connections task.connection).responses id =
      if task.stage.Wrote then 1 else 0
  own : ∀ c id response, response ∈ (st.connections c).responses → response.answers = some id →
    (st.stageOn c id).isSome = true ∧
      ∀ request, st.requestOf id = some request → Own request response.outcome
  outcome : ∀ id task outcome, st.tasks id = some task → task.stage = .waiting outcome →
    st.Open task.connection → outcome.Dumps = true ∧ Own task.request outcome
  uncut : ∀ id task, st.tasks id = some task → task.cancelled = true →
    st.Open task.connection → task.stage.Interruptible = true

namespace Served

variable {st : RunnerRuntime} (h : Served st)
include h

theorem setLock (connection : ConnectionId) (update : Lock Writer → Lock Writer) :
    Served (st.setLock connection update) := by
  obtain ⟨h1, h2, h3, h4, h5, h6, h7⟩ := h
  constructor
  all_goals simp only [RunnerRuntime.setLock]
  all_goals grind

theorem congr {later : RunnerRuntime} (htasks : later.tasks = st.tasks)
    (hconnections : later.connections = st.connections) : Served later := by
  have hopen : later.Open = st.Open := by
    funext c
    unfold Open
    rw [hconnections]
  have hstage : later.stageOn = st.stageOn := by
    funext c id
    unfold stageOn
    rw [htasks]
  have hrequest : later.requestOf = st.requestOf := by
    funext id
    unfold RunnerRuntime.requestOf
    rw [htasks]
  obtain ⟨h1, h2, h3, h4, h5, h6, h7⟩ := h
  constructor
  all_goals simp only [htasks, hconnections, hopen, hstage, hrequest]
  all_goals assumption

-- What a loop does.

theorem moveTo {connection : ConnectionId} {phase : Phase}
    (hopen : phase.Open = (st.connections connection).phase.Open) :
    Served (st.moveTo connection phase) := by
  obtain ⟨h1, h2, h3, h4, h5, h6, h7⟩ := h
  constructor
  all_goals simp only [RunnerRuntime.moveTo]
  all_goals grind

theorem write {connection : ConnectionId} {outcome : ExecutionOutcome} :
    Served (st.write connection { outcome }) := by
  obtain ⟨h1, h2, h3, h4, h5, h6, h7⟩ := h
  constructor
  all_goals grind

theorem refuse {connection : ConnectionId} {outcome : ExecutionOutcome}
    (hp : (st.connections connection).phase = .reading) :
    Served (st.refuse connection outcome) := by
  unfold RunnerRuntime.refuse
  split
  · apply moveTo
    · exact ((h.setLock _ _).write)
    · simp only [RunnerRuntime.setLock]
      grind
  · apply moveTo
    · exact h.setLock _ _
    · simp only [RunnerRuntime.setLock]
      grind

theorem accept {connection : ConnectionId} {request : ExecutionRequest} (hn : Numbered st)
    (hp : (st.connections connection).phase = .reading)
    (hother : ∀ id found, st.requestOf id = some found →
      found.requestId ≠ request.requestId) : Served (st.accept connection request) := by
  have hfresh := hn.fresh st.nextTask (Nat.le_refl _)
  have hstage : ∀ c, st.stageOn c st.nextTask = none := fun c => stageOn_eq_none c hfresh
  have hnone : answered (st.connections connection).responses st.nextTask = 0 := by
    apply answered_eq_zero
    intro response hmem hanswers
    have hsome := (h.own _ _ _ hmem hanswers).1
    rw [hstage] at hsome
    cases hsome
  have hrequest : ∀ id task, st.tasks id = some task → st.requestOf id = some task.request :=
    fun id task ht => requestOf_eq ht
  obtain ⟨h1, h2, h3, h4, h5, h6, h7⟩ := h
  constructor
  case job =>
    intro c r hjob
    rw [connections_accept] at hjob ⊢
    by_cases hc : c = connection
    · simp only [if_pos hc, Function.update_apply] at hjob ⊢
      grind
    · simp only [if_neg hc] at hjob ⊢
      exact h3 c r hjob
  all_goals grind

theorem teardown {connection : ConnectionId} : Served (st.teardown connection) := by
  obtain ⟨h1, h2, h3, h4, h5, h6, h7⟩ := h
  constructor
  case job =>
    intro c r hjob
    rw [connections_teardown] at hjob ⊢
    by_cases hc : c = connection
    · simp only [if_pos hc] at hjob
      grind
    · simp only [if_neg hc] at hjob ⊢
      exact h3 c r hjob
  all_goals grind

-- What the tracker does.

theorem cancelTask {id : TaskId} (hcut : ∀ task, st.tasks id = some task →
    st.Open task.connection → task.stage.Interruptible = true) :
    Served (st.cancelTask id) := by
  have hbefore := @before_cancelTask st id
  obtain ⟨h1, h2, h3, h4, h5, h6, h7⟩ := h
  constructor
  all_goals grind

theorem cancelRequest {requestId : RequestId} (hspares : st.Spares [requestId]) :
    Served (st.cancelRequest requestId) := by
  unfold RunnerRuntime.cancelRequest
  split
  · exact h
  · rename_i entry he
    apply cancelTask
    · exact h.congr rfl rfl
    · exact hspares requestId (List.mem_singleton_self _) entry he

theorem foldl_cancelRequest {requestIds : List RequestId} (hspares : st.Spares requestIds) :
    Served (requestIds.foldl RunnerRuntime.cancelRequest st) := by
  induction requestIds generalizing st with
  | nil => exact h
  | cons requestId rest ih =>
      apply ih
      · apply h.cancelRequest
        intro found hfound
        exact hspares found (List.mem_cons.mpr (.inl (List.mem_singleton.mp hfound)))
      · apply Spares.cancelRequest
        intro found hfound
        exact hspares found (List.mem_cons_of_mem _ hfound)

theorem track {event : TrackerEvent} (hspares : st.Spares (st.tracker.named event)) :
    Served (st.track event) := by
  cases event with
  | start requestId jobId task => exact h.congr rfl rfl
  | finish requestId => exact h.congr rfl rfl
  | cancelRequest requestId => exact h.cancelRequest hspares
  | cancelJob jobId => exact h.foldl_cancelRequest hspares

-- What a task does.

section Tasks

variable {id : TaskId} {task : Task} (ht : st.tasks id = some task)
include ht

theorem begin (hs : task.stage = .created) : Served (st.begin id task) := by
  have hstage : ∀ c, st.stageOn c id = _ := fun c => stageOn_eq c ht
  have hrequest := requestOf_eq ht
  unfold RunnerRuntime.begin
  obtain ⟨h1, h2, h3, h4, h5, h6, h7⟩ := h
  constructor
  all_goals grind

theorem interrupt (hs : task.stage = .running) :
    Served (st.setTask id { task with cancelled := false }) := by
  have hstage : ∀ c, st.stageOn c id = _ := fun c => stageOn_eq c ht
  have hrequest := requestOf_eq ht
  obtain ⟨h1, h2, h3, h4, h5, h6, h7⟩ := h
  constructor
  all_goals grind

theorem cleanup (hwrote : st.Open task.connection →
    answered (st.connections task.connection).responses id = 1) :
    Served (st.cleanup id task) := by
  have hstage : ∀ c, st.stageOn c id = _ := fun c => stageOn_eq c ht
  have hrequest := requestOf_eq ht
  unfold RunnerRuntime.cleanup
  obtain ⟨h1, h2, h3, h4, h5, h6, h7⟩ := h
  constructor
  case job =>
    intro c r hjob
    simp only [connections_setTask, connections_modify, connections_put] at hjob ⊢
    by_cases hc : c = task.connection
    · simp only [if_pos hc, Function.update_apply] at hjob ⊢
      grind
    · simp only [if_neg hc] at hjob ⊢
      exact h3 c r hjob
  all_goals grind

theorem respond {outcome : ExecutionOutcome}
    (hnone : st.Open task.connection →
      answered (st.connections task.connection).responses id = 0)
    (houtcome : st.Open task.connection → outcome.Dumps = true ∧ Own task.request outcome) :
    Served (st.respond id task outcome) := by
  have hstage : ∀ c, st.stageOn c id = _ := fun c => stageOn_eq c ht
  have hrequest := requestOf_eq ht
  unfold RunnerRuntime.respond
  split
  · obtain ⟨h1, h2, h3, h4, h5, h6, h7⟩ := h
    constructor
    all_goals grind
  · rename_i hdumps
    apply (h.setLock _ _).cleanup ht
    intro hopen
    exact absurd (houtcome (open_setLock.mp hopen)).1 hdumps

theorem writeOutcome (hs : task.stage = .running) {outcome : ExecutionOutcome}
    (houtcome : st.Open task.connection → outcome.Dumps = true ∧ Own task.request outcome) :
    Served (st.writeOutcome id task outcome) := by
  have hnone : st.Open task.connection →
      answered (st.connections task.connection).responses id = 0 := by
    intro hopen
    rw [h.counted id task ht hopen, hs]
    rfl
  unfold RunnerRuntime.writeOutcome
  split
  · apply (h.setLock _ _).respond ht
    · rw [open_setLock, responses_setLock]
      exact hnone
    · rw [open_setLock]
      exact houtcome
  · have hstage : ∀ c, st.stageOn c id = _ := fun c => stageOn_eq c ht
    have hrequest := requestOf_eq ht
    obtain ⟨h1, h2, h3, h4, h5, h6, h7⟩ := h
    constructor
    all_goals simp only [RunnerRuntime.setLock]
    all_goals grind

theorem wake {outcome : ExecutionOutcome} (hs : task.stage = .waiting outcome) :
    Served (st.wake id task outcome) := by
  unfold RunnerRuntime.wake
  split
  · rename_i hcancelled
    apply (h.setLock _ _).cleanup ht
    intro hopen
    have hcut := h.uncut id task ht hcancelled (open_setLock.mp hopen)
    rw [hs] at hcut
    cases hcut
  · apply (h.setLock _ _).respond ht
    · rw [open_setLock, responses_setLock]
      intro hopen
      rw [h.counted id task ht hopen, hs]
      rfl
    · rw [open_setLock]
      exact h.outcome id task outcome ht hs

theorem drained (hs : task.stage = .draining) :
    Served ((st.setLock task.connection Lock.release).cleanup id task) := by
  apply (h.setLock _ _).cleanup ht
  rw [open_setLock, responses_setLock]
  intro hopen
  rw [h.counted id task ht hopen, hs]
  rfl

end Tasks

theorem move {registered : String → Bool} {event : Event} {later : RunnerRuntime}
    (hn : Numbered st) (hm : Move registered st event later)
    (hadmitted : admitted event st = true) : Served later := by
  obtain ⟨hnew, horderly⟩ := Bool.and_eq_true_iff.mp hadmitted
  cases hm with
  | accept hp _ => exact h.accept hn hp (hn.other_of_distinct hnew)
  | refuse hp => exact h.refuse hp
  | ignore => exact h
  | cancel _ _ => exact h.congr rfl rfl
  | teardown _ => exact h.teardown
  | track hq =>
      apply track
      · exact h.congr rfl rfl
      · exact spares_of_orderly hq horderly
  | start ht hs => exact h.begin ht hs
  | interrupt ht hs => exact h.interrupt ht hs
  | answer ht hs ho =>
      apply h.writeOutcome ht hs
      intro hopen
      obtain ⟨outcome, houtcome, hgood⟩ :=
        @Ending.Answerable.outcome registered _ _ (answerable_of_orderly ht horderly hopen)
      rw [ho] at houtcome
      obtain rfl := Option.some.inj houtcome
      exact hgood
  | escape ht hs ho =>
      apply h.cleanup ht
      intro hopen
      obtain ⟨outcome, houtcome, -⟩ :=
        @Ending.Answerable.outcome registered _ _ (answerable_of_orderly ht horderly hopen)
      rw [ho] at houtcome
      cases houtcome
  | resume ht hs => exact h.wake ht hs
  | drained ht hs => exact h.drained ht hs
  | resumeLoop hp =>
      apply moveTo
      · exact (h.setLock _ _).write
      · simp only [RunnerRuntime.setLock]
        grind
  | drainedLoop hp =>
      apply moveTo
      · exact h.setLock _ _
      · simp only [RunnerRuntime.setLock]
        grind

end Served

end RunnerRuntime

end Rrq.Runtime.Python
