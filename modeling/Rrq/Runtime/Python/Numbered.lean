import Rrq.Runtime.Python.Writing

namespace Rrq.Runtime.Python

@[grind] def Stage.Ended : Stage → Bool
  | ended => true
  | _ => false

theorem Stage.eq_ended {stage : Stage} (h : stage.Ended = true) : stage = .ended := by
  cases stage with
  | ended => rfl
  | created | running | waiting _ | draining => cases h

namespace RunnerRuntime

-- No request comes under the id of one that has been accepted.
def distinct : Event → RunnerRuntime → Bool
  | .receive _ (.Request request), st =>
      (List.range st.nextTask).all fun id =>
        (st.tasks id).all fun task => task.request.requestId ≠ request.requestId
  | _, _ => true

def requestOf (st : RunnerRuntime) (id : TaskId) : Option ExecutionRequest :=
  (st.tasks id).map Task.request

-- The tasks are numbered as they are created, and each has a request of its own.
structure Numbered (st : RunnerRuntime) : Prop where
  fresh : ∀ id, st.nextTask ≤ id → st.requestOf id = none
  distinct : ∀ a b r s, st.requestOf a = some r → st.requestOf b = some s →
    r.requestId = s.requestId → a = b

section Cancelling

variable (st : RunnerRuntime) (id later : TaskId) (connection : ConnectionId)

-- A cancellation changes nothing of a task but that it is to be thrown into it.
@[simp, grind =] theorem tasks_cancelTask : (st.cancelTask id).tasks later =
    if later = id then (st.tasks id).map fun task =>
      if task.stage.Ended then task else { task with cancelled := true }
    else st.tasks later := by
  unfold cancelTask setLock
  cases ht : st.tasks id with
  | none => grind
  | some task =>
      cases hs : task.stage with
      | ended =>
          by_cases hl : later = id
          · simp [hs, hl, ht, Stage.Ended]
          · simp [hs, hl]
      | created | running | waiting _ | draining => grind

theorem before_cancelTask {st : RunnerRuntime} {id later : TaskId} {task : Task}
    (h : (st.cancelTask id).tasks later = some task) :
    ∃ before, st.tasks later = some before ∧ task.connection = before.connection ∧
      task.request = before.request ∧ task.stage = before.stage ∧
      (task.cancelled = true → before.cancelled = true ∨ later = id) := by
  rw [tasks_cancelTask] at h
  by_cases hl : later = id
  · rw [if_pos hl] at h
    obtain ⟨before, hb, h⟩ := Option.map_eq_some_iff.mp h
    refine ⟨before, hl ▸ hb, ?_⟩
    split at h
    all_goals
      subst h
      exact ⟨rfl, rfl, rfl, fun _ => .inr hl⟩
  · rw [if_neg hl] at h
    exact ⟨task, h, rfl, rfl, rfl, .inl⟩

@[simp, grind =] theorem stageOn_cancelTask :
    (st.cancelTask id).stageOn connection later = st.stageOn connection later := by
  unfold stageOn
  rw [tasks_cancelTask]
  by_cases hl : later = id
  · rw [if_pos hl, hl, Option.bind_map]
    congr 1
    funext task
    simp only [Function.comp]
    split <;> rfl
  · rw [if_neg hl]

@[simp, grind =] theorem nextTask_cancelTask : (st.cancelTask id).nextTask = st.nextTask := by
  unfold cancelTask
  repeat' split
  all_goals rfl

@[simp, grind =] theorem phase_cancelTask :
    ((st.cancelTask id).connections connection).phase = (st.connections connection).phase := by
  unfold cancelTask setLock
  grind

@[simp, grind =] theorem connectionRequests_cancelTask :
    ((st.cancelTask id).connections connection).connectionRequests =
      (st.connections connection).connectionRequests := by
  unfold cancelTask setLock
  grind

@[simp, grind =] theorem connectionJobs_cancelTask :
    ((st.cancelTask id).connections connection).connectionJobs =
      (st.connections connection).connectionJobs := by
  unfold cancelTask setLock
  grind

@[simp, grind =] theorem responses_cancelTask :
    ((st.cancelTask id).connections connection).responses =
      (st.connections connection).responses := by
  unfold cancelTask setLock
  grind

end Cancelling

section Requests

variable (st : RunnerRuntime) (id later : TaskId) (connection : ConnectionId)

@[simp, grind =] theorem requestOf_modify (update : Connection → Connection) :
    (st.modify connection update).requestOf id = st.requestOf id := rfl

@[simp, grind =] theorem requestOf_setTask (task : Task) :
    (st.setTask id task).requestOf later =
      if later = id then some task.request else st.requestOf later := by
  unfold requestOf
  by_cases hl : later = id
  · simp [hl]
  · simp [hl]

@[simp, grind =] theorem requestOf_put (event : TrackerEvent) :
    (st.put event).requestOf id = st.requestOf id := rfl

@[simp, grind =] theorem requestOf_write (response : Response) :
    (st.write connection response).requestOf id = st.requestOf id := by
  unfold requestOf
  rw [tasks_write]

@[simp, grind =] theorem requestOf_accept (request : ExecutionRequest) :
    (st.accept connection request).requestOf id =
      if id = st.nextTask then some request else st.requestOf id :=
  requestOf_setTask (st.modify connection _) st.nextTask id _

@[simp, grind =] theorem requestOf_teardown :
    (st.teardown connection).requestOf id = st.requestOf id := rfl

@[simp, grind =] theorem requestOf_cancelTask :
    (st.cancelTask id).requestOf later = st.requestOf later := by
  unfold requestOf
  rw [tasks_cancelTask]
  by_cases hl : later = id
  · rw [if_pos hl, hl, Option.map_map]
    congr 1
    funext task
    simp only [Function.comp]
    split <;> rfl
  · rw [if_neg hl]

@[simp, grind =] theorem requestOf_cancelRequest (requestId : RequestId) :
    (st.cancelRequest requestId).requestOf id = st.requestOf id := by
  unfold cancelRequest
  split
  · rfl
  · exact requestOf_cancelTask _ _ _

@[simp, grind =] theorem nextTask_cancelRequest (requestId : RequestId) :
    (st.cancelRequest requestId).nextTask = st.nextTask := by
  unfold cancelRequest
  split
  · rfl
  · exact nextTask_cancelTask _ _

theorem requestOf_foldl (requestIds : List RequestId) :
    (requestIds.foldl cancelRequest st).requestOf id = st.requestOf id ∧
      (requestIds.foldl cancelRequest st).nextTask = st.nextTask := by
  induction requestIds generalizing st with
  | nil => exact ⟨rfl, rfl⟩
  | cons requestId rest ih =>
      obtain ⟨hrequest, hnext⟩ := ih (st.cancelRequest requestId)
      rw [requestOf_cancelRequest] at hrequest
      rw [nextTask_cancelRequest] at hnext
      exact ⟨hrequest, hnext⟩

theorem requestOf_track (event : TrackerEvent) :
    (st.track event).requestOf id = st.requestOf id ∧
      (st.track event).nextTask = st.nextTask := by
  cases event with
  | start requestId jobId task => exact ⟨rfl, rfl⟩
  | finish requestId => exact ⟨rfl, rfl⟩
  | cancelRequest requestId => exact ⟨requestOf_cancelRequest _ _ _, nextTask_cancelRequest _ _⟩
  | cancelJob jobId => exact requestOf_foldl st id _

variable {st id}

theorem requestOf_eq {task : Task} (h : st.tasks id = some task) :
    st.requestOf id = some task.request := by
  rw [requestOf, h]
  rfl

theorem stageOn_eq_none (c : ConnectionId) (h : st.requestOf id = none) :
    st.stageOn c id = none := by
  rw [stageOn, Option.map_eq_none_iff.mp h]
  rfl

variable {registered : String → Bool}

-- A task keeps its request, and only an accepted request makes a new task.
theorem requestOf_of_move {event : Event} {next : RunnerRuntime}
    (h : Move registered st event next) :
    (∀ id, next.requestOf id = st.requestOf id) ∧ next.nextTask = st.nextTask ∨
      ∃ connection request, event = .receive connection (.Request request) ∧
        next = st.accept connection request := by
  cases h with
  | accept _ _ => exact .inr ⟨_, _, rfl, rfl⟩
  | refuse _ =>
      left
      unfold refuse setLock moveTo
      grind
  | ignore => exact .inl ⟨fun _ => rfl, rfl⟩
  | cancel _ _ => exact .inl ⟨fun _ => rfl, rfl⟩
  | teardown _ => exact .inl ⟨fun _ => rfl, rfl⟩
  | track _ => exact .inl ⟨fun id => (requestOf_track _ id _).1, (requestOf_track _ 0 _).2⟩
  | interrupt ht _ =>
      left
      have hrequest := requestOf_eq ht
      grind
  | start ht _ | answer ht _ _ | escape ht _ _ | resume ht _ | drained ht _ =>
      left
      have hrequest := requestOf_eq ht
      simp only [begin, writeOutcome, wake, respond, cleanup, setLock]
      grind
  | resumeLoop _ | drainedLoop _ =>
      left
      unfold setLock moveTo
      grind

end Requests

namespace Numbered

variable {registered : String → Bool} {st : RunnerRuntime} (h : Numbered st)
include h

theorem other_of_distinct {connection : ConnectionId} {request : ExecutionRequest}
    (hnew : RunnerRuntime.distinct (.receive connection (.Request request)) st = true) :
    ∀ id found, st.requestOf id = some found → found.requestId ≠ request.requestId := by
  intro id found hfound
  have hid : id < st.nextTask := by
    by_contra hid
    rw [h.fresh id (Nat.le_of_not_lt hid)] at hfound
    cases hfound
  obtain ⟨task, ht, rfl⟩ := Option.map_eq_some_iff.mp hfound
  simp only [RunnerRuntime.distinct, List.all_eq_true, List.mem_range] at hnew
  simpa [ht] using hnew id hid

theorem accept {connection : ConnectionId} {request : ExecutionRequest}
    (hnew : RunnerRuntime.distinct (.receive connection (.Request request)) st = true) :
    Numbered (st.accept connection request) := by
  have hother := h.other_of_distinct hnew
  obtain ⟨h1, h2⟩ := h
  constructor
  all_goals grind

theorem move {event : Event} {later : RunnerRuntime} (hm : Move registered st event later)
    (hnew : RunnerRuntime.distinct event st = true) : Numbered later := by
  obtain ⟨hrequest, hnext⟩ | ⟨connection, request, rfl, rfl⟩ := requestOf_of_move hm
  · obtain ⟨h1, h2⟩ := h
    constructor
    all_goals grind
  · exact h.accept hnew

end Numbered

end RunnerRuntime

end Rrq.Runtime.Python
