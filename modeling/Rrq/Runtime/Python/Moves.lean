import Rrq.Runtime.Python.Tracker

namespace Rrq.Runtime.Python

@[grind] def Phase.Open : Phase → Bool
  | closed => false
  | _ => true

namespace RunnerRuntime

section Accesses

variable (st : RunnerRuntime) (connection other : ConnectionId) (id later : TaskId)

@[simp, grind =] theorem connections_modify (update : Connection → Connection) :
    (st.modify connection update).connections other =
      if other = connection then update (st.connections connection) else st.connections other :=
  Function.update_apply _ _ _ _

@[simp, grind =] theorem tasks_modify (update : Connection → Connection) :
    (st.modify connection update).tasks later = st.tasks later := rfl

@[simp, grind =] theorem nextTask_modify (update : Connection → Connection) :
    (st.modify connection update).nextTask = st.nextTask := rfl

@[simp, grind =] theorem tasks_setTask (task : Task) :
    (st.setTask id task).tasks later = if later = id then some task else st.tasks later :=
  Function.update_apply _ _ _ _

@[simp, grind =] theorem connections_setTask (task : Task) :
    (st.setTask id task).connections other = st.connections other := rfl

@[simp, grind =] theorem nextTask_setTask (task : Task) :
    (st.setTask id task).nextTask = st.nextTask := rfl

@[simp, grind =] theorem connections_put (event : TrackerEvent) :
    (st.put event).connections other = st.connections other := rfl

@[simp, grind =] theorem tasks_put (event : TrackerEvent) :
    (st.put event).tasks later = st.tasks later := rfl

@[simp, grind =] theorem nextTask_put (event : TrackerEvent) :
    (st.put event).nextTask = st.nextTask := rfl

theorem setLock_setLock (first second : Lock Writer → Lock Writer) :
    (st.setLock connection first).setLock connection second =
      st.setLock connection fun lock => second (first lock) := by
  simp [setLock, modify]

@[simp, grind =] theorem caughtUp_setLock (update : Lock Writer → Lock Writer) :
    (st.setLock connection update).caughtUp = st.caughtUp := rfl

theorem setLock_self : (st.setLock connection fun lock => lock) = st := by
  simp [setLock, modify]

theorem write_eq (response : Response) : st.write connection response =
    if (st.connections connection).phase.Open then
      st.modify connection fun c => { c with responses := c.responses ++ [response] }
    else st := by
  unfold write
  cases (st.connections connection).phase <;> rfl

@[simp, grind =] theorem connections_write (response : Response) :
    (st.write connection response).connections other =
      if other = connection ∧ (st.connections connection).phase.Open = true then
        { st.connections connection with
          responses := (st.connections connection).responses ++ [response] }
      else st.connections other := by
  rw [write_eq]
  by_cases hopen : (st.connections connection).phase.Open = true
  · simp [hopen]
  · simp [hopen]

@[simp, grind =] theorem tasks_write (response : Response) :
    (st.write connection response).tasks later = st.tasks later := by
  rw [write_eq]
  split <;> rfl

@[simp, grind =] theorem nextTask_write (response : Response) :
    (st.write connection response).nextTask = st.nextTask := by
  rw [write_eq]
  split <;> rfl

@[simp, grind =] theorem caughtUp_write (response : Response) :
    (st.write connection response).caughtUp = st.caughtUp := by
  rw [write_eq]
  split <;> rfl

variable (request : ExecutionRequest)

@[simp, grind =] theorem connections_accept :
    (st.accept connection request).connections other =
      if other = connection then
        { st.connections connection with
          connectionRequests :=
            insertEntry (st.connections connection).connectionRequests request.requestId
          connectionJobs := Function.update (st.connections connection).connectionJobs
            request.requestId (some request.jobId) }
      else st.connections other := by
  simp [accept]

@[simp, grind =] theorem tasks_accept :
    (st.accept connection request).tasks later =
      if later = st.nextTask then some { connection, request } else st.tasks later :=
  tasks_setTask (st.modify connection _) st.nextTask later _

@[simp, grind =] theorem nextTask_accept :
    (st.accept connection request).nextTask = st.nextTask + 1 := rfl

@[simp, grind =] theorem connections_teardown :
    (st.teardown connection).connections other =
      if other = connection then
        { st.connections connection with
          phase := .closed
          connectionRequests := []
          connectionJobs := fun requestId =>
            if requestId ∈ (st.connections connection).connectionRequests then none
            else (st.connections connection).connectionJobs requestId }
      else st.connections other := by
  simp [teardown]

@[simp, grind =] theorem tasks_teardown :
    (st.teardown connection).tasks later = st.tasks later := rfl

@[simp, grind =] theorem nextTask_teardown :
    (st.teardown connection).nextTask = st.nextTask := rfl

end Accesses

variable {registered : String → Bool}

-- What an event can make of a state.
inductive Move (registered : String → Bool) (st : RunnerRuntime) : Event → RunnerRuntime → Prop
  | accept {connection : ConnectionId} {request : ExecutionRequest} :
      (st.connections connection).phase = .reading →
      (st.connections connection).connectionRequests.length < MAX_IN_FLIGHT_PER_CONNECTION →
      Move registered st (.receive connection (.Request request)) (st.accept connection request)
  | refuse {connection : ConnectionId} {message : RunnerMessage} {outcome : ExecutionOutcome} :
      (st.connections connection).phase = .reading →
      Move registered st (.receive connection message) (st.refuse connection outcome)
  | ignore {connection : ConnectionId} {message : RunnerMessage} :
      Move registered st (.receive connection message) st
  | cancel {connection : ConnectionId} {payload : CancelRequest} {event : TrackerEvent} :
      (∀ requestId jobId task, event ≠ .start requestId jobId task) →
      (∀ requestId, event ≠ .finish requestId) →
      Move registered st (.receive connection (.Cancel payload)) (st.put event)
  | teardown {connection : ConnectionId} {event : Event} :
      (st.connections connection).phase = .reading →
      Move registered st event (st.teardown connection)
  | track {event : TrackerEvent} {rest : List TrackerEvent} : st.queue = event :: rest →
      Move registered st .track ({ st with queue := rest }.track event)
  | start {id : TaskId} {task : Task} : st.tasks id = some task → task.stage = .created →
      Move registered st (.start id) (st.begin id task)
  | interrupt {id : TaskId} {task : Task} : st.tasks id = some task → task.stage = .running →
      Move registered st (.interrupt id) (st.setTask id { task with cancelled := false })
  | answer {id : TaskId} {task : Task} {ending : Ending} {outcome : ExecutionOutcome} :
      st.tasks id = some task → task.stage = .running →
      ending.outcome registered task.request = some outcome →
      Move registered st (.finish id ending) (st.writeOutcome id task outcome)
  | escape {id : TaskId} {task : Task} {ending : Ending} :
      st.tasks id = some task → task.stage = .running →
      ending.outcome registered task.request = none →
      Move registered st (.finish id ending) (st.cleanup id task)
  | resume {id : TaskId} {task : Task} {outcome : ExecutionOutcome} :
      st.tasks id = some task → task.stage = .waiting outcome →
      Move registered st (.resume id) (st.wake id task outcome)
  | drained {id : TaskId} {task : Task} : st.tasks id = some task → task.stage = .draining →
      Move registered st (.drained id)
        ((st.setLock task.connection Lock.release).cleanup id task)
  | resumeLoop {connection : ConnectionId} {outcome : ExecutionOutcome} :
      (st.connections connection).phase = .refusing outcome →
      Move registered st (.resumeLoop connection)
        (((st.setLock connection (·.resume .loop)).write connection { outcome }).moveTo
          connection .draining)
  | drainedLoop {connection : ConnectionId} :
      (st.connections connection).phase = .draining →
      Move registered st (.drainedLoop connection)
        ((st.setLock connection Lock.release).moveTo connection .reading)

theorem receive_move {st : RunnerRuntime} {connection : ConnectionId} (message : RunnerMessage)
    (hp : (st.connections connection).phase = .reading) :
    Move registered st (.receive connection message) (st.receive connection message) := by
  cases message with
  | Request request =>
      simp only [receive]
      split
      · exact .refuse hp
      split
      · exact .refuse hp
      · rename_i hbusy
        exact .accept hp (Nat.lt_of_not_le hbusy)
  | Response payload => exact .teardown hp
  | Cancel payload =>
      simp only [receive]
      split
      · exact .ignore
      cases payload.requestId with
      | none => exact .cancel (fun _ _ _ h => by cases h) fun _ h => by cases h
      | some requestId => exact .cancel (fun _ _ _ h => by cases h) fun _ h => by cases h

theorem whileReading_eq_some {st next later : RunnerRuntime} {connection : ConnectionId}
    (h : st.whileReading connection next = some later) :
    (st.connections connection).phase = .reading ∧ next = later := by
  unfold whileReading at h
  split at h
  · rename_i hp
    exact ⟨hp, Option.some.inj h⟩
  · cases h

theorem move_of_step {st later : RunnerRuntime} {event : Event}
    (h : step registered event st = some later) : Move registered st event later := by
  cases event with
  | receive connection message =>
      obtain ⟨hp, rfl⟩ := whileReading_eq_some h
      exact receive_move message hp
  | endOfStream connection =>
      obtain ⟨hp, rfl⟩ := whileReading_eq_some h
      exact .teardown hp
  | track =>
      simp only [step] at h
      split at h
      · cases h
      · rename_i event rest hq
        obtain rfl := Option.some.inj h
        exact .track hq
  | start id =>
      obtain ⟨task, ht, h⟩ := Option.bind_eq_some_iff.mp h
      split at h
      · rename_i hs
        obtain rfl := Option.some.inj h
        exact .start ht hs
      · cases h
  | interrupt id =>
      obtain ⟨task, ht, h⟩ := Option.bind_eq_some_iff.mp h
      split at h
      · rename_i hs
        obtain ⟨-, h⟩ := Option.ite_none_right_eq_some.mp h
        obtain rfl := Option.some.inj h
        exact .interrupt ht hs
      · cases h
  | finish id ending =>
      obtain ⟨task, ht, h⟩ := Option.bind_eq_some_iff.mp h
      split at h
      · rename_i hs
        obtain ⟨-, h⟩ := Option.ite_none_right_eq_some.mp h
        split at h
        · rename_i outcome ho
          obtain rfl := Option.some.inj h
          exact .answer ht hs ho
        · rename_i ho
          obtain rfl := Option.some.inj h
          exact .escape ht hs ho
      · cases h
  | resume id =>
      obtain ⟨task, ht, h⟩ := Option.bind_eq_some_iff.mp h
      split at h
      · rename_i outcome hs
        obtain ⟨-, h⟩ := Option.ite_none_right_eq_some.mp h
        obtain rfl := Option.some.inj h
        exact .resume ht hs
      · cases h
  | drained id =>
      obtain ⟨task, ht, h⟩ := Option.bind_eq_some_iff.mp h
      split at h
      · rename_i hs
        obtain rfl := Option.some.inj h
        exact .drained ht hs
      · cases h
  | resumeLoop connection =>
      simp only [step] at h
      split at h
      · rename_i outcome hp
        obtain ⟨-, h⟩ := Option.ite_none_right_eq_some.mp h
        obtain rfl := Option.some.inj h
        exact .resumeLoop hp
      · cases h
  | drainedLoop connection =>
      simp only [step] at h
      split at h
      · rename_i hp
        obtain rfl := Option.some.inj h
        exact .drainedLoop hp
      · cases h

end RunnerRuntime

end Rrq.Runtime.Python
