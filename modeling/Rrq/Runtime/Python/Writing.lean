import Rrq.Runtime.Python.Moves

namespace Rrq.Runtime.Python

-- The writer waits for the write lock.

@[grind] def Stage.Waits : Stage → Bool
  | waiting _ => true
  | _ => false

@[grind] def Phase.Waits : Phase → Bool
  | refusing _ => true
  | _ => false

def Event.Incoming : Event → Bool
  | receive _ _ | endOfStream _ => true
  | _ => false

namespace RunnerRuntime

-- The stage of a task, as far as it writes to the connection.
def stageOn (st : RunnerRuntime) (connection : ConnectionId) (id : TaskId) : Option Stage :=
  (st.tasks id).bind fun task => if task.connection = connection then some task.stage else none

-- Who holds the write lock of a connection is about to release it, and who is in line waits
-- for it.
structure Lined (st : RunnerRuntime) : Prop where
  awake : ∀ c, (st.connections c).writeLock.Awake
  held : ∀ c id, (st.connections c).writeLock.holder = some (.task id) →
    st.stageOn c id = some .draining
  heldLoop : ∀ c, (st.connections c).writeLock.holder = some .loop →
    (st.connections c).phase = .draining
  waits : ∀ c id, (st.connections c).writeLock.Waiting (.task id) ↔
    (st.stageOn c id).any Stage.Waits = true
  waitsLoop : ∀ c, (st.connections c).writeLock.Waiting .loop →
    (st.connections c).phase.Waits = true

section

variable (st : RunnerRuntime) (connection other : ConnectionId) (id later : TaskId)

@[simp, grind =] theorem stageOn_modify (update : Connection → Connection) :
    (st.modify connection update).stageOn other id = st.stageOn other id := rfl

@[simp, grind =] theorem stageOn_setTask (task : Task) :
    (st.setTask id task).stageOn other later =
      if later = id then if task.connection = other then some task.stage else none
      else st.stageOn other later := by
  unfold stageOn
  by_cases hl : later = id
  · simp [hl]
  · simp [hl]

@[simp, grind =] theorem stageOn_put (event : TrackerEvent) :
    (st.put event).stageOn other id = st.stageOn other id := rfl

@[simp, grind =] theorem stageOn_write (response : Response) :
    (st.write connection response).stageOn other id = st.stageOn other id := by
  unfold stageOn
  rw [tasks_write]

@[simp, grind =] theorem stageOn_accept (request : ExecutionRequest) :
    (st.accept connection request).stageOn other later =
      if later = st.nextTask then if connection = other then some .created else none
      else st.stageOn other later :=
  stageOn_setTask (st.modify connection _) other st.nextTask later _

@[simp, grind =] theorem stageOn_teardown :
    (st.teardown connection).stageOn other id = st.stageOn other id := rfl

variable {st id connection}

theorem exists_of_stageOn {stage : Stage} (h : st.stageOn connection id = some stage) :
    ∃ task, st.tasks id = some task ∧ task.connection = connection ∧ task.stage = stage := by
  obtain ⟨task, ht, h⟩ := Option.bind_eq_some_iff.mp h
  obtain ⟨hc, h⟩ := Option.ite_none_right_eq_some.mp h
  exact ⟨task, ht, hc, Option.some.inj h⟩

theorem stageOn_eq {task : Task} (h : st.tasks id = some task) :
    st.stageOn other id = if task.connection = other then some task.stage else none := by
  rw [stageOn, h]
  rfl

end

namespace Lined

variable {registered : String → Bool} {st : RunnerRuntime} (h : Lined st)
include h

theorem congr {later : RunnerRuntime} (htasks : later.tasks = st.tasks)
    (hconnections : later.connections = st.connections) : Lined later := by
  have hstage : later.stageOn = st.stageOn := by
    funext c id
    unfold stageOn
    rw [htasks]
  obtain ⟨h1, h2, h3, h4, h5⟩ := h
  constructor
  all_goals simp only [hconnections, hstage]
  all_goals assumption

theorem cancelTask (id : TaskId) : Lined (st.cancelTask id) := by
  unfold RunnerRuntime.cancelTask
  split
  · exact h
  rename_i task ht
  have hstage : ∀ c, st.stageOn c id = _ := fun c => stageOn_eq c ht
  split
  · exact h
  · obtain ⟨h1, h2, h3, h4, h5⟩ := h
    constructor
    all_goals simp only [setLock]
    all_goals grind
  · obtain ⟨h1, h2, h3, h4, h5⟩ := h
    constructor
    all_goals grind

theorem cancelRequest (requestId : RequestId) : Lined (st.cancelRequest requestId) := by
  unfold RunnerRuntime.cancelRequest
  split
  · exact h
  · apply cancelTask
    exact h.congr rfl rfl

theorem foldl_cancelRequest (requestIds : List RequestId) :
    Lined (requestIds.foldl RunnerRuntime.cancelRequest st) := by
  induction requestIds generalizing st with
  | nil => exact h
  | cons requestId rest ih => exact ih (h.cancelRequest requestId)

theorem track (event : TrackerEvent) : Lined (st.track event) := by
  cases event with
  | start requestId jobId task => exact h.congr rfl rfl
  | finish requestId => exact h.congr rfl rfl
  | cancelRequest requestId => exact h.cancelRequest requestId
  | cancelJob jobId => exact h.foldl_cancelRequest _

theorem accept (connection : ConnectionId) (request : ExecutionRequest)
    (hnew : st.tasks st.nextTask = none) : Lined (st.accept connection request) := by
  have hstage : ∀ c, st.stageOn c st.nextTask = none := by
    intro c
    rw [stageOn, hnew]
    rfl
  obtain ⟨h1, h2, h3, h4, h5⟩ := h
  constructor
  all_goals grind

-- What a loop does with the lock.

theorem refuse {connection : ConnectionId} {outcome : ExecutionOutcome}
    (hp : (st.connections connection).phase = .reading) :
    Lined (st.refuse connection outcome) := by
  unfold RunnerRuntime.refuse
  obtain ⟨h1, h2, h3, h4, h5⟩ := h
  split
  · constructor
    all_goals simp only [setLock, moveTo]
    all_goals grind
  · constructor
    all_goals simp only [setLock, moveTo]
    all_goals grind

theorem teardown {connection : ConnectionId}
    (hp : (st.connections connection).phase = .reading) : Lined (st.teardown connection) := by
  obtain ⟨h1, h2, h3, h4, h5⟩ := h
  constructor
  all_goals grind

theorem resumeLoop {connection : ConnectionId} {outcome : ExecutionOutcome}
    (hp : (st.connections connection).phase = .refusing outcome) :
    Lined (((st.setLock connection (·.resume .loop)).write connection { outcome }).moveTo
      connection .draining) := by
  obtain ⟨h1, h2, h3, h4, h5⟩ := h
  constructor
  all_goals simp only [setLock, moveTo]
  all_goals grind

theorem drainedLoop {connection : ConnectionId}
    (hp : (st.connections connection).phase = .draining) :
    Lined ((st.setLock connection Lock.release).moveTo connection .reading) := by
  obtain ⟨h1, h2, h3, h4, h5⟩ := h
  constructor
  all_goals simp only [setLock, moveTo]
  all_goals grind

-- What a task does with it.

section Tasks

variable {id : TaskId} {task : Task} (ht : st.tasks id = some task)
include ht

theorem begin (hs : task.stage = .created) : Lined (st.begin id task) := by
  have hstage : ∀ c, st.stageOn c id = _ := fun c => stageOn_eq c ht
  unfold RunnerRuntime.begin
  obtain ⟨h1, h2, h3, h4, h5⟩ := h
  constructor
  all_goals grind

theorem interrupt : Lined (st.setTask id { task with cancelled := false }) := by
  have hstage : ∀ c, st.stageOn c id = _ := fun c => stageOn_eq c ht
  obtain ⟨h1, h2, h3, h4, h5⟩ := h
  constructor
  all_goals grind

variable {update : Lock Writer → Lock Writer}

-- The task leaves the lock to the others.
theorem cleanup (hawake : (update (st.connections task.connection).writeLock).Awake)
    (hheld : ∀ who, (update (st.connections task.connection).writeLock).holder = some who →
      who ≠ .task id ∧ (st.connections task.connection).writeLock.holder = some who)
    (hwaits : ∀ who, (update (st.connections task.connection).writeLock).Waiting who ↔
      who ≠ .task id ∧ (st.connections task.connection).writeLock.Waiting who) :
    Lined ((st.setLock task.connection update).cleanup id task) := by
  have hstage : ∀ c, st.stageOn c id = _ := fun c => stageOn_eq c ht
  obtain ⟨h1, h2, h3, h4, h5⟩ := h
  constructor
  all_goals simp only [setLock, RunnerRuntime.cleanup]
  all_goals grind

-- The task has got the lock.
theorem respond {outcome : ExecutionOutcome}
    (hheld : (update (st.connections task.connection).writeLock).holder = some (.task id))
    (hwaits : ∀ who, (update (st.connections task.connection).writeLock).Waiting who ↔
      who ≠ .task id ∧ (st.connections task.connection).writeLock.Waiting who) :
    Lined ((st.setLock task.connection update).respond id task outcome) := by
  unfold RunnerRuntime.respond
  split
  · have hstage : ∀ c, st.stageOn c id = _ := fun c => stageOn_eq c ht
    have hawake : (update (st.connections task.connection).writeLock).Awake :=
      .inl (by rw [hheld]; rfl)
    obtain ⟨h1, h2, h3, h4, h5⟩ := h
    constructor
    all_goals simp only [setLock]
    all_goals grind
  · rw [setLock_setLock]
    apply h.cleanup ht
    · exact Lock.awake_release _
    · intro who hwho
      simp at hwho
    · intro who
      simp [hwaits]

theorem writeOutcome (hs : task.stage = .running) {outcome : ExecutionOutcome} :
    Lined (st.writeOutcome id task outcome) := by
  have hidle : ¬ (st.connections task.connection).writeLock.Waiting (.task id) := by
    rw [h.waits, stageOn_eq _ ht, if_pos rfl, hs]
    simp [Stage.Waits]
  unfold RunnerRuntime.writeOutcome
  split
  · apply h.respond ht
    · rfl
    · grind
  · have hstage : ∀ c, st.stageOn c id = _ := fun c => stageOn_eq c ht
    obtain ⟨h1, h2, h3, h4, h5⟩ := h
    constructor
    all_goals simp only [setLock]
    all_goals grind

theorem wake {outcome : ExecutionOutcome} (hs : task.stage = .waiting outcome) :
    Lined (st.wake id task outcome) := by
  unfold RunnerRuntime.wake
  split
  · apply h.cleanup ht
    · exact Lock.awake_giveUp _ _
    · intro who hwho
      rw [Lock.giveUp_holder] at hwho
      refine ⟨?_, hwho⟩
      rintro rfl
      have hheld := h.held _ _ hwho
      rw [stageOn_eq _ ht, if_pos rfl, hs] at hheld
      cases hheld
    · intro who
      exact Lock.waiting_giveUp _ _ _
  · apply h.respond ht
    · rfl
    · intro who
      exact Lock.waiting_resume _ _ _

theorem drained (hs : task.stage = .draining) :
    Lined ((st.setLock task.connection Lock.release).cleanup id task) := by
  have hidle : ¬ (st.connections task.connection).writeLock.Waiting (.task id) := by
    rw [h.waits, stageOn_eq _ ht, if_pos rfl, hs]
    simp [Stage.Waits]
  apply h.cleanup ht
  · exact Lock.awake_release _
  · intro who hwho
    simp at hwho
  · grind

-- The task ends without having come to the lock.
theorem escape (hs : task.stage = .running) : Lined (st.cleanup id task) := by
  have hidle : ¬ (st.connections task.connection).writeLock.Waiting (.task id) := by
    rw [h.waits, stageOn_eq _ ht, if_pos rfl, hs]
    simp [Stage.Waits]
  rw [← setLock_self st task.connection]
  apply h.cleanup ht
  · exact h.awake _
  · intro who hwho
    refine ⟨?_, hwho⟩
    rintro rfl
    have hheld := h.held _ _ hwho
    rw [stageOn_eq _ ht, if_pos rfl, hs] at hheld
    cases hheld
  · grind

end Tasks

theorem move {event : Event} {later : RunnerRuntime} (hm : Move registered st event later)
    (hnew : st.tasks st.nextTask = none) : Lined later := by
  cases hm with
  | accept _ _ => exact h.accept _ _ hnew
  | refuse hp => exact h.refuse hp
  | ignore => exact h
  | cancel _ _ => exact h.congr rfl rfl
  | teardown hp => exact h.teardown hp
  | track hq =>
      apply track
      exact h.congr rfl rfl
  | start ht hs => exact h.begin ht hs
  | interrupt ht hs => exact h.interrupt ht
  | answer ht hs _ => exact h.writeOutcome ht hs
  | escape ht hs _ => exact h.escape ht hs
  | resume ht hs => exact h.wake ht hs
  | drained ht hs => exact h.drained ht hs
  | resumeLoop hp => exact h.resumeLoop hp
  | drainedLoop hp => exact h.drainedLoop hp

end Lined

theorem lined_start : Lined {} := by
  constructor
  · intro c
    right
    intro first hfirst
    cases hfirst
  · intro c id hheld
    cases hheld
  · intro c hheld
    cases hheld
  · intro c id
    simp [Lock.Waiting, stageOn]
  · intro c hwaits
    simp [Lock.Waiting] at hwaits

-- Nothing is left to be done but what a connection may bring.
def Quiet (registered : String → Bool) (st : RunnerRuntime) : Prop :=
  ∀ event, event.Incoming = false → step registered event st = none

namespace Quiet

variable {registered : String → Bool} {st : RunnerRuntime} (hq : Quiet registered st)
include hq

theorem queue : st.queue = [] := by
  cases hqueue : st.queue with
  | nil => rfl
  | cons event rest =>
      have hstuck := hq .track rfl
      simp [step, hqueue] at hstuck

-- Nobody has the lock of a connection to itself.
theorem holder (h : Lined st) (c : ConnectionId) :
    (st.connections c).writeLock.holder = none := by
  cases hholder : (st.connections c).writeLock.holder with
  | none => rfl
  | some who =>
      exfalso
      cases who with
      | loop =>
          have hstuck := hq (.drainedLoop c) rfl
          simp [step, h.heldLoop c hholder] at hstuck
      | task id =>
          obtain ⟨task, ht, -, hs⟩ := exists_of_stageOn (h.held c id hholder)
          have hstuck := hq (.drained id) rfl
          simp [step, ht, hs] at hstuck

-- Nobody waits for it either.
theorem not_waiting (h : Lined st) (c : ConnectionId) (who : Writer) :
    ¬ (st.connections c).writeLock.Waiting who := by
  intro hwaiting
  obtain ⟨first, hfirst, hresumes⟩ :=
    Lock.exists_resumes _ _ (h.awake c) (hq.holder h c) hwaiting
  cases first with
  | loop =>
      have hphase := h.waitsLoop c hfirst
      cases hp : (st.connections c).phase with
      | refusing outcome =>
          have hstuck := hq (.resumeLoop c) rfl
          simp [step, hp, hresumes] at hstuck
      | reading | draining | closed =>
          rw [hp] at hphase
          cases hphase
  | task id =>
      obtain ⟨stage, hstage, hwaits⟩ := (Option.any_eq_true _ _).mp ((h.waits c id).mp hfirst)
      obtain ⟨task, ht, rfl, rfl⟩ := exists_of_stageOn hstage
      cases hs : task.stage with
      | waiting outcome =>
          have hstuck := hq (.resume id) rfl
          simp [step, ht, hs, hresumes] at hstuck
      | created | running | draining | ended =>
          rw [hs] at hwaits
          cases hwaits

-- No task is kept from going on, so that in the end each of them is over.
theorem ended (h : Lined st) {id : TaskId} {task : Task} (ht : st.tasks id = some task) :
    task.stage = .ended := by
  cases hs : task.stage with
  | ended => rfl
  | created =>
      have hstuck := hq (.start id) rfl
      simp [step, ht, hs] at hstuck
  | running =>
      have hstuck := hq (.finish id .cancelled) rfl
      simp [step, ht, hs, Ending.Possible, Ending.outcome] at hstuck
  | waiting outcome =>
      exfalso
      apply hq.not_waiting h task.connection (.task id)
      rw [h.waits, stageOn_eq _ ht, if_pos rfl, hs]
      rfl
  | draining =>
      have hstuck := hq (.drained id) rfl
      simp [step, ht, hs] at hstuck

end Quiet

end RunnerRuntime

end Rrq.Runtime.Python
