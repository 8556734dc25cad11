import Rrq.Runtime.Rust

namespace Rrq.Runtime.Rust

-- The entry that a cancel or a teardown has in hand, having taken it out of the map.

def CancelStage.handled : CancelStage → Option (RequestId × InFlightTask)
  | next => none
  | taken requestId entry | aborted requestId entry | deactivated requestId entry
  | answered requestId entry => some (requestId, entry)

def DrainStage.handled : DrainStage → Option (RequestId × InFlightTask)
  | next => none
  | taken requestId entry | aborted requestId entry => some (requestId, entry)

@[simp, grind] def Phase.handled : Phase → Option (RequestId × InFlightTask)
  | cancelling _ _ stage => stage.handled
  | draining _ stage => stage.handled
  | _ => none

-- The loop has a task to register.
def Phase.Registers : Phase → Bool
  | tracking _ _ | indexing _ _ => true
  | _ => false

-- The connection whose loop takes the step.
def Event.connection : Event → Option ConnectionId
  | .receive connection _ | .endOfStream connection | .readFails connection
  | .act connection _ => some connection
  | _ => none
attribute [simp, grind] CancelStage.handled DrainStage.handled

namespace RunnerRuntime

def active (st : RunnerRuntime) (connection : ConnectionId) : List RequestId :=
  (st.connections connection).connectionRequests

-- What the single accesses change and what they leave alone.

section Accesses

variable (st : RunnerRuntime) (connection other : ConnectionId) (id later : TaskId)

attribute [simp, grind =]
  moveTo_inFlight moveTo_jobIndex moveTo_tasks moveTo_nextTask moveTo_tracked moveTo_indexed
  moveTo_taken moveTo_told
  respond_inFlight respond_jobIndex respond_tasks respond_nextTask respond_tracked
  respond_indexed respond_taken respond_told
  deactivate_inFlight deactivate_jobIndex deactivate_tasks deactivate_nextTask
  deactivate_tracked deactivate_indexed deactivate_taken deactivate_told
  setTask_inFlight setTask_jobIndex setTask_nextTask setTask_connections setTask_tracked
  setTask_indexed setTask_taken setTask_told
  removeInFlight_jobIndex removeInFlight_tasks removeInFlight_nextTask
  removeInFlight_connections removeInFlight_tracked removeInFlight_indexed removeInFlight_taken
  removeInFlight_told
  setEntries_inFlight setEntries_tasks setEntries_nextTask setEntries_connections
  setEntries_tracked setEntries_indexed setEntries_taken setEntries_told
  spawn_inFlight spawn_jobIndex spawn_nextTask spawn_tracked spawn_indexed spawn_taken spawn_told
  track_jobIndex track_tasks track_nextTask track_indexed track_taken track_told
  index_inFlight index_tasks index_nextTask index_tracked index_taken index_told
  noteTaken_inFlight noteTaken_jobIndex noteTaken_tasks noteTaken_nextTask noteTaken_connections
  noteTaken_tracked noteTaken_indexed noteTaken_told
  noteTold_inFlight noteTold_jobIndex noteTold_tasks noteTold_nextTask noteTold_connections
  noteTold_tracked noteTold_indexed noteTold_taken

@[simp, grind =] theorem phase_modify (update : Connection → Connection) :
    (st.modify connection update).phase other =
      if other = connection then (update (st.connections connection)).phase
      else st.phase other := by
  unfold phase
  by_cases ho : other = connection
  · simp [ho]
  · simp [ho]

theorem phase_modify_of_eq {update : Connection → Connection}
    (hphase : ∀ c, (update c).phase = c.phase) :
    (st.modify connection update).phase other = st.phase other := by
  rw [phase_modify]
  by_cases ho : other = connection
  · rw [if_pos ho, ho]
    exact hphase _
  · rw [if_neg ho]

@[simp, grind =] theorem phase_moveTo (phase : Phase) :
    (st.moveTo connection phase).phase other =
      if other = connection then phase else st.phase other :=
  phase_modify st connection other _

@[simp, grind =] theorem phase_respond (response : Response) :
    (st.respond connection response).phase other = st.phase other :=
  phase_modify_of_eq st connection other fun _ => rfl

@[simp, grind =] theorem phase_deactivate (requestId : RequestId) :
    (st.deactivate connection requestId).phase other = st.phase other :=
  phase_modify_of_eq st connection other fun _ => rfl

@[simp, grind =] theorem phase_setTask (value : Task) :
    (st.setTask id value).phase other = st.phase other := rfl

@[simp, grind =] theorem phase_removeInFlight (requestId : RequestId) :
    (st.removeInFlight requestId).phase other = st.phase other := rfl

@[simp, grind =] theorem phase_abort : (st.abort id).phase other = st.phase other := by
  unfold abort
  split <;> rfl

@[simp, grind =] theorem phase_noteTaken : (st.noteTaken id).phase other = st.phase other := rfl

@[simp, grind =] theorem phase_noteTold : (st.noteTold id).phase other = st.phase other := rfl

@[simp, grind =] theorem taken_noteTaken :
    (st.noteTaken id).taken later = if later = id then true else st.taken later := by
  rw [noteTaken_taken, Function.update_apply]

@[simp, grind =] theorem told_noteTold :
    (st.noteTold id).told later = if later = id then true else st.told later := by
  rw [noteTold_told, Function.update_apply]

@[simp, grind =] theorem phase_setEntries (jobId : JobId) (entries : List RequestId) :
    (st.setEntries jobId entries).phase other = st.phase other := rfl

@[simp, grind =] theorem tasks_setTask (value : Task) :
    (st.setTask id value).tasks later = if later = id then some value else st.tasks later := by
  rw [setTask_tasks, Function.update_apply]

-- A task is the one that is set, or another that is as it was.
theorem setTask_cases {st : RunnerRuntime} {id later : TaskId} {value task : Task}
    (h : (st.setTask id value).tasks later = some task) :
    (later = id ∧ value = task) ∨ (later ≠ id ∧ st.tasks later = some task) := by
  rw [tasks_setTask] at h
  by_cases hlater : later = id
  · rw [if_pos hlater] at h
    exact .inl ⟨hlater, Option.some.inj h⟩
  · rw [if_neg hlater] at h
    exact .inr ⟨hlater, h⟩

@[simp, grind =] theorem tasks_abort :
    (st.abort id).tasks later = if later = id then
      (st.tasks id).map fun task => { task with aborted := true } else st.tasks later := by
  unfold abort
  cases ht : st.tasks id with
  | none =>
      by_cases hl : later = id
      · simp [hl, ht]
      · simp [hl]
  | some task => simp [Function.update_apply]

@[simp, grind =] theorem inFlight_removeInFlight (requestId other : RequestId) :
    (st.removeInFlight requestId).inFlight other =
      if other = requestId then none else st.inFlight other := by
  rw [removeInFlight_inFlight, Function.update_apply]

@[simp, grind =] theorem entries_setEntries (jobId other : JobId) (entries : List RequestId) :
    (st.setEntries jobId entries).entries other =
      if other = jobId then entries else st.entries other := by
  unfold RunnerRuntime.entries
  by_cases ho : other = jobId
  · subst ho
    by_cases he : entries = [] <;> simp [he]
  · simp [ho]

@[simp, grind =] theorem phase_spawn (request : ExecutionRequest) :
    (st.spawn connection request).phase other =
      if other = connection then .tracking request st.nextTask else st.phase other := by
  unfold phase
  by_cases ho : other = connection
  · simp [ho]
  · simp [ho]

@[simp, grind =] theorem tasks_spawn (request : ExecutionRequest) :
    (st.spawn connection request).tasks id =
      if id = st.nextTask then some { connection, request } else st.tasks id := by
  rw [spawn_tasks, Function.update_apply, modify_tasks]

@[simp, grind =] theorem phase_track (request : ExecutionRequest) :
    (st.track connection request id).phase other =
      if other = connection then .indexing request id else st.phase other :=
  phase_moveTo st connection other _

@[simp, grind =] theorem inFlight_track (request : ExecutionRequest) (requestId : RequestId) :
    (st.track connection request id).inFlight requestId =
      if requestId = request.requestId then
        some { jobId := request.jobId, handle := id, connection }
      else st.inFlight requestId := by
  rw [track_inFlight, Function.update_apply]

@[simp, grind =] theorem tracked_track (request : ExecutionRequest) :
    (st.track connection request id).tracked later =
      if later = id then true else st.tracked later := by
  rw [track_tracked, Function.update_apply]

@[simp, grind =] theorem phase_index (request : ExecutionRequest) :
    (st.index connection request id).phase other =
      if other = connection then .reading else st.phase other :=
  phase_moveTo _ connection other _

@[simp, grind =] theorem indexed_index (request : ExecutionRequest) :
    (st.index connection request id).indexed later =
      if later = id then true else st.indexed later := by
  rw [index_indexed, Function.update_apply]

@[simp, grind =] theorem entries_index (request : ExecutionRequest) (jobId : JobId) :
    (st.index connection request id).entries jobId =
      if jobId = request.jobId then insertEntry (st.entries request.jobId) request.requestId
      else st.entries jobId :=
  entries_setEntries st request.jobId jobId _

@[simp, grind =] theorem active_moveTo (phase : Phase) :
    (st.moveTo connection phase).active other = st.active other := by
  unfold active
  by_cases ho : other = connection <;> simp [ho]

@[simp, grind =] theorem active_respond (response : Response) :
    (st.respond connection response).active other = st.active other := by
  unfold active
  by_cases ho : other = connection <;> simp [ho]

@[simp, grind =] theorem active_deactivate (requestId : RequestId) :
    (st.deactivate connection requestId).active other =
      if other = connection then removeEntry (st.active connection) requestId
      else st.active other := by
  unfold active
  by_cases ho : other = connection <;> simp [ho]

@[simp, grind =] theorem active_spawn (request : ExecutionRequest) :
    (st.spawn connection request).active other =
      if other = connection then insertEntry (st.active connection) request.requestId
      else st.active other := by
  unfold active
  by_cases ho : other = connection <;> simp [ho]

@[simp, grind =] theorem mem_insertEntry {entries : List RequestId} {requestId other : RequestId} :
    other ∈ insertEntry entries requestId ↔ other = requestId ∨ other ∈ entries := by
  unfold insertEntry
  by_cases h : requestId ∈ entries
  · rw [if_pos h]
    constructor
    · exact .inr
    · rintro (rfl | ho)
      · exact h
      · exact ho
  · simp [h, or_comm]

@[simp, grind =] theorem mem_removeEntry {entries : List RequestId} {requestId other : RequestId} :
    other ∈ removeEntry entries requestId ↔ other ∈ entries ∧ other ≠ requestId := by
  simp [removeEntry]

end Accesses

-- The entry belongs to a task that has been spawned for the request.
def Fits (st : RunnerRuntime) (requestId : RequestId) (entry : InFlightTask) : Prop :=
  ∃ task, st.tasks entry.handle = some task ∧ task.connection = entry.connection ∧
    task.request.requestId = requestId ∧ task.request.jobId = entry.jobId

-- The task has had its entry and has lost it.
def Parted (st : RunnerRuntime) (id : TaskId) : Prop :=
  st.tracked id = true ∧ ∀ requestId entry, st.inFlight requestId = some entry → entry.handle ≠ id

-- A loop has the entry of the task in hand.
def Busy (st : RunnerRuntime) (id : TaskId) : Prop :=
  ∃ connection requestId entry,
    (st.phase connection).handled = some (requestId, entry) ∧ entry.handle = id

theorem Busy.mono {st later : RunnerRuntime}
    (h : ∀ connection, (st.phase connection).handled = none ∨
      (later.phase connection).handled = (st.phase connection).handled)
    {id : TaskId} (hbusy : st.Busy id) : later.Busy id := by
  obtain ⟨connection, requestId, entry, hhandled, hentry⟩ := hbusy
  rcases h connection with hnone | hsame
  · rw [hnone] at hhandled
    cases hhandled
  · exact ⟨connection, requestId, entry, hsame.trans hhandled, hentry⟩

-- A loop goes on that has nothing in hand, or keeps it.
theorem Busy.move {st later : RunnerRuntime} {connection : ConnectionId} {phase : Phase}
    (hphase : ∀ other, later.phase other = if other = connection then phase else st.phase other)
    (h : (st.phase connection).handled = none ∨
      phase.handled = (st.phase connection).handled)
    (id : TaskId) (hbusy : st.Busy id) : later.Busy id := by
  refine hbusy.mono fun other => ?_
  rw [hphase]
  by_cases ho : other = connection
  · rwa [if_pos ho, ho]
  · exact .inr (by rw [if_neg ho])

def Spawned (st : RunnerRuntime) (connection : ConnectionId) (request : ExecutionRequest)
    (id : TaskId) : Prop :=
  ∃ task, st.tasks id = some task ∧ task.connection = connection ∧ task.request = request

-- A task is spawned, gets its entry in the one map and then in the other, and loses the first
-- for good before it can be aborted.
structure Registered (st : RunnerRuntime) : Prop where
  fresh : ∀ id, st.nextTask ≤ id → st.tasks id = none
  known : ∀ id, st.tracked id = true ∨ st.indexed id = true → id < st.nextTask
  tracking : ∀ connection request id, st.phase connection = .tracking request id →
    st.Spawned connection request id ∧ st.tracked id = false ∧ st.indexed id = false
  indexing : ∀ connection request id, st.phase connection = .indexing request id →
    st.Spawned connection request id ∧ st.tracked id = true ∧ st.indexed id = false
  inFlight : ∀ requestId entry, st.inFlight requestId = some entry →
    st.tracked entry.handle = true ∧ st.Fits requestId entry
  handled : ∀ connection requestId entry,
    (st.phase connection).handled = some (requestId, entry) →
      st.Parted entry.handle ∧ st.Fits requestId entry
  aborted : ∀ id task, st.tasks id = some task → task.aborted = true → st.Parted id
  dropped : ∀ id task, st.tasks id = some task → task.stage = .dropped → task.aborted = true
  taken : ∀ id, st.taken id = true → st.Parted id

attribute [grind] Fits Parted Spawned

theorem whileReading_eq_some {st next later : RunnerRuntime} {connection : ConnectionId}
    (h : st.whileReading connection next = some later) :
    st.phase connection = .reading ∧ next = later := by
  unfold whileReading at h
  split at h
  · exact ⟨‹_›, Option.some.inj h⟩
  · cases h

theorem ofExecution_ne_dropped (outcome : Option ExecutionOutcome) :
    Stage.ofExecution outcome ≠ .dropped := by
  cases outcome <;> exact nofun

theorem finish_eq_some {registered : String → Bool} {st later : RunnerRuntime} {id : TaskId}
    {ending : Ending} (h : step registered (.finish id ending) st = some later) :
    ∃ task, st.tasks id = some task ∧ task.stage = .running ∧
      ending.Possible registered task.request = true ∧
      later = st.setTask id
        { task with stage := .ofExecution (executeWithDeadline task.request ending) } := by
  obtain ⟨task, ht, h⟩ := Option.bind_eq_some_iff.mp h
  split at h
  · obtain ⟨hcond, h⟩ := Option.ite_none_right_eq_some.mp h
    exact ⟨task, ht, ‹_›, hcond.2, (Option.some.inj h).symm⟩
  · cases h

namespace Registered

variable {st : RunnerRuntime} (h : Registered st)
include h

theorem lt_nextTask {id : TaskId} {task : Task} (ht : st.tasks id = some task) :
    id < st.nextTask := by
  by_contra hge
  rw [h.fresh id (Nat.le_of_not_lt hge)] at ht
  cases ht

-- What is registered may be read off a state that agrees on all of this.
theorem congr {later : RunnerRuntime} (hnext : later.nextTask = st.nextTask)
    (htasks : later.tasks = st.tasks) (hflight : later.inFlight = st.inFlight)
    (htracked : later.tracked = st.tracked) (hindexed : later.indexed = st.indexed)
    (htaken : later.taken = st.taken)
    (hphase : ∀ connection, later.phase connection = st.phase connection) :
    Registered later := by
  obtain ⟨h1, h2, h3, h4, h5, h6, h7, h8, h9⟩ := h
  constructor <;>
    simpa only [hnext, htasks, hflight, htracked, hindexed, htaken, hphase, Fits, Parted, Spawned]

theorem moveTo {connection : ConnectionId} {phase : Phase}
    (hregisters : phase.Registers = false)
    (hhandled : ∀ requestId entry, phase.handled = some (requestId, entry) →
      st.Parted entry.handle ∧ st.Fits requestId entry) :
    Registered (st.moveTo connection phase) where
  fresh := h.fresh
  known := h.known
  tracking other request id hp := by
    rw [phase_moveTo] at hp
    by_cases ho : other = connection
    · rw [if_pos ho] at hp
      subst hp
      cases hregisters
    · rw [if_neg ho] at hp
      exact h.tracking other request id hp
  indexing other request id hp := by
    rw [phase_moveTo] at hp
    by_cases ho : other = connection
    · rw [if_pos ho] at hp
      subst hp
      cases hregisters
    · rw [if_neg ho] at hp
      exact h.indexing other request id hp
  inFlight := h.inFlight
  handled other requestId entry hp := by
    rw [phase_moveTo] at hp
    by_cases ho : other = connection
    · rw [if_pos ho] at hp
      exact hhandled requestId entry hp
    · rw [if_neg ho] at hp
      exact h.handled other requestId entry hp
  aborted := h.aborted
  dropped := h.dropped
  taken := h.taken

-- The loop keeps what it has in hand or has nothing in hand.
theorem moveOn {connection : ConnectionId} {phase : Phase} (hregisters : phase.Registers = false)
    (hhandled : phase.handled = none ∨ phase.handled = (st.phase connection).handled) :
    Registered (st.moveTo connection phase) := by
  apply h.moveTo hregisters
  intro requestId entry hp
  rcases hhandled with hnone | hsame
  · rw [hnone] at hp
    cases hp
  · exact h.handled connection requestId entry (hsame ▸ hp)

theorem respond (connection : ConnectionId) (response : Response) :
    Registered (st.respond connection response) :=
  h.congr rfl rfl rfl rfl rfl rfl (phase_respond st connection · response)

theorem deactivate (connection : ConnectionId) (requestId : RequestId) :
    Registered (st.deactivate connection requestId) :=
  h.congr rfl rfl rfl rfl rfl rfl (phase_deactivate st connection · requestId)

theorem setEntries (jobId : JobId) (entries : List RequestId) :
    Registered (st.setEntries jobId entries) :=
  h.congr rfl rfl rfl rfl rfl rfl fun _ => rfl

-- An entry that goes takes nothing with it.
theorem removeInFlight (requestId : RequestId) : Registered (st.removeInFlight requestId) := by
  obtain ⟨h1, h2, h3, h4, h5, h6, h7, h8, h9⟩ := h
  constructor
  case fresh | known | tracking | indexing | dropped => assumption
  all_goals grind

theorem setTask {id : TaskId} {task value : Task} (ht : st.tasks id = some task)
    (hconnection : value.connection = task.connection) (hrequest : value.request = task.request)
    (haborted : value.aborted = true → st.Parted id)
    (hdropped : value.stage = .dropped → value.aborted = true) :
    Registered (st.setTask id value) := by
  have hlt := h.lt_nextTask ht
  obtain ⟨h1, h2, h3, h4, h5, h6, h7, h8, h9⟩ := h
  constructor
  all_goals grind

theorem abort {id : TaskId} (hparted : st.Parted id) : Registered (st.abort id) := by
  unfold RunnerRuntime.abort
  cases ht : st.tasks id with
  | none => exact h
  | some task => exact h.setTask ht rfl rfl (fun _ => hparted) fun _ => rfl

theorem spawn (connection : ConnectionId) (request : ExecutionRequest) :
    Registered (st.spawn connection request) := by
  have hlt : ∀ id task, st.tasks id = some task → id < st.nextTask := fun _ _ => h.lt_nextTask
  have huntracked : st.tracked st.nextTask = false := by
    by_contra htracked
    exact Nat.lt_irrefl _ (h.known st.nextTask (.inl (by simpa using htracked)))
  have hunindexed : st.indexed st.nextTask = false := by
    by_contra hindexed
    exact Nat.lt_irrefl _ (h.known st.nextTask (.inr (by simpa using hindexed)))
  have hspawned : (st.spawn connection request).Spawned connection request st.nextTask :=
    ⟨_, (tasks_spawn st connection st.nextTask request).trans (if_pos rfl), rfl, rfl⟩
  obtain ⟨h1, h2, h3, h4, h5, h6, h7, h8, h9⟩ := h
  constructor
  all_goals grind

theorem track {connection : ConnectionId} {request : ExecutionRequest} {id : TaskId}
    (hp : st.phase connection = .tracking request id) :
    Registered (st.track connection request id) := by
  obtain ⟨hspawned, huntracked, hunindexed⟩ := h.tracking connection request id hp
  have hlt : id < st.nextTask := h.lt_nextTask hspawned.choose_spec.1
  obtain ⟨h1, h2, h3, h4, h5, h6, h7, h8, h9⟩ := h
  constructor
  all_goals grind

theorem index {connection : ConnectionId} {request : ExecutionRequest} {id : TaskId}
    (hp : st.phase connection = .indexing request id) :
    Registered (st.index connection request id) := by
  obtain ⟨hspawned, htracked, hunindexed⟩ := h.indexing connection request id hp
  have hlt : id < st.nextTask := h.lt_nextTask hspawned.choose_spec.1
  obtain ⟨h1, h2, h3, h4, h5, h6, h7, h8, h9⟩ := h
  constructor
  all_goals grind

-- A cancel takes an entry out of the map, and so does the teardown.

theorem fits_handle {requestId other : RequestId} {entry found : InFlightTask}
    (he : st.inFlight requestId = some entry) (hf : st.inFlight other = some found)
    (hhandle : found.handle = entry.handle) : other = requestId := by
  obtain ⟨task, ht, -, hr, -⟩ := (h.inFlight requestId entry he).2
  obtain ⟨task', ht', -, hr', -⟩ := (h.inFlight other found hf).2
  rw [hhandle, ht] at ht'
  obtain rfl := Option.some.inj ht'
  exact hr'.symm.trans hr

theorem parted_removeInFlight {requestId : RequestId} {entry : InFlightTask}
    (he : st.inFlight requestId = some entry) :
    (st.removeInFlight requestId).Parted entry.handle := by
  apply And.intro (h.inFlight requestId entry he).1
  intro other found hf hhandle
  rw [inFlight_removeInFlight] at hf
  obtain ⟨hne, hf⟩ := Option.ite_none_left_eq_some.mp hf
  exact hne (h.fits_handle he hf hhandle)

theorem noteTaken {id : TaskId} (hparted : st.Parted id) : Registered (st.noteTaken id) := by
  obtain ⟨h1, h2, h3, h4, h5, h6, h7, h8, h9⟩ := h
  constructor
  case taken =>
    intro other ht
    rw [taken_noteTaken] at ht
    by_cases ho : other = id
    · exact ho ▸ hparted
    · rw [if_neg ho] at ht
      exact h9 other ht
  all_goals assumption

theorem noteTold (id : TaskId) : Registered (st.noteTold id) :=
  h.congr rfl rfl rfl rfl rfl rfl fun _ => rfl

theorem cancelStep {connection : ConnectionId} {payload : CancelRequest} {rest : List RequestId}
    {stage : CancelStage} (hp : st.phase connection = .cancelling payload rest stage)
    (sent : Bool) : Registered (st.cancelStep connection payload rest sent stage) := by
  have hhandled : ∀ requestId entry, stage.handled = some (requestId, entry) →
      st.Parted entry.handle ∧ st.Fits requestId entry := by
    intro requestId entry hs
    exact h.handled connection requestId entry (by rw [hp]; exact hs)
  cases stage with
  | next =>
      cases rest with
      | nil => exact h.moveOn rfl (.inl rfl)
      | cons requestId rest =>
          simp only [RunnerRuntime.cancelStep]
          cases he : st.inFlight requestId with
          | none => exact h.moveOn rfl (.inl rfl)
          | some entry =>
              dsimp only
              split
              · exact h.moveOn rfl (.inl rfl)
              · have hparted := h.parted_removeInFlight he
                apply ((h.removeInFlight requestId).noteTaken hparted).moveTo rfl
                intro other found hf
                obtain ⟨rfl, rfl⟩ := Prod.mk.injEq .. ▸ Option.some.inj hf
                exact ⟨hparted, (h.inFlight requestId entry he).2⟩
  | taken requestId entry =>
      apply (h.abort (hhandled requestId entry rfl).1).moveOn rfl
      simp [hp]
  | aborted requestId entry =>
      apply (h.deactivate entry.connection requestId).moveOn rfl
      simp [hp]
  | deactivated requestId entry =>
      cases sent with
      | false =>
          apply h.moveOn rfl
          simp [hp]
      | true =>
          apply ((h.respond entry.connection _).noteTold entry.handle).moveOn rfl
          simp [hp]
  | answered requestId entry => exact (h.setEntries _ _).moveOn rfl (.inl rfl)

theorem drainStep {connection : ConnectionId} {rest : List RequestId} {stage : DrainStage}
    (hp : st.phase connection = .draining rest stage) :
    Registered (st.drainStep connection rest stage) := by
  cases stage with
  | next =>
      cases rest with
      | nil => exact h.moveOn rfl (.inl rfl)
      | cons requestId rest =>
          simp only [RunnerRuntime.drainStep]
          cases he : st.inFlight requestId with
          | none => exact h.moveOn rfl (.inl rfl)
          | some entry =>
              apply (h.removeInFlight requestId).moveTo rfl
              intro other found hf
              obtain ⟨rfl, rfl⟩ := Prod.mk.injEq .. ▸ Option.some.inj hf
              exact ⟨h.parted_removeInFlight he, (h.inFlight requestId entry he).2⟩
  | taken requestId entry =>
      apply (h.abort (h.handled connection requestId entry (by simp [hp])).1).moveOn rfl
      simp [hp]
  | aborted requestId entry => exact (h.setEntries _ _).moveOn rfl (.inl rfl)

theorem advance {id : TaskId} {task : Task} (ht : st.tasks id = some task) (sent : Bool)
    {later : RunnerRuntime} (hlater : st.advance id task sent = some later) :
    Registered later := by
  have haborted : task.aborted = true → st.Parted id := h.aborted id task ht
  unfold RunnerRuntime.advance at hlater
  cases hs : task.stage with
  | finished outcome =>
      rw [hs] at hlater
      cases hlater
      exact h.setTask ht rfl rfl haborted nofun
  | marked outcome =>
      rw [hs] at hlater
      cases hlater
      cases sent with
      | false => exact h.setTask ht rfl rfl haborted nofun
      | true => exact (h.respond _ _).setTask ht rfl rfl haborted nofun
  | sent =>
      rw [hs] at hlater
      cases hlater
      have hremoved := h.removeInFlight task.request.requestId
      exact hremoved.setTask ht rfl rfl (hremoved.aborted id task ht) nofun
  | untracked =>
      rw [hs] at hlater
      cases hlater
      exact (h.setEntries _ _).setTask ht rfl rfl haborted nofun
  | unindexed =>
      rw [hs] at hlater
      cases hlater
      exact (h.deactivate _ _).setTask ht rfl rfl haborted nofun
  | running | ended | panicked | dropped =>
      rw [hs] at hlater
      cases hlater

theorem act {connection : ConnectionId} {sent : Bool} {later : RunnerRuntime}
    (hlater : st.act connection sent = some later) : Registered later := by
  unfold RunnerRuntime.act at hlater
  cases hp : st.phase connection with
  | admitting request =>
      rw [hp] at hlater
      cases hlater
      unfold RunnerRuntime.spawnOrRefuse
      split
      · split
        · exact (h.respond _ _).moveOn rfl (.inl rfl)
        · exact h.moveOn rfl (.inl rfl)
      · exact h.spawn connection request
  | tracking request id =>
      rw [hp] at hlater
      cases hlater
      exact h.track hp
  | indexing request id =>
      rw [hp] at hlater
      cases hlater
      exact h.index hp
  | cancelling payload rest stage =>
      rw [hp] at hlater
      cases hlater
      exact h.cancelStep hp sent
  | ended =>
      rw [hp] at hlater
      cases hlater
      have hdrained : Registered (st.modify connection fun c =>
          { c with connectionRequests := [] }) := by
        refine h.congr rfl rfl rfl rfl rfl rfl fun other => ?_
        exact phase_modify_of_eq st connection other fun _ => rfl
      exact hdrained.moveOn rfl (.inl rfl)
  | draining rest stage =>
      rw [hp] at hlater
      cases hlater
      exact h.drainStep hp
  | reading | returned =>
      rw [hp] at hlater
      cases hlater

theorem receive (connection : ConnectionId) (message : RunnerMessage) :
    Registered (st.receive connection message) := by
  cases message with
  | Request payload =>
      simp only [RunnerRuntime.receive]
      split
      · exact h.respond _ _
      · exact h.moveOn rfl (.inl rfl)
  | Response _ => exact h.respond _ _
  | Cancel payload =>
      simp only [RunnerRuntime.receive]
      split
      · exact h
      · exact h.moveOn rfl (.inl rfl)

theorem step {registered : String → Bool} {event : Event} {later : RunnerRuntime}
    (hlater : RunnerRuntime.step registered event st = some later) : Registered later := by
  cases event with
  | receive connection message =>
      obtain ⟨-, rfl⟩ := whileReading_eq_some hlater
      exact h.receive connection message
  | endOfStream connection =>
      obtain ⟨-, rfl⟩ := whileReading_eq_some hlater
      exact h.moveOn rfl (.inl rfl)
  | readFails connection =>
      obtain ⟨-, rfl⟩ := whileReading_eq_some hlater
      exact h.moveOn rfl (.inl rfl)
  | act connection sent => exact h.act hlater
  | poll id =>
      obtain ⟨task, ht, hlater⟩ := Option.bind_eq_some_iff.mp hlater
      obtain ⟨-, hlater⟩ := Option.ite_none_left_eq_some.mp hlater
      cases hlater
      exact h.setTask ht rfl rfl (h.aborted id task ht) (h.dropped id task ht)
  | pend id =>
      obtain ⟨task, ht, hlater⟩ := Option.bind_eq_some_iff.mp hlater
      obtain ⟨-, hlater⟩ := Option.ite_none_right_eq_some.mp hlater
      cases hlater
      exact h.setTask ht rfl rfl (h.aborted id task ht) (h.dropped id task ht)
  | finish id ending =>
      obtain ⟨task, ht, -, -, rfl⟩ := finish_eq_some hlater
      refine h.setTask ht rfl rfl (h.aborted id task ht) fun hdropped => ?_
      exact absurd hdropped (ofExecution_ne_dropped _)
  | advance id sent =>
      obtain ⟨task, ht, hlater⟩ := Option.bind_eq_some_iff.mp hlater
      obtain ⟨-, hlater⟩ := Option.ite_none_right_eq_some.mp hlater
      exact h.advance ht sent hlater
  | drop id =>
      obtain ⟨task, ht, hlater⟩ := Option.bind_eq_some_iff.mp hlater
      obtain ⟨hcond, hlater⟩ := Option.ite_none_right_eq_some.mp hlater
      cases hlater
      exact h.setTask ht rfl rfl (h.aborted id task ht) fun _ => hcond.1

end Registered

theorem registered_start : Registered {} where
  fresh _ _ := rfl
  known _ h := by rcases h with h | h <;> cases h
  tracking _ _ _ hp := by cases hp
  indexing _ _ _ hp := by cases hp
  inFlight _ _ he := by cases he
  handled _ _ _ hp := by cases hp
  aborted _ _ ht := by cases ht
  dropped _ _ ht := by cases ht
  taken _ ht := by cases ht

section Phases

variable {st : RunnerRuntime} {connection other : ConnectionId} (hne : other ≠ connection)
include hne

theorem phase_cancelStep (payload : CancelRequest) (rest : List RequestId) (sent : Bool)
    (stage : CancelStage) :
    (st.cancelStep connection payload rest sent stage).phase other = st.phase other := by
  cases stage with
  | next => cases rest <;> grind [cancelStep]
  | taken _ _ | aborted _ _ | deactivated _ _ | answered _ _ => grind [cancelStep, unindex]

theorem phase_drainStep (rest : List RequestId) (stage : DrainStage) :
    (st.drainStep connection rest stage).phase other = st.phase other := by
  cases stage with
  | next => cases rest <;> grind [drainStep]
  | taken _ _ | aborted _ _ => grind [drainStep, unindex]

theorem phase_act {sent : Bool} {later : RunnerRuntime}
    (h : st.act connection sent = some later) : later.phase other = st.phase other := by
  unfold act at h
  cases hp : st.phase connection <;> rw [hp] at h <;> cases h
  case admitting => grind [spawnOrRefuse]
  case tracking => grind
  case indexing => grind
  case cancelling => exact phase_cancelStep hne _ _ _ _
  case ended => grind
  case draining => exact phase_drainStep hne _ _

end Phases

-- A loop stands where it stood until it takes a step itself.
theorem phase_step {registered : String → Bool} {st later : RunnerRuntime} {event : Event}
    {other : ConnectionId} (ho : event.connection ≠ some other)
    (h : step registered event st = some later) : later.phase other = st.phase other := by
  cases event with
  | receive connection message =>
      obtain ⟨-, rfl⟩ := whileReading_eq_some h
      have hne : other ≠ connection := fun he => ho (congrArg some he.symm)
      cases message <;> grind [receive]
  | endOfStream connection =>
      obtain ⟨-, rfl⟩ := whileReading_eq_some h
      have hne : other ≠ connection := fun he => ho (congrArg some he.symm)
      rw [phase_moveTo, if_neg hne]
  | readFails connection =>
      obtain ⟨-, rfl⟩ := whileReading_eq_some h
      have hne : other ≠ connection := fun he => ho (congrArg some he.symm)
      rw [phase_moveTo, if_neg hne]
  | act connection sent =>
      have hne : other ≠ connection := fun he => ho (congrArg some he.symm)
      exact phase_act hne h
  | poll id | pend id | drop id | finish id _ =>
      obtain ⟨task, ht, h⟩ := Option.bind_eq_some_iff.mp h
      grind
  | advance id sent =>
      obtain ⟨task, ht, h⟩ := Option.bind_eq_some_iff.mp h
      grind [advance, unindex]

def sampleRequest : ExecutionRequest :=
  { requestId := "r", jobId := "j", functionName := "f"
    context :=
      { jobId := "j", attempt := 1, enqueueTime := ⟨0⟩, queueName := "q", deadline := none
        traceContext := none, correlationContext := none, workerId := none } }

def success : Ending := .handled { status := .Success }

end RunnerRuntime

end Rrq.Runtime.Rust
