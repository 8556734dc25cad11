import Rrq.Runtime.Rust.Registered

namespace Rrq.Runtime.Rust

namespace Stage

-- The task has removed its entry from the one map, and from the other.

@[simp, grind] def Untracked : Stage → Bool
  | untracked | unindexed | ended => true
  | _ => false

@[simp, grind] def Unindexed : Stage → Bool
  | unindexed | ended => true
  | _ => false

def Panicked : Stage → Bool
  | panicked => true
  | _ => false

end Stage

-- The requests that a teardown is still to go through.
def Phase.awaited (active : List RequestId) : Phase → List RequestId
  | draining rest _ => rest
  | returned => []
  | _ => active

namespace RunnerRuntime

-- What removes an entry comes after what makes it: a task gets as far as that only when the
-- loop has registered it, and nothing is removed from the job index before it is in there.
def registersFirst : Event → RunnerRuntime → Bool
  | .advance id _, st =>
      match (st.tasks id).map Task.stage with
      | some .sent => st.tracked id
      | some .untracked => st.indexed id
      | _ => true
  | .act connection _, st =>
      match st.phase connection with
      | .cancelling _ _ (.answered _ entry) => st.indexed entry.handle
      | .draining _ (.aborted _ entry) => st.indexed entry.handle
      | _ => true
  | _, _ => true

-- A task that has panicked removes nothing. What is registered for it is left to a cancel, and
-- to the teardown of its connection.

def awaited (st : RunnerRuntime) (connection : ConnectionId) : List RequestId :=
  (st.phase connection).awaited (st.active connection)

def panicked (st : RunnerRuntime) (id : TaskId) : Bool := (st.tasks id).any (·.stage.Panicked)

-- The connection of the task whose entry it is, when that task has panicked.
def lingering (st : RunnerRuntime) (requestId : RequestId) : Option ConnectionId :=
  (st.inFlight requestId).bind fun entry =>
    if st.panicked entry.handle then some entry.connection else none

def Holds (st : RunnerRuntime) (requestId : RequestId) (id : TaskId) : Prop :=
  (st.inFlight requestId).any (·.handle = id) = true

-- Somebody will remove the entry of a task that panics now.
def Attended (st : RunnerRuntime) (id : TaskId) (task : Task) : Prop :=
  task.aborted = true ∨ st.Busy id ∨
    st.Holds task.request.requestId id ∧ task.request.requestId ∈ st.awaited task.connection

-- The request may leave the active ones: it is not that of a task that waits for the teardown.
def Spares (st : RunnerRuntime) (connection : ConnectionId) (requestId : RequestId) : Prop :=
  st.lingering requestId = some connection → requestId ∉ st.active connection

-- The loop may return without a teardown.
def Unburdened (st : RunnerRuntime) (connection : ConnectionId) : Prop :=
  ∀ requestId ∈ st.active connection, st.lingering requestId ≠ some connection

-- No entry of a task that has panicked is given up: a handler panics while somebody is there to
-- remove the entry, the loop does not leave by an error before that is done, and no other
-- request of the same id gets in the way.
def coversPanics : Event → RunnerRuntime → Prop
  | .finish id .panicked, st => ∀ task, st.tasks id = some task → st.tracked id = true →
      st.Attended id task
  | .readFails connection, st => st.Unburdened connection
  | .act connection sent, st =>
      match st.phase connection with
      | .admitting _ => sent = false →
          RESPONSE_CHANNEL_CAPACITY ≤ (st.active connection).length → st.Unburdened connection
      | .tracking request id => st.lingering request.requestId = none ∧
          (st.panicked id = true → request.requestId ∈ st.active connection)
      | .cancelling _ _ (.aborted requestId entry) => st.Spares entry.connection requestId
      | _ => True
  | .advance id _, st => ∀ task, st.tasks id = some task →
      (task.stage = .sent → st.lingering task.request.requestId = none) ∧
      (task.stage = .unindexed → st.Spares task.connection task.request.requestId)
  | _, _ => True

-- The task is why its request is in the job index.
structure Keeps (st : RunnerRuntime) (requestId : RequestId) (jobId : JobId) (id : TaskId)
    (task : Task) : Prop where
  spawned : st.tasks id = some task
  request : task.request.requestId = requestId
  job : task.request.jobId = jobId
  tracked : st.tracked id = true
  stage : task.stage.Unindexed = false
  aborted : task.aborted = true → st.Busy id
  panicked : task.stage = .panicked → st.Busy id ∨ st.Holds requestId id

-- What is registered is registered for a task that will remove it, or a loop will.
structure Cleaned (st : RunnerRuntime) : Prop where
  inFlight : ∀ requestId entry task, st.inFlight requestId = some entry →
    st.tasks entry.handle = some task → task.stage.Untracked = false
  tracked : ∀ id task, st.tasks id = some task → task.stage.Untracked = true →
    st.tracked id = true
  indexed : ∀ id task, st.tasks id = some task → task.stage.Unindexed = true →
    st.indexed id = true
  aborted : ∀ id task, st.tasks id = some task → task.aborted = true →
    st.indexed id = true ∨ st.Busy id
  panicked : ∀ id task, st.tasks id = some task → task.stage = .panicked →
    st.tracked id = true →
      st.indexed id = true ∨ st.Busy id ∨ st.Holds task.request.requestId id
  awaited : ∀ requestId connection, st.lingering requestId = some connection →
    requestId ∈ st.awaited connection
  entries : ∀ requestId jobId, requestId ∈ st.entries jobId →
    ∃ id task, st.Keeps requestId jobId id task

theorem entries_congr {st later : RunnerRuntime} (h : later.jobIndex = st.jobIndex)
    (jobId : JobId) : later.entries jobId = st.entries jobId := by
  unfold RunnerRuntime.entries
  rw [h]

theorem holds_iff {st : RunnerRuntime} {requestId : RequestId} {id : TaskId} :
    st.Holds requestId id ↔ ∃ entry, st.inFlight requestId = some entry ∧ entry.handle = id := by
  simp [Holds, Option.any_eq_true]

theorem panicked_iff {st : RunnerRuntime} {id : TaskId} :
    st.panicked id = true ↔ ∃ task, st.tasks id = some task ∧ task.stage = .panicked := by
  have hstage : ∀ stage : Stage, stage.Panicked = true ↔ stage = .panicked := by
    intro stage
    cases stage <;> simp [Stage.Panicked]
  simp [panicked, Option.any_eq_true, hstage]

theorem lingering_iff {st : RunnerRuntime} {requestId : RequestId} {connection : ConnectionId} :
    st.lingering requestId = some connection ↔
      ∃ entry, st.inFlight requestId = some entry ∧ st.panicked entry.handle = true ∧
        entry.connection = connection := by
  simp [lingering, Option.bind_eq_some_iff]

theorem lingering_congr {st later : RunnerRuntime} {requestId : RequestId}
    (hflight : later.inFlight requestId = st.inFlight requestId)
    (htasks : later.tasks = st.tasks) : later.lingering requestId = st.lingering requestId := by
  unfold lingering panicked
  rw [hflight, htasks]

theorem Keeps.mono {st later : RunnerRuntime} {requestId : RequestId} {jobId : JobId}
    {id : TaskId} {task : Task} (h : st.Keeps requestId jobId id task)
    (hspawned : later.tasks id = some task)
    (htracked : st.tracked id = true → later.tracked id = true)
    (hbusy : st.Busy id → later.Busy id)
    (hholds : task.stage = .panicked → st.Holds requestId id →
      later.Busy id ∨ later.Holds requestId id) :
    later.Keeps requestId jobId id task where
  spawned := hspawned
  request := h.request
  job := h.job
  tracked := htracked h.tracked
  stage := h.stage
  aborted ha := hbusy (h.aborted ha)
  panicked hs := (h.panicked hs).elim (fun hb => .inl (hbusy hb)) (hholds hs)

-- How an access moves what a teardown is still to go through.

section Awaited

variable (st : RunnerRuntime) (connection other : ConnectionId)

theorem awaited_congr {later : RunnerRuntime}
    (hphase : later.phase other = st.phase other)
    (hactive : later.active other = st.active other) :
    later.awaited other = st.awaited other := by
  unfold awaited
  rw [hphase, hactive]

@[simp] theorem active_track (request : ExecutionRequest) (id : TaskId) :
    (st.track connection request id).active other = st.active other :=
  active_moveTo st connection other (.indexing request id)

@[simp] theorem active_index (request : ExecutionRequest) (id : TaskId) :
    (st.index connection request id).active other = st.active other :=
  active_moveTo (st.setEntries _ _) connection other .reading

theorem awaited_moveTo (phase : Phase) :
    (st.moveTo connection phase).awaited other =
      if other = connection then phase.awaited (st.active connection) else st.awaited other := by
  unfold awaited
  by_cases ho : other = connection
  · simp [ho]
  · simp [ho]

theorem awaited_respond (response : Response) :
    (st.respond connection response).awaited other = st.awaited other :=
  awaited_congr st other (phase_respond st connection other response) (active_respond ..)

theorem awaited_move {st later : RunnerRuntime} {connection : ConnectionId} {phase : Phase}
    (hphase : ∀ other, later.phase other = if other = connection then phase else st.phase other)
    (hactive : ∀ other, later.active other = st.active other)
    (hsame : phase.awaited (st.active connection) = st.awaited connection)
    (other : ConnectionId) : later.awaited other = st.awaited other := by
  unfold awaited at hsame ⊢
  rw [hphase, hactive]
  by_cases ho : other = connection
  · rw [if_pos ho, ho, hsame]
  · rw [if_neg ho]

end Awaited

namespace Cleaned

variable {st : RunnerRuntime} (h : Cleaned st)
include h

-- The loops may take more in hand, and the job index may lose what is in it.
theorem congr {later : RunnerRuntime} (htasks : later.tasks = st.tasks)
    (hflight : later.inFlight = st.inFlight)
    (htracked : later.tracked = st.tracked) (hindexed : later.indexed = st.indexed)
    (hindex : ∀ jobId requestId, requestId ∈ later.entries jobId → requestId ∈ st.entries jobId)
    (hphase : ∀ connection, (st.phase connection).handled = none ∨
      (later.phase connection).handled = (st.phase connection).handled)
    (hawaited : ∀ requestId connection, st.lingering requestId = some connection →
      requestId ∈ st.awaited connection → requestId ∈ later.awaited connection) :
    Cleaned later := by
  have hbusy : ∀ id, st.Busy id → later.Busy id := fun _ hb => hb.mono hphase
  have hholds : ∀ requestId id, st.Holds requestId id → later.Holds requestId id := by
    intro requestId id hh
    unfold Holds
    rw [hflight]
    exact hh
  constructor
  case inFlight =>
    intro requestId entry task he ht
    rw [hflight] at he
    exact h.inFlight requestId entry task he (htasks ▸ ht)
  case tracked =>
    intro id task ht hs
    rw [htracked]
    exact h.tracked id task (htasks ▸ ht) hs
  case indexed =>
    intro id task ht hs
    rw [hindexed]
    exact h.indexed id task (htasks ▸ ht) hs
  case aborted =>
    intro id task ht ha
    rw [hindexed]
    exact (h.aborted id task (htasks ▸ ht) ha).imp_right (hbusy id)
  case panicked =>
    intro id task ht hs hid
    rw [htracked] at hid
    rw [hindexed]
    exact (h.panicked id task (htasks ▸ ht) hs hid).imp_right (.imp (hbusy id) (hholds _ id))
  case awaited =>
    intro requestId connection hl
    rw [lingering_congr (congrFun hflight requestId) htasks] at hl
    exact hawaited requestId connection hl (h.awaited requestId connection hl)
  case entries =>
    intro requestId jobId hr
    obtain ⟨id, task, hkeeps⟩ := h.entries requestId jobId (hindex jobId requestId hr)
    refine ⟨id, task, hkeeps.mono ?_ ?_ (hbusy id) fun _ hh => .inr (hholds _ id hh)⟩
    · rw [htasks]
      exact hkeeps.spawned
    · rw [htracked]
      exact fun ht => ht

theorem moveTo {connection : ConnectionId} {phase : Phase}
    (hphase : (st.phase connection).handled = none ∨
      phase.handled = (st.phase connection).handled)
    (hawaited : ∀ requestId, st.lingering requestId = some connection →
      requestId ∈ st.awaited connection → requestId ∈ phase.awaited (st.active connection)) :
    Cleaned (st.moveTo connection phase) := by
  refine h.congr rfl rfl rfl rfl (fun _ _ hr => hr) (fun other => ?_)
    fun requestId other hl hr => ?_
  · rw [phase_moveTo]
    by_cases ho : other = connection
    · subst ho
      simpa using hphase
    · simp [ho]
  · rw [awaited_moveTo]
    by_cases ho : other = connection
    · subst ho
      rw [if_pos rfl]
      exact hawaited requestId hl hr
    · rwa [if_neg ho]

-- The teardown does not come any nearer.
theorem moveOn {connection : ConnectionId} {phase : Phase}
    (hphase : (st.phase connection).handled = none ∨
      phase.handled = (st.phase connection).handled)
    (hawaited : phase.awaited (st.active connection) = st.awaited connection) :
    Cleaned (st.moveTo connection phase) :=
  h.moveTo hphase fun _ _ hr => hawaited ▸ hr

theorem noteTaken (id : TaskId) : Cleaned (st.noteTaken id) :=
  h.congr rfl rfl rfl rfl (fun _ _ hr => hr) (fun _ => .inr rfl) fun _ _ _ hr => hr

theorem noteTold (id : TaskId) : Cleaned (st.noteTold id) :=
  h.congr rfl rfl rfl rfl (fun _ _ hr => hr) (fun _ => .inr rfl) fun _ _ _ hr => hr

theorem respond (connection : ConnectionId) (response : Response) :
    Cleaned (st.respond connection response) := by
  refine h.congr rfl rfl rfl rfl (fun _ _ hr => hr) (fun other => .inr ?_) fun _ other _ hr => ?_
  · rw [phase_respond]
  · rwa [awaited_respond]

theorem deactivate {connection : ConnectionId} {requestId : RequestId}
    (hspares : st.Spares connection requestId) : Cleaned (st.deactivate connection requestId) := by
  refine h.congr rfl rfl rfl rfl (fun _ _ hr => hr) (fun other => .inr ?_)
    fun found other hl hr => ?_
  · rw [phase_deactivate]
  · unfold RunnerRuntime.awaited at hr ⊢
    rw [phase_deactivate, active_deactivate]
    by_cases ho : other = connection
    · subst ho
      have hsame : found ∈ st.active other → found ∈ removeEntry (st.active other) requestId := by
        intro hmem
        refine mem_removeEntry.mpr ⟨hmem, fun he => ?_⟩
        subst he
        exact hspares hl hmem
      rw [if_pos rfl]
      cases hp : st.phase other with
      | draining rest stage =>
          rw [hp] at hr
          exact hr
      | returned =>
          rw [hp] at hr
          cases hr
      | reading | admitting _ | tracking _ _ | indexing _ _ | cancelling _ _ _ | ended =>
          rw [hp] at hr
          exact hsame hr
    · rwa [if_neg ho]

theorem unindex (jobId : JobId) (requestId : RequestId) : Cleaned (st.unindex jobId requestId) := by
  refine h.congr rfl rfl rfl rfl (fun other found hr => ?_) (fun _ => .inr rfl) fun _ _ _ hr => hr
  rw [RunnerRuntime.unindex, entries_setEntries] at hr
  by_cases ho : other = jobId
  · rw [if_pos ho] at hr
    exact ho ▸ (mem_removeEntry.mp hr).1
  · rwa [if_neg ho] at hr

-- An entry goes, and it is not that of a task that has panicked.
theorem removeInFlight {requestId : RequestId} (hnone : st.lingering requestId = none) :
    Cleaned (st.removeInFlight requestId) := by
  have hholds : ∀ other id task, st.tasks id = some task → task.stage = .panicked →
      st.Holds other id → (st.removeInFlight requestId).Holds other id := by
    intro other id task ht hs hh
    obtain ⟨entry, he, hid⟩ := holds_iff.mp hh
    refine holds_iff.mpr ⟨entry, ?_, hid⟩
    rw [inFlight_removeInFlight, if_neg, he]
    rintro rfl
    have hl : st.lingering other = some entry.connection :=
      lingering_iff.mpr ⟨entry, he, panicked_iff.mpr ⟨task, hid ▸ ht, hs⟩, rfl⟩
    rw [hnone] at hl
    cases hl
  constructor
  case inFlight =>
    intro other entry task he ht
    rw [inFlight_removeInFlight] at he
    exact h.inFlight other entry task (Option.ite_none_left_eq_some.mp he).2 ht
  case tracked => exact h.tracked
  case indexed => exact h.indexed
  case aborted => exact h.aborted
  case panicked =>
    intro id task ht hs hid
    exact (h.panicked id task ht hs hid).imp_right (.imp_right (hholds _ id task ht hs))
  case awaited =>
    intro other connection hl
    apply h.awaited other connection
    obtain ⟨entry, he, hentry⟩ := lingering_iff.mp hl
    rw [inFlight_removeInFlight] at he
    exact lingering_iff.mpr ⟨entry, (Option.ite_none_left_eq_some.mp he).2, hentry⟩
  case entries =>
    intro other jobId hr
    obtain ⟨id, task, hkeeps⟩ := h.entries other jobId hr
    refine ⟨id, task, hkeeps.mono hkeeps.spawned (fun ht => ht) (fun hb => hb) fun hs hh => ?_⟩
    exact .inr (hholds other id task hkeeps.spawned hs hh)

-- A loop takes the entry in hand that it removes.
theorem take {connection : ConnectionId} {requestId : RequestId} {entry : InFlightTask}
    {phase : Phase} (he : st.inFlight requestId = some entry)
    (hnone : (st.phase connection).handled = none)
    (hphase : phase.handled = some (requestId, entry))
    (hawaited : ∀ other ≠ requestId, other ∈ st.awaited connection →
      other ∈ phase.awaited (st.active connection)) :
    Cleaned ((st.removeInFlight requestId).moveTo connection phase) := by
  have htaken : ((st.removeInFlight requestId).moveTo connection phase).Busy entry.handle :=
    ⟨connection, requestId, entry, by simpa using hphase, rfl⟩
  have hbusy : ∀ id, st.Busy id →
      ((st.removeInFlight requestId).moveTo connection phase).Busy id :=
    Busy.move (phase_moveTo (st.removeInFlight requestId) connection · phase) (.inl hnone)
  have hholds : ∀ other id, st.Holds other id →
      ((st.removeInFlight requestId).moveTo connection phase).Busy id ∨
        ((st.removeInFlight requestId).moveTo connection phase).Holds other id := by
    intro other id hh
    obtain ⟨found, hf, rfl⟩ := holds_iff.mp hh
    by_cases ho : other = requestId
    · subst ho
      obtain rfl := Option.some.inj (he.symm.trans hf)
      exact .inl htaken
    · refine .inr (holds_iff.mpr ⟨found, ?_, rfl⟩)
      rw [moveTo_inFlight, inFlight_removeInFlight, if_neg ho, hf]
  constructor
  case inFlight =>
    intro other found task hf ht
    rw [moveTo_inFlight, inFlight_removeInFlight] at hf
    exact h.inFlight other found task (Option.ite_none_left_eq_some.mp hf).2 ht
  case tracked => exact h.tracked
  case indexed => exact h.indexed
  case aborted => exact fun id task ht ha => (h.aborted id task ht ha).imp_right (hbusy id)
  case panicked =>
    intro id task ht hs hid
    rcases h.panicked id task ht hs hid with hindexed | hb | hh
    · exact .inl hindexed
    · exact .inr (.inl (hbusy id hb))
    · exact .inr (hholds _ id hh)
  case awaited =>
    intro other owner hl
    obtain ⟨found, hf, hpanicked, howner⟩ := lingering_iff.mp hl
    rw [moveTo_inFlight, inFlight_removeInFlight] at hf
    obtain ⟨hne, hf⟩ := Option.ite_none_left_eq_some.mp hf
    have hold := h.awaited other owner (lingering_iff.mpr ⟨found, hf, hpanicked, howner⟩)
    rw [awaited_moveTo]
    by_cases ho : owner = connection
    · subst ho
      rw [if_pos rfl]
      exact hawaited other hne hold
    · rwa [if_neg ho]
  case entries =>
    intro other jobId hr
    obtain ⟨id, task, hkeeps⟩ := h.entries other jobId hr
    exact ⟨id, task, hkeeps.mono hkeeps.spawned (fun ht => ht) (hbusy id) fun _ => hholds other id⟩

-- A task that panics with an entry of its own has its request among those that the teardown will go
-- through: whoever is aborted or in hand has no entry.
theorem awaited_setTask (hr : Registered st) {id : TaskId} {task value : Task}
    (ht : st.tasks id = some task)
    (hpanicked : value.stage = .panicked → task.stage = .panicked ∨
      (st.tracked id = true → st.Attended id task))
    {requestId : RequestId} {connection : ConnectionId}
    (hl : (st.setTask id value).lingering requestId = some connection) :
    requestId ∈ st.awaited connection := by
  obtain ⟨entry, he, hp, hconnection⟩ := lingering_iff.mp hl
  obtain ⟨later, hlater, hs⟩ := panicked_iff.mp hp
  rcases setTask_cases hlater with ⟨hown, rfl⟩ | ⟨-, hold⟩
  · obtain ⟨htracked, found, hf, hfconnection, hfrequest, -⟩ := hr.inFlight requestId entry he
    rw [hown] at hf htracked
    obtain rfl := Option.some.inj (ht.symm.trans hf)
    rcases hpanicked hs with hstage | hnew
    · exact h.awaited requestId connection
        (lingering_iff.mpr ⟨entry, he, panicked_iff.mpr ⟨task, hown ▸ ht, hstage⟩, hconnection⟩)
    · rcases hnew htracked with ha | ⟨other, found, held, hheld, hhandle⟩ | ⟨-, hmem⟩
      · exact absurd hown ((hr.aborted id task ht ha).2 requestId entry he)
      · exact absurd (hown.trans hhandle.symm)
          ((hr.handled other found held hheld).1.2 requestId entry he)
      · rwa [hfrequest, hfconnection, hconnection] at hmem
  · exact h.awaited requestId connection
      (lingering_iff.mpr ⟨entry, he, panicked_iff.mpr ⟨later, hold, hs⟩, hconnection⟩)

-- What is in the index is there for the task also when it has gone on.
omit h in
theorem keeps_setTask {id other : TaskId} {task value found : Task} {requestId : RequestId}
    {jobId : JobId} (hkeeps : st.Keeps requestId jobId other found)
    (hmem : requestId ∈ st.entries jobId) (ht : st.tasks id = some task)
    (hrequest : value.request = task.request)
    (haborted : value.aborted = true → task.aborted = true ∨ st.Busy id)
    (hunindexed : value.stage.Unindexed = true → task.stage.Unindexed = true ∨
      st.indexed id = true ∧ task.request.requestId ∉ st.entries task.request.jobId)
    (hpanicked : value.stage = .panicked → task.stage = .panicked ∨
      (st.tracked id = true → st.Attended id task)) :
    ∃ id' task', (st.setTask id value).Keeps requestId jobId id' task' := by
  by_cases ho : other = id
  · subst ho
    obtain rfl := Option.some.inj (ht.symm.trans hkeeps.spawned)
    refine ⟨other, value, by simp, hrequest ▸ hkeeps.request, hrequest ▸ hkeeps.job,
      hkeeps.tracked, ?_, fun ha => ?_, fun hs => ?_⟩
    · by_contra hvalue
      rcases hunindexed (by simpa using hvalue) with hold | ⟨-, hgone⟩
      · rw [hkeeps.stage] at hold
        cases hold
      · rw [hkeeps.request, hkeeps.job] at hgone
        exact hgone hmem
    · exact (haborted ha).elim hkeeps.aborted id
    · rcases hpanicked hs with hold | hnew
      · exact hkeeps.panicked hold
      · rcases hnew hkeeps.tracked with ha | hb | hh
        · exact .inl (hkeeps.aborted ha)
        · exact .inl hb
        · exact .inr (hkeeps.request ▸ hh.1)
  · exact ⟨other, found, hkeeps.mono (by simp [ho, hkeeps.spawned]) (fun ht => ht) (fun hb => hb)
      fun _ => .inr⟩

-- A task goes on. It passes the removal of an entry when the entry is gone, and it panics when
-- somebody is there to remove what it has.
theorem setTask (hr : Registered st) {id : TaskId} {task value : Task}
    (ht : st.tasks id = some task)
    (hrequest : value.request = task.request)
    (haborted : value.aborted = true → task.aborted = true ∨ st.Busy id)
    (huntracked : value.stage.Untracked = true → task.stage.Untracked = true ∨ st.Parted id)
    (hunindexed : value.stage.Unindexed = true → task.stage.Unindexed = true ∨
      st.indexed id = true ∧ task.request.requestId ∉ st.entries task.request.jobId)
    (hpanicked : value.stage = .panicked → task.stage = .panicked ∨
      (st.tracked id = true → st.Attended id task)) :
    Cleaned (st.setTask id value) := by
  have hentries : ∀ jobId, (st.setTask id value).entries jobId = st.entries jobId :=
    entries_congr rfl
  constructor
  case inFlight =>
    intro requestId entry found he hf
    rcases setTask_cases hf with ⟨ho, rfl⟩ | ⟨-, hold⟩
    · by_contra hs
      rcases huntracked (by simpa using hs) with hold | hparted
      · rw [h.inFlight requestId entry task he (ho ▸ ht)] at hold
        cases hold
      · exact hparted.2 requestId entry he ho
    · exact h.inFlight requestId entry found he hold
  case tracked =>
    intro other found hf hs
    rcases setTask_cases hf with ⟨rfl, rfl⟩ | ⟨-, hold⟩
    · exact (huntracked hs).elim (h.tracked other task ht) And.left
    · exact h.tracked other found hold hs
  case indexed =>
    intro other found hf hs
    rcases setTask_cases hf with ⟨rfl, rfl⟩ | ⟨-, hold⟩
    · exact (hunindexed hs).elim (h.indexed other task ht) And.left
    · exact h.indexed other found hold hs
  case aborted =>
    intro other found hf ha
    rcases setTask_cases hf with ⟨rfl, rfl⟩ | ⟨-, hold⟩
    · exact (haborted ha).elim (h.aborted other task ht) .inr
    · exact h.aborted other found hold ha
  case panicked =>
    intro other found hf hs hid
    rcases setTask_cases hf with ⟨rfl, rfl⟩ | ⟨-, hold⟩
    · rw [hrequest]
      rcases hpanicked hs with hstage | hnew
      · exact h.panicked other task ht hstage hid
      · rcases hnew hid with ha | hb | hh
        · exact (h.aborted other task ht ha).imp_right .inl
        · exact .inr (.inl hb)
        · exact .inr (.inr hh.1)
    · exact h.panicked other found hold hs hid
  case awaited => exact fun requestId connection => h.awaited_setTask hr ht hpanicked
  case entries =>
    intro requestId jobId hmem
    rw [hentries] at hmem
    obtain ⟨other, found, hkeeps⟩ := h.entries requestId jobId hmem
    exact keeps_setTask hkeeps hmem ht hrequest haborted hunindexed hpanicked

-- The same of a task that has removed nothing yet.
theorem setTask_early (hr : Registered st) {id : TaskId} {task value : Task}
    (ht : st.tasks id = some task) (hrequest : value.request = task.request)
    (haborted : value.aborted = true → task.aborted = true ∨ st.Busy id)
    (huntracked : value.stage.Untracked = false) (hunindexed : value.stage.Unindexed = false)
    (hpanicked : value.stage ≠ .panicked) : Cleaned (st.setTask id value) := by
  refine h.setTask hr ht hrequest haborted ?_ ?_ fun hp => absurd hp hpanicked
  · intro hu
    rw [huntracked] at hu
    cases hu
  · intro hu
    rw [hunindexed] at hu
    cases hu

theorem abort (hr : Registered st) {id : TaskId} (hbusy : st.Busy id) : Cleaned (st.abort id) := by
  unfold RunnerRuntime.abort
  cases ht : st.tasks id with
  | none => exact h
  | some task => exact h.setTask hr ht rfl (fun _ => .inr hbusy) .inl .inl .inl

-- A loop is done with what it has in hand when it is out of the job index.
theorem letGo (hr : Registered st) {connection : ConnectionId} {phase : Phase}
    {requestId : RequestId} {entry : InFlightTask}
    (hhandled : (st.phase connection).handled = some (requestId, entry))
    (hindexed : st.indexed entry.handle = true) (hgone : requestId ∉ st.entries entry.jobId)
    (hawaited : phase.awaited (st.active connection) = st.awaited connection) :
    Cleaned (st.moveTo connection phase) := by
  have hfits := (hr.handled connection requestId entry hhandled).2
  have hbusy : ∀ id, id ≠ entry.handle → st.Busy id → (st.moveTo connection phase).Busy id := by
    rintro id hid ⟨other, found, e, he, rfl⟩
    by_cases ho : other = connection
    · subst ho
      rw [hhandled] at he
      obtain ⟨-, rfl⟩ := Prod.mk.injEq .. ▸ Option.some.inj he
      exact absurd rfl hid
    · exact ⟨other, found, e, by simpa [ho] using he, rfl⟩
  constructor
  case inFlight => exact h.inFlight
  case tracked => exact h.tracked
  case indexed => exact h.indexed
  case aborted =>
    intro id task ht ha
    by_cases hid : id = entry.handle
    · exact .inl (hid ▸ hindexed)
    · exact (h.aborted id task ht ha).imp_right (hbusy id hid)
  case panicked =>
    intro id task ht hs htracked
    by_cases hid : id = entry.handle
    · exact .inl (hid ▸ hindexed)
    · exact (h.panicked id task ht hs htracked).imp_right (.imp_left (hbusy id hid))
  case awaited =>
    intro other owner hl
    have hold := h.awaited other owner hl
    rw [awaited_moveTo]
    by_cases ho : owner = connection
    · subst ho
      rwa [if_pos rfl, hawaited]
    · rwa [if_neg ho]
  case entries =>
    intro other jobId hmem
    obtain ⟨id, task, hkeeps⟩ := h.entries other jobId hmem
    have hid : id ≠ entry.handle := by
      rintro rfl
      obtain ⟨found, hfound, -, hfrid, hfjob⟩ := hfits
      obtain rfl := Option.some.inj (hkeeps.spawned.symm.trans hfound)
      rw [← hfrid, ← hfjob, hkeeps.request, hkeeps.job] at hgone
      exact hgone hmem
    exact ⟨id, task, hkeeps.mono hkeeps.spawned (fun ht => ht) (hbusy id hid) fun _ => .inr⟩

theorem spawn (hr : Registered st) (connection : ConnectionId) (request : ExecutionRequest)
    (hphase : st.phase connection = .admitting request) :
    Cleaned (st.spawn connection request) := by
  have hlt : ∀ id task, st.tasks id = some task → id ≠ st.nextTask := fun _ _ ht =>
    Nat.ne_of_lt (hr.lt_nextTask ht)
  have hbusy : ∀ id, st.Busy id → (st.spawn connection request).Busy id :=
    Busy.move (phase_spawn st connection · request) (.inl (by rw [hphase]; rfl))
  have hold : ∀ id task, (st.spawn connection request).tasks id = some task →
      task = { connection, request } ∨ st.tasks id = some task := by
    intro id task ht
    rw [tasks_spawn] at ht
    by_cases hid : id = st.nextTask
    · rw [if_pos hid] at ht
      exact .inl (Option.some.inj ht).symm
    · rw [if_neg hid] at ht
      exact .inr ht
  constructor
  case inFlight =>
    intro requestId entry task he ht
    rcases hold _ _ ht with rfl | ht
    · rfl
    · exact h.inFlight requestId entry task he ht
  case tracked =>
    intro id task ht hs
    rcases hold _ _ ht with rfl | ht
    · cases hs
    · exact h.tracked id task ht hs
  case indexed =>
    intro id task ht hs
    rcases hold _ _ ht with rfl | ht
    · cases hs
    · exact h.indexed id task ht hs
  case aborted =>
    intro id task ht ha
    rcases hold _ _ ht with rfl | ht
    · cases ha
    · exact (h.aborted id task ht ha).imp_right (hbusy id)
  case panicked =>
    intro id task ht hs hid
    rcases hold _ _ ht with rfl | ht
    · cases hs
    · exact (h.panicked id task ht hs hid).imp_right (.imp_left (hbusy id))
  case awaited =>
    intro requestId owner hl
    obtain ⟨entry, he, hp, howner⟩ := lingering_iff.mp hl
    obtain ⟨task, ht, hs⟩ := panicked_iff.mp hp
    rcases hold _ _ ht with rfl | ht
    · cases hs
    · have hmem := h.awaited requestId owner
        (lingering_iff.mpr ⟨entry, he, panicked_iff.mpr ⟨task, ht, hs⟩, howner⟩)
      unfold RunnerRuntime.awaited at hmem ⊢
      rw [phase_spawn, active_spawn]
      by_cases ho : owner = connection
      · subst ho
        rw [hphase] at hmem
        rw [if_pos rfl, if_pos rfl]
        exact mem_insertEntry.mpr (.inr hmem)
      · rwa [if_neg ho, if_neg ho]
  case entries =>
    intro requestId jobId hmem
    obtain ⟨id, task, hkeeps⟩ := h.entries requestId jobId hmem
    refine ⟨id, task, hkeeps.mono ?_ (fun ht => ht) (hbusy id) fun _ => .inr⟩
    rw [tasks_spawn, if_neg (hlt id task hkeeps.spawned)]
    exact hkeeps.spawned

theorem track (hr : Registered st) {connection : ConnectionId} {request : ExecutionRequest}
    {id : TaskId} (hp : st.phase connection = .tracking request id)
    (hnone : st.lingering request.requestId = none)
    (hactive : st.panicked id = true → request.requestId ∈ st.active connection) :
    Cleaned (st.track connection request id) := by
  obtain ⟨⟨task, ht, hconnection, hrequest⟩, huntracked, -⟩ :=
    hr.tracking connection request id hp
  have hbusy : ∀ other, st.Busy other → (st.track connection request id).Busy other :=
    Busy.move (phase_track st connection · id request) (.inl (by rw [hp]; rfl))
  have hown : (st.track connection request id).Holds request.requestId id :=
    holds_iff.mpr ⟨_, (inFlight_track ..).trans (if_pos rfl), rfl⟩
  have hholds : ∀ requestId other found, st.tasks other = some found → found.stage = .panicked →
      st.Holds requestId other → (st.track connection request id).Holds requestId other := by
    intro requestId other found hf hs hh
    obtain ⟨entry, he, rfl⟩ := holds_iff.mp hh
    refine holds_iff.mpr ⟨entry, ?_, rfl⟩
    rw [inFlight_track, if_neg, he]
    rintro rfl
    have hl : st.lingering request.requestId = some entry.connection :=
      lingering_iff.mpr ⟨entry, he, panicked_iff.mpr ⟨found, hf, hs⟩, rfl⟩
    rw [hnone] at hl
    cases hl
  have hkept : ∀ other, (st.track connection request id).awaited other = st.awaited other :=
    awaited_move (phase_track st connection · id request) (active_track st connection · request id)
      (by unfold RunnerRuntime.awaited; rw [hp]; rfl)
  constructor
  case inFlight =>
    intro requestId entry found he hf
    rw [inFlight_track] at he
    by_cases hrid : requestId = request.requestId
    · rw [if_pos hrid] at he
      obtain rfl := Option.some.inj he
      by_contra hs
      have := h.tracked id found hf (by simpa using hs)
      rw [huntracked] at this
      cases this
    · rw [if_neg hrid] at he
      exact h.inFlight requestId entry found he hf
  case tracked =>
    intro other found hf hs
    rw [tracked_track, h.tracked other found hf hs, ite_self]
  case indexed => exact h.indexed
  case aborted =>
    exact fun other found hf ha => (h.aborted other found hf ha).imp_right (hbusy other)
  case panicked =>
    intro other found hf hs hid
    by_cases ho : other = id
    · subst ho
      obtain rfl := Option.some.inj (ht.symm.trans hf)
      exact .inr (.inr (hrequest ▸ hown))
    · rw [tracked_track, if_neg ho] at hid
      exact (h.panicked other found hf hs hid).imp_right
        (.imp (hbusy other) (hholds _ other found hf hs))
  case awaited =>
    intro requestId owner hl
    obtain ⟨entry, he, hpanicked, howner⟩ := lingering_iff.mp hl
    rw [hkept]
    rw [inFlight_track] at he
    by_cases hrid : requestId = request.requestId
    · rw [if_pos hrid] at he
      obtain rfl := Option.some.inj he
      subst hrid howner
      unfold RunnerRuntime.awaited
      rw [hp]
      exact hactive hpanicked
    · rw [if_neg hrid] at he
      exact h.awaited requestId owner (lingering_iff.mpr ⟨entry, he, hpanicked, howner⟩)
  case entries =>
    intro requestId jobId hmem
    obtain ⟨other, found, hkeeps⟩ := h.entries requestId jobId hmem
    refine ⟨other, found, hkeeps.mono hkeeps.spawned (fun hid => ?_) (hbusy other) fun hs hh => ?_⟩
    · rw [tracked_track, hid, ite_self]
    · exact .inr (hholds requestId other found hkeeps.spawned hs hh)

theorem index (hr : Registered st) {connection : ConnectionId} {request : ExecutionRequest}
    {id : TaskId} (hp : st.phase connection = .indexing request id) :
    Cleaned (st.index connection request id) := by
  obtain ⟨⟨task, ht, hconnection, hrequest⟩, htracked, hunindexed⟩ :=
    hr.indexing connection request id hp
  have hbusy : ∀ other, st.Busy other → (st.index connection request id).Busy other :=
    Busy.move (phase_index st connection · id request) (.inl (by rw [hp]; rfl))
  have hkept : ∀ other, (st.index connection request id).awaited other = st.awaited other :=
    awaited_move (phase_index st connection · id request) (active_index st connection · request id)
      (by unfold RunnerRuntime.awaited; rw [hp]; rfl)
  have hindexed : ∀ other, st.indexed other = true →
      (st.index connection request id).indexed other = true := by
    intro other ho
    rw [indexed_index, ho, ite_self]
  constructor
  case inFlight => exact h.inFlight
  case tracked => exact h.tracked
  case indexed => exact fun other found hf hs => hindexed other (h.indexed other found hf hs)
  case aborted =>
    exact fun other found hf ha => (h.aborted other found hf ha).imp (hindexed other) (hbusy other)
  case panicked =>
    exact fun other found hf hs hid =>
      (h.panicked other found hf hs hid).imp (hindexed other) (.imp_left (hbusy other))
  case awaited =>
    intro requestId owner hl
    rw [hkept]
    exact h.awaited requestId owner hl
  case entries =>
    intro requestId jobId hmem
    by_cases hold : requestId ∈ st.entries jobId
    · obtain ⟨other, found, hkeeps⟩ := h.entries requestId jobId hold
      exact ⟨other, found, hkeeps.mono hkeeps.spawned (fun ht => ht) (hbusy other) fun _ => .inr⟩
    · have hnew : requestId = request.requestId ∧ jobId = request.jobId := by grind
      obtain ⟨rfl, rfl⟩ := hnew
      have hlate : ∀ {P : Prop}, st.indexed id = true ∨ P → P := by
        rintro P (hi | hrest)
        · rw [hunindexed] at hi
          cases hi
        · exact hrest
      refine ⟨id, task, ht, by rw [hrequest], by rw [hrequest], htracked, ?_, fun ha => ?_,
        fun hs => ?_⟩
      · by_contra hstage
        have := h.indexed id task ht (by simpa using hstage)
        rw [hunindexed] at this
        cases this
      · exact hbusy id (hlate (h.aborted id task ht ha))
      · rw [← hrequest]
        exact (hlate (h.panicked id task ht hs htracked)).imp_left (hbusy id)

theorem cancelStep (hr : Registered st) {connection : ConnectionId} {payload : CancelRequest}
    {rest : List RequestId} {stage : CancelStage}
    (hp : st.phase connection = .cancelling payload rest stage) (sent : Bool)
    (hindexed : ∀ requestId entry, stage = .answered requestId entry →
      st.indexed entry.handle = true)
    (hspares : ∀ requestId entry, stage = .aborted requestId entry →
      st.Spares entry.connection requestId) :
    Cleaned (st.cancelStep connection payload rest sent stage) := by
  have hkept : st.awaited connection = st.active connection := by
    unfold RunnerRuntime.awaited
    rw [hp]
    rfl
  cases stage with
  | next =>
      have hnone : (st.phase connection).handled = none := by rw [hp]; rfl
      cases rest with
      | nil => exact h.moveOn (.inl hnone) hkept.symm
      | cons requestId rest =>
          simp only [RunnerRuntime.cancelStep]
          cases he : st.inFlight requestId with
          | none => exact h.moveOn (.inl hnone) hkept.symm
          | some entry =>
              dsimp only
              split
              · exact h.moveOn (.inl hnone) hkept.symm
              · have hphase : (Phase.cancelling payload rest (.taken requestId entry)).handled =
                    some (requestId, entry) := rfl
                have htake := h.take he hnone hphase fun _ _ hmem => hkept ▸ hmem
                exact htake.noteTaken entry.handle
  | taken requestId entry =>
      have hbusy : st.Busy entry.handle := ⟨connection, requestId, entry, by rw [hp]; rfl, rfl⟩
      apply (h.abort hr hbusy).moveOn
      · simp [hp]
      · unfold RunnerRuntime.awaited
        rw [phase_abort, hp]
        rfl
  | aborted requestId entry =>
      apply (h.deactivate (hspares requestId entry rfl)).moveOn
      · simp [hp]
      · unfold RunnerRuntime.awaited
        rw [phase_deactivate, hp]
        rfl
  | deactivated requestId entry =>
      cases sent with
      | false =>
          apply h.moveOn
          · simp [hp]
          · exact hkept.symm
      | true =>
          apply ((h.respond entry.connection _).noteTold entry.handle).moveOn
          · simp [hp]
          · unfold RunnerRuntime.awaited
            rw [phase_noteTold, phase_respond, hp]
            rfl
  | answered requestId entry =>
      apply (h.unindex entry.jobId requestId).letGo (hr.setEntries _ _)
      · show (st.phase connection).handled = some (requestId, entry)
        rw [hp]
        rfl
      · exact hindexed requestId entry rfl
      · simp [RunnerRuntime.unindex]
      · exact hkept.symm

theorem drainStep (hr : Registered st) {connection : ConnectionId} {rest : List RequestId}
    {stage : DrainStage} (hp : st.phase connection = .draining rest stage)
    (hindexed : ∀ requestId entry, stage = .aborted requestId entry →
      st.indexed entry.handle = true) :
    Cleaned (st.drainStep connection rest stage) := by
  have hkept : st.awaited connection = rest := by
    unfold RunnerRuntime.awaited
    rw [hp]
    rfl
  cases stage with
  | next =>
      have hnone : (st.phase connection).handled = none := by rw [hp]; rfl
      cases rest with
      | nil => exact h.moveOn (.inl hnone) hkept.symm
      | cons requestId rest =>
          simp only [RunnerRuntime.drainStep]
          cases he : st.inFlight requestId with
          | none =>
              apply h.moveTo (.inl hnone)
              intro other hl hmem
              rw [hkept] at hmem
              rcases List.mem_cons.mp hmem with rfl | hmem
              · obtain ⟨entry, hfound, -⟩ := lingering_iff.mp hl
                rw [he] at hfound
                cases hfound
              · exact hmem
          | some entry =>
              apply h.take he hnone
              · rfl
              · intro other hne hmem
                rw [hkept] at hmem
                exact (List.mem_cons.mp hmem).resolve_left hne
  | taken requestId entry =>
      have hbusy : st.Busy entry.handle := ⟨connection, requestId, entry, by rw [hp]; rfl, rfl⟩
      apply (h.abort hr hbusy).moveOn
      · simp [hp]
      · unfold RunnerRuntime.awaited
        rw [phase_abort, hp]
        rfl
  | aborted requestId entry =>
      apply (h.unindex entry.jobId requestId).letGo (hr.setEntries _ _)
      · show (st.phase connection).handled = some (requestId, entry)
        rw [hp]
        rfl
      · exact hindexed requestId entry rfl
      · simp [RunnerRuntime.unindex]
      · exact hkept.symm

theorem advance (hr : Registered st) {id : TaskId} {task : Task} (ht : st.tasks id = some task)
    (sent : Bool) {later : RunnerRuntime} (hlater : st.advance id task sent = some later)
    (htracked : task.stage = .sent → st.tracked id = true)
    (hindexed : task.stage = .untracked → st.indexed id = true)
    (hcovers : coversPanics (.advance id sent) st) : Cleaned later := by
  unfold RunnerRuntime.advance at hlater
  cases hs : task.stage with
  | finished outcome =>
      rw [hs] at hlater
      cases hlater
      exact h.setTask_early hr ht rfl .inl rfl rfl (by rintro ⟨⟩)
  | marked outcome =>
      rw [hs] at hlater
      cases hlater
      cases sent with
      | false => exact h.setTask_early hr ht rfl .inl rfl rfl (by rintro ⟨⟩)
      | true =>
          exact (h.respond _ _).setTask_early (hr.respond _ _) ht rfl .inl rfl rfl (by rintro ⟨⟩)
  | sent =>
      rw [hs] at hlater
      cases hlater
      have hnone := (hcovers task ht).1 hs
      refine (h.removeInFlight hnone).setTask (hr.removeInFlight _) ht rfl .inl
        (fun _ => .inr ⟨htracked hs, ?_⟩) (by rintro ⟨⟩) (by rintro ⟨⟩)
      -- The only entry that it can have is the one for its own request.
      intro requestId entry he hid
      rw [inFlight_removeInFlight] at he
      obtain ⟨hne, he⟩ := Option.ite_none_left_eq_some.mp he
      obtain ⟨found, hfound, -, hrid, -⟩ := (hr.inFlight requestId entry he).2
      rw [hid, ht] at hfound
      obtain rfl := Option.some.inj hfound
      exact hne hrid.symm
  | untracked =>
      rw [hs] at hlater
      cases hlater
      refine (h.unindex _ _).setTask (hr.setEntries _ _) ht rfl .inl
        (fun _ => .inl (by rw [hs]; rfl)) (fun _ => ?_) (by rintro ⟨⟩)
      exact .inr ⟨hindexed hs, by simp [RunnerRuntime.unindex]⟩
  | unindexed =>
      rw [hs] at hlater
      cases hlater
      exact (h.deactivate ((hcovers task ht).2 hs)).setTask (hr.deactivate _ _) ht rfl .inl
        (fun _ => .inl (by rw [hs]; rfl)) (fun _ => .inl (by rw [hs]; rfl)) (by rintro ⟨⟩)
  | running | ended | panicked | dropped =>
      rw [hs] at hlater
      cases hlater

-- A loop that returns without a teardown has nothing left to remove.
theorem leave {connection : ConnectionId} (hnone : (st.phase connection).handled = none)
    (hkept : st.awaited connection = st.active connection) (hfree : st.Unburdened connection) :
    Cleaned (st.moveTo connection .returned) := by
  apply h.moveTo (.inl hnone)
  intro requestId hl hmem
  rw [hkept] at hmem
  exact absurd hl (hfree requestId hmem)

theorem act (hr : Registered st) {connection : ConnectionId} {sent : Bool}
    {later : RunnerRuntime} (hlater : st.act connection sent = some later)
    (hfirst : registersFirst (.act connection sent) st = true)
    (hcovers : coversPanics (.act connection sent) st) : Cleaned later := by
  unfold RunnerRuntime.act at hlater
  simp only [registersFirst] at hfirst
  simp only [coversPanics] at hcovers
  cases hp : st.phase connection with
  | admitting request =>
      have hnone : (st.phase connection).handled = none := by rw [hp]; rfl
      have hkept : st.awaited connection = st.active connection := by
        unfold RunnerRuntime.awaited
        rw [hp]
        rfl
      rw [hp] at hlater hcovers
      cases hlater
      unfold RunnerRuntime.spawnOrRefuse
      split
      · rename_i hfull
        cases sent with
        | true =>
            rw [if_pos rfl]
            apply (h.respond _ _).moveOn (.inl (by rw [phase_respond]; exact hnone))
            rw [awaited_respond, hkept]
            exact active_respond ..
        | false =>
            rw [if_neg Bool.false_ne_true]
            exact h.leave hnone hkept (hcovers rfl hfull)
      · exact h.spawn hr connection request hp
  | tracking request id =>
      rw [hp] at hlater hcovers
      cases hlater
      exact h.track hr hp hcovers.1 hcovers.2
  | indexing request id =>
      rw [hp] at hlater
      cases hlater
      exact h.index hr hp
  | cancelling payload rest stage =>
      rw [hp] at hlater hfirst hcovers
      cases hlater
      apply h.cancelStep hr hp sent
      · rintro requestId entry rfl
        exact hfirst
      · rintro requestId entry rfl
        exact hcovers
  | ended =>
      rw [hp] at hlater
      cases hlater
      refine h.congr rfl rfl rfl rfl (fun _ _ hr => hr) (fun other => ?_)
        fun requestId other _ hmem => ?_
      · by_cases ho : other = connection
        · exact .inl (by rw [ho, hp]; rfl)
        · exact .inr (by rw [phase_moveTo, if_neg ho, phase_modify, if_neg ho])
      · unfold RunnerRuntime.awaited at hmem ⊢
        by_cases ho : other = connection
        · rw [ho, hp] at hmem
          rw [ho, phase_moveTo, if_pos rfl]
          exact hmem
        · rw [phase_moveTo, if_neg ho, phase_modify, if_neg ho, active_moveTo]
          simpa [active, ho] using hmem
  | draining rest stage =>
      rw [hp] at hlater hfirst
      cases hlater
      apply h.drainStep hr hp
      rintro requestId entry rfl
      exact hfirst
  | reading | returned =>
      rw [hp] at hlater
      cases hlater

theorem receive {connection : ConnectionId} (hp : st.phase connection = .reading)
    (message : RunnerMessage) : Cleaned (st.receive connection message) := by
  have hnone : (st.phase connection).handled = none := by rw [hp]; rfl
  have hkept : st.awaited connection = st.active connection := by
    unfold RunnerRuntime.awaited
    rw [hp]
    rfl
  cases message with
  | Request payload =>
      simp only [RunnerRuntime.receive]
      split
      · exact h.respond _ _
      · exact h.moveOn (.inl hnone) hkept.symm
  | Response _ => exact h.respond _ _
  | Cancel payload =>
      simp only [RunnerRuntime.receive]
      split
      · exact h
      · exact h.moveOn (.inl hnone) hkept.symm

theorem finish (hr : Registered st) {id : TaskId} {task : Task} (ht : st.tasks id = some task)
    {ending : Ending} (hcovers : coversPanics (.finish id ending) st) :
    Cleaned (st.setTask id
      { task with stage := .ofExecution (executeWithDeadline task.request ending) }) := by
  cases ending with
  | panicked =>
      exact h.setTask hr ht rfl .inl nofun nofun fun _ => .inr fun hid => hcovers task ht hid
  | handled _ | notFound | timedOut | expired =>
      exact h.setTask_early hr ht rfl .inl rfl rfl (by rintro ⟨⟩)

theorem step (hr : Registered st) {registered : String → Bool} {event : Event}
    {later : RunnerRuntime} (hlater : RunnerRuntime.step registered event st = some later)
    (hfirst : registersFirst event st = true) (hcovers : coversPanics event st) :
    Cleaned later := by
  cases event with
  | receive connection message =>
      obtain ⟨hp, rfl⟩ := whileReading_eq_some hlater
      exact h.receive hp message
  | endOfStream connection =>
      obtain ⟨hp, rfl⟩ := whileReading_eq_some hlater
      apply h.moveOn (.inl (by rw [hp]; rfl))
      unfold RunnerRuntime.awaited
      rw [hp]
      rfl
  | readFails connection =>
      obtain ⟨hp, rfl⟩ := whileReading_eq_some hlater
      apply h.leave (by rw [hp]; rfl) _ hcovers
      unfold RunnerRuntime.awaited
      rw [hp]
      rfl
  | act connection sent => exact h.act hr hlater hfirst hcovers
  | poll id =>
      obtain ⟨task, ht, hlater⟩ := Option.bind_eq_some_iff.mp hlater
      obtain ⟨-, hlater⟩ := Option.ite_none_left_eq_some.mp hlater
      cases hlater
      exact h.setTask hr ht rfl .inl .inl .inl .inl
  | pend id =>
      obtain ⟨task, ht, hlater⟩ := Option.bind_eq_some_iff.mp hlater
      obtain ⟨-, hlater⟩ := Option.ite_none_right_eq_some.mp hlater
      cases hlater
      exact h.setTask hr ht rfl .inl .inl .inl .inl
  | finish id ending =>
      obtain ⟨task, ht, -, -, rfl⟩ := finish_eq_some hlater
      exact h.finish hr ht hcovers
  | advance id sent =>
      obtain ⟨task, ht, hlater⟩ := Option.bind_eq_some_iff.mp hlater
      obtain ⟨-, hlater⟩ := Option.ite_none_right_eq_some.mp hlater
      simp only [registersFirst, ht, Option.map_some] at hfirst
      refine h.advance hr ht sent hlater (fun hs => ?_) (fun hs => ?_) hcovers
      · rwa [hs] at hfirst
      · rwa [hs] at hfirst
  | drop id =>
      obtain ⟨task, ht, hlater⟩ := Option.bind_eq_some_iff.mp hlater
      obtain ⟨-, hlater⟩ := Option.ite_none_right_eq_some.mp hlater
      cases hlater
      exact h.setTask_early hr ht rfl .inl rfl rfl (by rintro ⟨⟩)

end Cleaned

theorem cleaned_start : Cleaned {} where
  inFlight _ _ _ he := by cases he
  tracked _ _ ht := by cases ht
  indexed _ _ ht := by cases ht
  aborted _ _ ht := by cases ht
  panicked _ _ ht := by cases ht
  awaited _ _ hl := by cases hl
  entries _ _ hr := by cases hr

-- Nothing is removed before it is registered, and no panic leaves an entry to nobody.
def tidy (event : Event) (st : RunnerRuntime) : Prop :=
  registersFirst event st = true ∧ coversPanics event st

theorem reach_cleaned {registered : String → Bool} {st : RunnerRuntime}
    (h : (threads registered).Reach tidy {} st) : Registered st ∧ Cleaned st := by
  induction h with
  | start => exact ⟨registered_start, cleaned_start⟩
  | step event _ htidy hstep ih =>
      exact ⟨ih.1.step hstep, ih.2.step ih.1 hstep htidy.1 htidy.2⟩

-- The connection is over: its loop has returned, its tasks have ended, and no other loop has
-- the entry of one of them in hand.
structure Over (st : RunnerRuntime) (connection : ConnectionId) : Prop where
  returned : st.phase connection = .returned
  ended : ∀ id task, st.tasks id = some task → task.connection = connection →
    task.stage.Ended = true
  idle : ∀ id task, st.tasks id = some task → task.connection = connection → ¬ st.Busy id

-- What is left in the two maps is there for tasks of other connections.
structure Cleared (st : RunnerRuntime) (connection : ConnectionId) : Prop where
  inFlight : ∀ requestId entry, st.inFlight requestId = some entry →
    ∃ task, st.tasks entry.handle = some task ∧ task.connection = entry.connection ∧
      task.connection ≠ connection
  entries : ∀ requestId jobId, requestId ∈ st.entries jobId →
    ∃ id task, st.tasks id = some task ∧ task.request.requestId = requestId ∧
      task.request.jobId = jobId ∧ task.connection ≠ connection
  tasks : ∀ id task, st.tasks id = some task → task.connection = connection →
    task.aborted = true ∨ task.stage = .ended ∨ task.stage = .panicked

-- The teardown of a connection that has returned is over, and no panic has been left to it.
theorem not_held_of_returned {st : RunnerRuntime} (hr : Registered st) (h : Cleaned st)
    {connection : ConnectionId} (hreturned : st.phase connection = .returned) {id : TaskId}
    {task : Task} (ht : st.tasks id = some task) (hown : task.connection = connection)
    (hs : task.stage = .panicked) {requestId : RequestId} {entry : InFlightTask}
    (he : st.inFlight requestId = some entry) : entry.handle ≠ id := by
  intro hid
  obtain ⟨found, hf, hconnection, -⟩ := (hr.inFlight requestId entry he).2
  rw [hid] at hf
  obtain rfl := Option.some.inj (ht.symm.trans hf)
  have hmem := h.awaited requestId connection (lingering_iff.mpr
    ⟨entry, he, panicked_iff.mpr ⟨task, hid ▸ ht, hs⟩, hconnection.symm.trans hown⟩)
  unfold awaited at hmem
  rw [hreturned] at hmem
  cases hmem

theorem cleared_of_over {st : RunnerRuntime} (hr : Registered st) (h : Cleaned st)
    {connection : ConnectionId} (hover : st.Over connection) : st.Cleared connection where
  inFlight requestId entry he := by
    obtain ⟨task, ht, hconnection, -⟩ := (hr.inFlight requestId entry he).2
    refine ⟨task, ht, hconnection, fun hown => ?_⟩
    have hstage := h.inFlight requestId entry task he ht
    cases hs : task.stage with
    | ended =>
        rw [hs] at hstage
        cases hstage
    | panicked => exact not_held_of_returned hr h hover.returned ht hown hs he rfl
    | dropped =>
        have hparted := hr.aborted entry.handle task ht (hr.dropped entry.handle task ht hs)
        exact hparted.2 requestId entry he rfl
    | running | finished _ | marked _ | sent | untracked | unindexed =>
        have hended := hover.ended entry.handle task ht hown
        rw [hs] at hended
        cases hended
  entries requestId jobId hmem := by
    obtain ⟨id, task, hkeeps⟩ := h.entries requestId jobId hmem
    have ht := hkeeps.spawned
    refine ⟨id, task, ht, hkeeps.request, hkeeps.job, fun hown => ?_⟩
    have hidle := hover.idle id task ht hown
    cases hs : task.stage with
    | ended =>
        have hstage := hkeeps.stage
        rw [hs] at hstage
        cases hstage
    | panicked =>
        obtain ⟨entry, he, hid⟩ := holds_iff.mp ((hkeeps.panicked hs).resolve_left hidle)
        exact not_held_of_returned hr h hover.returned ht hown hs he hid
    | dropped => exact hidle (hkeeps.aborted (hr.dropped id task ht hs))
    | running | finished _ | marked _ | sent | untracked | unindexed =>
        have hended := hover.ended id task ht hown
        rw [hs] at hended
        cases hended
  tasks id task ht hown := by
    cases hs : task.stage with
    | ended => exact .inr (.inl rfl)
    | panicked => exact .inr (.inr rfl)
    | dropped => exact .inl (hr.dropped id task ht hs)
    | running | finished _ | marked _ | sent | untracked | unindexed =>
        have hended := hover.ended id task ht hown
        rw [hs] at hended
        cases hended

-- A connection leaves nothing behind in runs where nothing is removed before it is registered
-- and no panic leaves an entry to nobody.
theorem cleaned_up {registered : String → Bool} {st : RunnerRuntime}
    (h : (threads registered).Reach tidy {} st)
    {connection : ConnectionId} (hover : st.Over connection) : st.Cleared connection := by
  obtain ⟨hr, hc⟩ := reach_cleaned h
  exact cleared_of_over hr hc hover

-- Nothing but this connection and the tasks take steps.
def ofConnection (connection : ConnectionId) (event : Event) (_ : RunnerRuntime) : Bool :=
  event.connection.all (· = connection)

-- In runs of one connection the loops of the others have nothing to do.
theorem reading_of_alone {registered : String → Bool} {connection other : ConnectionId}
    {st : RunnerRuntime} (h : (threads registered).Reach (ofConnection connection · ·) {} st)
    (ho : other ≠ connection) : st.phase other = .reading := by
  induction h with
  | start => rfl
  | step event _ halone hstep ih =>
      rw [phase_step _ hstep]
      · exact ih
      · intro he
        simp only [ofConnection, he, Option.all_some, decide_eq_true_eq] at halone
        exact ho halone

theorem over_of_alone {registered : String → Bool} {connection : ConnectionId}
    {st : RunnerRuntime} (h : (threads registered).Reach (ofConnection connection · ·) {} st)
    (hreturned : st.phase connection = .returned)
    (hended : ∀ id < st.nextTask, (st.tasks id).all (·.stage.Ended) = true) :
    st.Over connection where
  returned := hreturned
  ended id task ht _ := by
    have hr : Registered st := h.invariant registered_start fun _ _ _ hr _ hstep => hr.step hstep
    simpa [ht] using hended id (hr.lt_nextTask ht)
  idle id _ _ _ := by
    rintro ⟨other, requestId, entry, hhandled, -⟩
    by_cases ho : other = connection
    · rw [ho, hreturned] at hhandled
      cases hhandled
    · rw [reading_of_alone h ho] at hhandled
      cases hhandled

def otherRequest : ExecutionRequest := { sampleRequest with requestId := "s" }

-- The first request is answered. The handler of the second panics, and the connection closes
-- after that.
def tidyRun : List Event :=
  [.receive 0 (.Request sampleRequest), .act 0, .poll 0, .act 0, .act 0, .finish 0 success,
    .advance 0, .advance 0, .advance 0, .advance 0, .advance 0,
    .receive 0 (.Request otherRequest), .act 0, .act 0, .act 0, .poll 1, .finish 1 .panicked,
    .endOfStream 0, .act 0, .act 0, .act 0, .act 0, .act 0]

-- The task is over before the loop registers it.
def hastyRun : List Event :=
  [.receive 0 (.Request sampleRequest), .act 0, .poll 0, .finish 0 success,
    .advance 0, .advance 0, .advance 0, .advance 0, .advance 0, .act 0, .act 0,
    .endOfStream 0, .act 0, .act 0]

-- The handler panics, and then the loop cannot read the next message.
def brokenRun : List Event :=
  [.receive 0 (.Request sampleRequest), .act 0, .act 0, .act 0, .poll 0, .finish 0 .panicked,
    .readFails 0]

def isReturned (phase : Phase) : Bool :=
  match phase with
  | .returned => true
  | _ => false

theorem eq_of_isReturned {phase : Phase} (h : isReturned phase = true) : phase = .returned := by
  cases phase <;> first | rfl | cases h

def isOver (st : RunnerRuntime) : Bool :=
  isReturned (st.phase 0) &&
    decide (∀ id < st.nextTask, (st.tasks id).all (·.stage.Ended) = true)

theorem over_of_isOver {registered : String → Bool} {st : RunnerRuntime}
    (h : (threads registered).Reach (ofConnection 0 · ·) {} st)
    (hover : isOver st = true) : st.Over 0 := by
  simp only [isOver, Bool.and_eq_true, decide_eq_true_eq] at hover
  exact over_of_alone h (eq_of_isReturned hover.1) hover.2

-- In a run without cancels and failures a test is enough: a handler panics while its request is
-- registered and active, and nothing else has that request's id.
def isCovered : Event → RunnerRuntime → Bool
  | .finish id .panicked, st => (st.tasks id).all fun task =>
      (st.inFlight task.request.requestId).any (·.handle = id) &&
        decide (task.request.requestId ∈ st.awaited task.connection)
  | .readFails _, _ => false
  | .act connection sent, st =>
      sent && match st.phase connection with
      | .tracking request id =>
          (st.lingering request.requestId).isNone && !st.panicked id
      | .cancelling _ _ _ => false
      | _ => true
  | .advance id _, st => (st.tasks id).all fun task =>
      (st.lingering task.request.requestId).isNone
  | _, _ => true

theorem coversPanics_of_isCovered {event : Event} {st : RunnerRuntime}
    (h : isCovered event st = true) : coversPanics event st := by
  cases event with
  | finish id ending =>
      cases ending with
      | panicked =>
          intro task ht _
          simp only [isCovered, ht, Option.all_some, Bool.and_eq_true, decide_eq_true_eq] at h
          exact .inr (.inr h)
      | handled _ | notFound | timedOut | expired => trivial
  | readFails _ => cases h
  | act connection sent =>
      obtain ⟨rfl, htest⟩ := Bool.and_eq_true_iff.mp h
      unfold coversPanics
      dsimp only
      cases hp : st.phase connection with
      | admitting request => exact nofun
      | tracking request id =>
          simp only [hp, Bool.and_eq_true, Option.isNone_iff_eq_none] at htest
          exact ⟨htest.1, fun hpanicked => by simp [hpanicked] at htest⟩
      | cancelling _ _ _ =>
          rw [hp] at htest
          cases htest
      | reading | indexing _ _ | ended | draining _ _ | returned => trivial
  | advance id _ =>
      intro task ht
      simp only [isCovered, ht, Option.all_some, Option.isNone_iff_eq_none] at h
      refine ⟨fun _ => h, fun _ hl => ?_⟩
      rw [h] at hl
      cases hl
  | receive _ _ | endOfStream _ | poll _ | pend _ | drop _ => trivial

theorem cleaned_up_orderly : ∃ st,
    (threads fun _ => true).Reach tidy {} st ∧ st.panicked 1 = true ∧
      st.Over 0 ∧ st.Cleared 0 := by
  have htest : ((threads fun _ => true).run
      (fun event st => (registersFirst event st && isCovered event st) && ofConnection 0 event st)
      tidyRun {}).map (fun st => st.panicked 1 && isOver st) = some true := by decide +kernel
  obtain ⟨st, hreach, hend⟩ := EventSystem.exists_reach (fun _ _ h => h) htest
  obtain ⟨hpanicked, hend⟩ := Bool.and_eq_true_iff.mp hend
  have htidy : (threads fun _ => true).Reach tidy {} st := by
    refine hreach.mono fun _ _ h => ?_
    obtain ⟨hfirst, hcovered⟩ := Bool.and_eq_true_iff.mp (Bool.and_eq_true_iff.mp h).1
    exact ⟨hfirst, coversPanics_of_isCovered hcovered⟩
  have hover := over_of_isOver (hreach.mono fun _ _ h => (Bool.and_eq_true_iff.mp h).2) hend
  exact ⟨st, htidy, hpanicked, hover, cleaned_up htidy hover⟩

-- An entry stays in the map when the connection is over.
theorem not_cleared_of_entry {registered : String → Bool} {st : RunnerRuntime}
    (halone : (threads registered).Reach (ofConnection 0 · ·) {} st)
    (htest : (isOver st && (st.inFlight "r").any (·.connection = 0)) = true) :
    st.Over 0 ∧ ¬ st.Cleared 0 := by
  obtain ⟨hover, hentry⟩ := Bool.and_eq_true_iff.mp htest
  refine ⟨over_of_isOver halone hover, fun hcleared => ?_⟩
  obtain ⟨entry, he, hconnection⟩ := (Option.any_eq_true _ _).mp hentry
  obtain ⟨task, -, hown, hother⟩ := hcleared.inFlight "r" entry he
  rw [hown] at hother
  exact hother (of_decide_eq_true hconnection)

-- An entry that is made too late stays. In runs where none is, that of a panic still does.
theorem cleaned_up_fails :
    (¬ ∀ (registered : String → Bool) (st : RunnerRuntime),
      (threads registered).Reach (fun _ _ => True) {} st →
        ∀ connection, st.Over connection → st.Cleared connection) ∧
    ¬ ∀ (registered : String → Bool) (st : RunnerRuntime),
      (threads registered).Reach (registersFirst · ·) {} st →
        ∀ connection, st.Over connection → st.Cleared connection := by
  constructor
  · intro h
    have htest : ((threads fun _ => true).run (ofConnection 0) hastyRun {}).map
        (fun st => isOver st && (st.inFlight "r").any (·.connection = 0)) = some true := by
      decide +kernel
    obtain ⟨st, halone, htest⟩ := EventSystem.exists_reach (fun _ _ h => h) htest
    obtain ⟨hover, hstays⟩ := not_cleared_of_entry halone htest
    exact hstays (h _ st (halone.mono fun _ _ _ => trivial) 0 hover)
  · intro h
    have htest : ((threads fun _ => true).run
        (fun event st => registersFirst event st && ofConnection 0 event st) brokenRun {}).map
          (fun st => isOver st && (st.inFlight "r").any (·.connection = 0)) = some true := by
      decide +kernel
    obtain ⟨st, hreach, htest⟩ := EventSystem.exists_reach (fun _ _ h => h) htest
    obtain ⟨hover, hstays⟩ := not_cleared_of_entry
      (hreach.mono fun _ _ h => (Bool.and_eq_true_iff.mp h).2) htest
    exact hstays (h _ st (hreach.mono fun _ _ h => (Bool.and_eq_true_iff.mp h).1) 0 hover)

end RunnerRuntime

end Rrq.Runtime.Rust
