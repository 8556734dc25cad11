import Rrq.Runtime.Python

namespace Rrq.Runtime.Python

@[simp, grind =] theorem mem_insertEntry {entries : List RequestId} {requestId other : RequestId} :
    other ∈ insertEntry entries requestId ↔ other ∈ entries ∨ other = requestId := by
  unfold insertEntry
  by_cases hr : requestId ∈ entries
  · simp only [hr, if_true]
    grind
  · simp [hr]

@[simp, grind =] theorem mem_discardEntry {entries : List RequestId} {requestId other : RequestId} :
    other ∈ discardEntry entries requestId ↔ other ∈ entries ∧ other ≠ requestId := by
  simp [discardEntry]

@[simp, grind =] theorem discardEntry_nil (requestId : RequestId) :
    discardEntry [] requestId = [] := rfl

namespace InflightTracker

variable (tracker : InflightTracker) (requestId other : RequestId) (jobId : JobId)

@[simp, grind =] theorem setEntries_inFlight (entries : List RequestId) :
    (tracker.setEntries jobId entries).inFlight = tracker.inFlight := rfl

@[simp, grind =] theorem entries_setEntries (job : JobId) (entries : List RequestId) :
    (tracker.setEntries jobId entries).entries job =
      if job = jobId then entries else tracker.entries job := by
  unfold InflightTracker.entries setEntries
  by_cases hj : job = jobId
  · by_cases he : entries = []
    · simp [hj, he]
    · simp [hj, he]
  · simp [hj]

@[simp, grind =] theorem trackStart_inFlight (task : TaskId) :
    (tracker.trackStart requestId jobId task).inFlight other =
      if other = requestId then some { jobId, task } else tracker.inFlight other := by
  simp [trackStart, Function.update_apply]

@[simp, grind =] theorem entries_trackStart (task : TaskId) (job : JobId) :
    (tracker.trackStart requestId jobId task).entries job =
      if job = jobId then insertEntry (tracker.entries jobId) requestId
      else tracker.entries job := by
  rw [trackStart, entries_setEntries]
  rfl

@[simp, grind =] theorem removeRequest_inFlight :
    (tracker.removeRequest requestId).inFlight other =
      if other = requestId then none else tracker.inFlight other := by
  unfold removeRequest
  cases he : tracker.inFlight requestId with
  | none =>
      by_cases ho : other = requestId
      · rw [if_pos ho, ho]
        exact he
      · rw [if_neg ho]
  | some entry => simp [Function.update_apply]

theorem mem_entries_removeRequest {job : JobId}
    (h : other ∈ (tracker.removeRequest requestId).entries job) :
    other ∈ tracker.entries job := by
  unfold removeRequest at h
  cases he : tracker.inFlight requestId with
  | none => simpa [he] using h
  | some entry =>
      simp only [he, entries_setEntries] at h
      by_cases hj : job = entry.jobId
      · rw [if_pos hj] at h
        rw [hj]
        exact (mem_discardEntry.mp h).1
      · rw [if_neg hj] at h
        exact h

-- The requests that an event is to cancel.
def named : TrackerEvent → List RequestId
  | .cancelRequest requestId => [requestId]
  | .cancelJob jobId => tracker.entries jobId
  | _ => []

-- What an event makes of the two maps.
def handle : TrackerEvent → InflightTracker
  | .start requestId jobId task => tracker.trackStart requestId jobId task
  | .finish requestId => tracker.removeRequest requestId
  | .cancelRequest requestId => tracker.removeRequest requestId
  | .cancelJob jobId => (tracker.entries jobId).foldl removeRequest tracker

-- What is listed for a job is in flight, for this job.
def Coherent : Prop :=
  ∀ requestId jobId, requestId ∈ tracker.entries jobId →
    ∃ entry, tracker.inFlight requestId = some entry ∧ entry.jobId = jobId

variable {tracker}

namespace Coherent

variable (h : tracker.Coherent)
include h

theorem trackStart (task : TaskId) (hnew : tracker.inFlight requestId = none) :
    (tracker.trackStart requestId jobId task).Coherent := by
  intro found job hmem
  rw [entries_trackStart] at hmem
  rw [trackStart_inFlight]
  by_cases hf : found = requestId
  · rw [if_pos hf]
    by_cases hj : job = jobId
    · exact ⟨_, rfl, hj.symm⟩
    · rw [if_neg hj, hf] at hmem
      obtain ⟨entry, he, -⟩ := h requestId job hmem
      rw [hnew] at he
      cases he
  · rw [if_neg hf]
    apply h
    by_cases hj : job = jobId
    · rw [if_pos hj] at hmem
      rw [hj]
      exact (mem_insertEntry.mp hmem).resolve_right hf
    · rw [if_neg hj] at hmem
      exact hmem

theorem removeRequest : (tracker.removeRequest requestId).Coherent := by
  intro found job hmem
  obtain ⟨entry, he, hj⟩ := h found job (mem_entries_removeRequest _ _ _ hmem)
  by_cases hf : found = requestId
  · subst hf
    unfold InflightTracker.removeRequest at hmem
    simp [he, hj] at hmem
  · exact ⟨entry, by rw [removeRequest_inFlight, if_neg hf]; exact he, hj⟩

theorem foldl_removeRequest (requestIds : List RequestId) :
    (requestIds.foldl InflightTracker.removeRequest tracker).Coherent := by
  induction requestIds generalizing tracker with
  | nil => exact h
  | cons requestId rest ih => exact ih (h.removeRequest requestId)

-- Whatever the tracker is told, as long as what it starts is new to it.
theorem handle {event : TrackerEvent}
    (hnew : ∀ requestId jobId task, event = .start requestId jobId task →
      tracker.inFlight requestId = none) : (tracker.handle event).Coherent := by
  cases event with
  | start requestId jobId task => exact h.trackStart requestId jobId task (hnew _ _ _ rfl)
  | finish requestId => exact h.removeRequest requestId
  | cancelRequest requestId => exact h.removeRequest requestId
  | cancelJob jobId => exact h.foldl_removeRequest _

end Coherent

theorem inFlight_of_removed {requestIds : List RequestId} {entry : InflightEntry}
    (h : (requestIds.foldl removeRequest tracker).inFlight requestId = some entry) :
    tracker.inFlight requestId = some entry := by
  induction requestIds generalizing tracker with
  | nil => exact h
  | cons first rest ih =>
      have hfirst := ih h
      rw [removeRequest_inFlight] at hfirst
      by_cases hr : requestId = first
      · rw [if_pos hr] at hfirst
        cases hfirst
      · rw [if_neg hr] at hfirst
        exact hfirst

-- Only a start puts something in flight.
theorem inFlight_of_handle {event : TrackerEvent} {entry : InflightEntry}
    (hstart : ∀ jobId task, event ≠ .start requestId jobId task)
    (h : (tracker.handle event).inFlight requestId = some entry) :
    tracker.inFlight requestId = some entry := by
  cases event with
  | start started jobId task =>
      have hne : requestId ≠ started := fun he => hstart jobId task (by rw [he])
      simpa [handle, hne] using h
  | finish removed | cancelRequest removed =>
      have hremoved : ([removed].foldl removeRequest tracker).inFlight requestId = some entry := h
      exact inFlight_of_removed requestId hremoved
  | cancelJob jobId => exact inFlight_of_removed requestId h

end InflightTracker

namespace RunnerRuntime

variable (st : RunnerRuntime) (id : TaskId)

@[simp] theorem cancelTask_tracker : (st.cancelTask id).tracker = st.tracker := by
  unfold cancelTask
  repeat' split
  all_goals rfl

@[simp] theorem cancelTask_queue : (st.cancelTask id).queue = st.queue := by
  unfold cancelTask
  repeat' split
  all_goals rfl

@[simp] theorem cancelRequest_tracker (requestId : RequestId) :
    (st.cancelRequest requestId).tracker = st.tracker.removeRequest requestId := by
  unfold cancelRequest
  split
  · rename_i he
    rw [InflightTracker.removeRequest, he]
  · rw [cancelTask_tracker]

@[simp] theorem cancelRequest_queue (requestId : RequestId) :
    (st.cancelRequest requestId).queue = st.queue := by
  unfold cancelRequest
  split
  · rfl
  · rw [cancelTask_queue]

theorem foldl_cancelRequest (requestIds : List RequestId) :
    (requestIds.foldl cancelRequest st).tracker =
        requestIds.foldl InflightTracker.removeRequest st.tracker ∧
      (requestIds.foldl cancelRequest st).queue = st.queue := by
  induction requestIds generalizing st with
  | nil => exact ⟨rfl, rfl⟩
  | cons requestId rest ih =>
      obtain ⟨htracker, hqueue⟩ := ih (st.cancelRequest requestId)
      rw [cancelRequest_tracker] at htracker
      rw [cancelRequest_queue] at hqueue
      exact ⟨htracker, hqueue⟩

theorem track_tracker (event : TrackerEvent) :
    (st.track event).tracker = st.tracker.handle event ∧ (st.track event).queue = st.queue := by
  cases event with
  | start requestId jobId task => exact ⟨rfl, rfl⟩
  | finish requestId => exact ⟨rfl, rfl⟩
  | cancelRequest requestId =>
      exact ⟨cancelRequest_tracker st requestId, cancelRequest_queue st requestId⟩
  | cancelJob jobId => exact foldl_cancelRequest st _

-- The maps, once the tracker has caught up with what is in its queue.
def caughtUp : InflightTracker := st.queue.foldl InflightTracker.handle st.tracker

@[simp, grind =] theorem caughtUp_modify (connection : ConnectionId)
    (update : Connection → Connection) : (st.modify connection update).caughtUp = st.caughtUp := rfl

@[simp, grind =] theorem caughtUp_setTask (task : Task) :
    (st.setTask id task).caughtUp = st.caughtUp := rfl

@[simp, grind =] theorem caughtUp_put (event : TrackerEvent) :
    (st.put event).caughtUp = st.caughtUp.handle event := by
  simp [put, caughtUp]

variable {st}

-- The tracker only does what it was to do.
theorem caughtUp_track {event : TrackerEvent} {rest : List TrackerEvent}
    (h : st.queue = event :: rest) :
    ({ st with queue := rest }.track event).caughtUp = st.caughtUp := by
  obtain ⟨htracker, hqueue⟩ := track_tracker { st with queue := rest } event
  rw [caughtUp, htracker, hqueue, caughtUp, h]
  rfl

end RunnerRuntime

end Rrq.Runtime.Python
