import Rrq.Runtime.Python.Served

namespace Rrq.Runtime.Python

namespace RunnerRuntime

-- What is in flight is so for a request that has been accepted and whose task is not over.
structure Tracked (tracker : InflightTracker) (st : RunnerRuntime) : Prop where
  known : ∀ requestId entry, tracker.inFlight requestId = some entry →
    ∃ id request, st.requestOf id = some request ∧ request.requestId = requestId
  released : ∀ id task, st.tasks id = some task → st.Open task.connection →
    task.stage.Ended = true → tracker.inFlight task.request.requestId = none
  coherent : tracker.Coherent

namespace Tracked

variable {tracker : InflightTracker} {st : RunnerRuntime} (h : Tracked tracker st)
include h

-- No task of an open connection comes to be over.
theorem congr {later : RunnerRuntime} (hrequest : ∀ id, later.requestOf id = st.requestOf id)
    (hopen : ∀ c, later.Open c → st.Open c)
    (hover : ∀ id task, later.tasks id = some task → later.Open task.connection →
      task.stage.Ended = true → ∃ before, st.tasks id = some before ∧
        before.connection = task.connection ∧ before.stage.Ended = true) :
    Tracked tracker later where
  known requestId entry he := by
    obtain ⟨id, request, hr, hid⟩ := h.known requestId entry he
    exact ⟨id, request, by rw [hrequest, hr], hid⟩
  released id task ht ho hs := by
    obtain ⟨before, hb, hc, hbs⟩ := hover id task ht ho hs
    have hr := hrequest id
    rw [requestOf_eq ht, requestOf_eq hb] at hr
    rw [Option.some.inj hr]
    exact h.released id before hb (hc ▸ hopen _ ho) hbs
  coherent := h.coherent

-- What is to be tracked gets less.
theorem handle {event : TrackerEvent}
    (hstart : ∀ requestId jobId task, event ≠ .start requestId jobId task) :
    Tracked (tracker.handle event) st where
  known requestId entry he :=
    h.known requestId entry (InflightTracker.inFlight_of_handle _ (hstart _) he)
  released id task ht ho hs := by
    have hnone := h.released id task ht ho hs
    by_contra hsome
    obtain ⟨entry, he⟩ := Option.ne_none_iff_exists'.mp hsome
    rw [InflightTracker.inFlight_of_handle _ (hstart _) he] at hnone
    cases hnone
  coherent := h.coherent.handle fun requestId jobId task he => absurd he (hstart _ _ _)

theorem foldl_cancel (requestIds : List RequestId) :
    Tracked ((requestIds.map .cancelRequest).foldl InflightTracker.handle tracker) st := by
  induction requestIds generalizing tracker with
  | nil => exact h
  | cons requestId rest ih => exact ih (h.handle fun _ _ _ he => by cases he)

theorem modify {connection : ConnectionId} {update : Connection → Connection}
    (hopen : (update (st.connections connection)).phase.Open = true → st.Open connection) :
    Tracked tracker (st.modify connection update) := by
  apply h.congr
  · intro id
    rfl
  · intro c hc
    grind
  · intro id task ht _ hs
    exact ⟨task, ht, rfl, hs⟩

theorem setLock (connection : ConnectionId) (update : Lock Writer → Lock Writer) :
    Tracked tracker (st.setLock connection update) := h.modify id

theorem write {connection : ConnectionId} {response : Response} :
    Tracked tracker (st.write connection response) := by
  rw [write_eq]
  split
  · exact h.modify id
  · exact h

theorem teardown {connection : ConnectionId} : Tracked tracker (st.teardown connection) := by
  apply h.congr
  · exact fun id => requestOf_teardown st id connection
  · intro c hc
    grind
  · intro id task ht _ hs
    exact ⟨task, ht, rfl, hs⟩

theorem accept {connection : ConnectionId} {request : ExecutionRequest} (hn : Numbered st)
    (hother : ∀ id found, st.requestOf id = some found →
      found.requestId ≠ request.requestId) :
    Tracked (tracker.trackStart request.requestId request.jobId st.nextTask)
      (st.accept connection request) where
  known requestId entry he := by
    rw [InflightTracker.trackStart_inFlight] at he
    by_cases hr : requestId = request.requestId
    · exact ⟨st.nextTask, request, by rw [requestOf_accept, if_pos rfl], hr.symm⟩
    · rw [if_neg hr] at he
      obtain ⟨id, found, hfound, hid⟩ := h.known requestId entry he
      have hne : id ≠ st.nextTask := by
        rintro rfl
        rw [hn.fresh _ (Nat.le_refl _)] at hfound
        cases hfound
      exact ⟨id, found, by rw [requestOf_accept, if_neg hne, hfound], hid⟩
  released id task ht ho hs := by
    rw [tasks_accept] at ht
    by_cases hne : id = st.nextTask
    · rw [if_pos hne] at ht
      obtain rfl := Option.some.inj ht
      cases hs
    · rw [if_neg hne] at ht
      rw [InflightTracker.trackStart_inFlight, if_neg (hother id _ (requestOf_eq ht))]
      apply h.released id task ht _ hs
      grind
  coherent := by
    apply h.coherent.trackStart
    by_contra hsome
    obtain ⟨entry, he⟩ := Option.ne_none_iff_exists'.mp hsome
    obtain ⟨id, found, hfound, hid⟩ := h.known _ entry he
    exact hother id found hfound hid

section Tasks

variable {id : TaskId} {task : Task} (ht : st.tasks id = some task)
include ht

theorem setTask {stage : Stage} {cancelled : Bool}
    (hover : stage.Ended = true → st.Open task.connection → task.stage.Ended = true) :
    Tracked tracker (st.setTask id { task with stage, cancelled }) := by
  have hrequest := requestOf_eq ht
  apply h.congr
  · grind
  · exact fun c hc => hc
  · intro other found hfound ho hs
    rw [tasks_setTask] at hfound
    by_cases hid : other = id
    · rw [if_pos hid] at hfound
      obtain rfl := Option.some.inj hfound
      exact ⟨task, hid ▸ ht, rfl, hover hs ho⟩
    · rw [if_neg hid] at hfound
      exact ⟨found, hfound, rfl, hs⟩

theorem cleanup : Tracked (tracker.handle (.finish task.request.requestId))
    (st.cleanup id task) where
  known requestId entry he := by
    obtain ⟨other, found, hfound, hid⟩ :=
      h.known requestId entry (InflightTracker.inFlight_of_handle _ (fun _ _ h => by cases h) he)
    have hrequest := requestOf_eq ht
    refine ⟨other, found, ?_, hid⟩
    unfold RunnerRuntime.cleanup
    grind
  released other found hfound ho hs := by
    by_cases hr : found.request.requestId = task.request.requestId
    · rw [hr]
      exact (InflightTracker.removeRequest_inFlight _ _ _).trans (if_pos rfl)
    · apply (InflightTracker.removeRequest_inFlight _ _ _).trans
      rw [if_neg hr]
      apply h.released other found
      all_goals
        unfold RunnerRuntime.cleanup at hfound ho
        grind
  coherent := h.coherent.removeRequest _

end Tasks

end Tracked

theorem before_cancelRequest {st : RunnerRuntime} {requestId : RequestId} {id : TaskId}
    {task : Task} (h : (st.cancelRequest requestId).tasks id = some task) :
    ∃ before, st.tasks id = some before ∧ before.connection = task.connection ∧
      before.stage = task.stage := by
  unfold cancelRequest at h
  split at h
  · exact ⟨task, h, rfl, rfl⟩
  · obtain ⟨before, hb, hc, -, hs, -⟩ := before_cancelTask h
    exact ⟨before, hb, hc.symm, hs.symm⟩

theorem open_cancelRequest {st : RunnerRuntime} {requestId : RequestId} {c : ConnectionId} :
    (st.cancelRequest requestId).Open c ↔ st.Open c := by
  unfold cancelRequest Open
  split
  · rfl
  · rw [phase_cancelTask]

namespace Tracked

variable {st : RunnerRuntime}

section Tracker

variable {tracker : InflightTracker} (h : Tracked tracker st)
include h

theorem cancelRequest (requestId : RequestId) : Tracked tracker (st.cancelRequest requestId) := by
  apply h.congr
  · exact fun id => requestOf_cancelRequest _ _ _
  · exact fun c => open_cancelRequest.mp
  · intro id task ht _ hs
    obtain ⟨before, hb, hc, hbs⟩ := before_cancelRequest ht
    exact ⟨before, hb, hc, by rw [hbs, hs]⟩

theorem foldl_cancelRequest (requestIds : List RequestId) :
    Tracked tracker (requestIds.foldl RunnerRuntime.cancelRequest st) := by
  induction requestIds generalizing st with
  | nil => exact h
  | cons requestId rest ih => exact ih (h.cancelRequest requestId)

theorem retrack {later : RunnerRuntime} (htasks : later.tasks = st.tasks)
    (hconnections : later.connections = st.connections) : Tracked tracker later := by
  apply h.congr
  · intro id
    rw [RunnerRuntime.requestOf, htasks]
    rfl
  · intro c hc
    rw [Open, hconnections] at hc
    exact hc
  · intro id task ht _ hs
    exact ⟨task, htasks ▸ ht, rfl, hs⟩

theorem track (event : TrackerEvent) : Tracked tracker (st.track event) := by
  cases event with
  | start requestId jobId task => exact h.retrack rfl rfl
  | finish requestId => exact h.retrack rfl rfl
  | cancelRequest requestId => exact h.cancelRequest requestId
  | cancelJob jobId => exact h.foldl_cancelRequest _

end Tracker

variable (h : Tracked st.caughtUp st)
include h

-- What the tasks do, as to what the tracker comes to in the end.

theorem caughtUp_cleanup {id : TaskId} {task : Task} (ht : st.tasks id = some task) :
    Tracked (st.cleanup id task).caughtUp (st.cleanup id task) := by
  have hcaught : (st.cleanup id task).caughtUp =
      st.caughtUp.handle (.finish task.request.requestId) := by
    unfold RunnerRuntime.cleanup
    rw [caughtUp_setTask, caughtUp_modify, caughtUp_put]
  rw [hcaught]
  exact h.cleanup ht

theorem respond {id : TaskId} {task : Task} (ht : st.tasks id = some task)
    {outcome : ExecutionOutcome} :
    Tracked (st.respond id task outcome).caughtUp (st.respond id task outcome) := by
  unfold RunnerRuntime.respond
  split
  · rw [caughtUp_setTask, caughtUp_write]
    apply h.write.setTask
    · rw [tasks_write]
      exact ht
    · intro hover
      cases hover
  · apply caughtUp_cleanup
    · exact h.setLock _ _
    · exact ht

theorem writeLoop {connection : ConnectionId} {update : Lock Writer → Lock Writer}
    {response : Response} {later : RunnerRuntime} (hopen : st.Open connection)
    (hlater : later = ((st.setLock connection update).write connection response).moveTo
      connection .draining) : Tracked later.caughtUp later := by
  have hcaught : later.caughtUp = st.caughtUp := by
    rw [hlater, moveTo, caughtUp_modify, caughtUp_write]
    rfl
  rw [hcaught, hlater]
  apply (h.setLock _ _).write.modify
  intro _
  simp only [Open, RunnerRuntime.setLock]
  grind

theorem move {registered : String → Bool} {event : Event} {later : RunnerRuntime}
    (hn : Numbered st) (hs : Served st) (hm : Move registered st event later)
    (hadmitted : admitted event st = true) : Tracked later.caughtUp later := by
  obtain ⟨hnew, -⟩ := Bool.and_eq_true_iff.mp hadmitted
  cases hm with
  | accept _ _ =>
      unfold RunnerRuntime.accept
      rw [caughtUp_put]
      exact h.accept hn (hn.other_of_distinct hnew)
  | @refuse connection _ _ hp =>
      have hopen : st.Open connection := by
        rw [Open, hp]
        rfl
      unfold RunnerRuntime.refuse
      split
      · exact h.writeLoop hopen rfl
      · exact (h.setLock _ _).modify fun _ => open_setLock.mpr hopen
  | ignore => exact h
  | cancel hstart _ =>
      rw [caughtUp_put]
      exact (h.handle hstart).retrack rfl rfl
  | teardown _ =>
      rw [caughtUp_teardown]
      exact (h.foldl_cancel _).teardown
  | track hq =>
      rw [caughtUp_track hq]
      apply track
      exact h.retrack rfl rfl
  | @start _ task ht hstage =>
      apply h.setTask ht
      intro hover hopen
      by_cases hcancelled : task.cancelled = true
      · have hcut := hs.uncut _ task ht hcancelled hopen
        rw [hstage] at hcut
        cases hcut
      · rw [if_neg hcancelled] at hover
        cases hover
  | interrupt ht _ => exact h.setTask ht fun hover _ => hover
  | answer ht hstage _ =>
      unfold RunnerRuntime.writeOutcome
      split
      · apply respond
        · exact h.setLock _ _
        · exact ht
      · apply (h.setLock _ _).setTask ht
        intro hover
        cases hover
  | escape ht _ _ => exact h.caughtUp_cleanup ht
  | resume ht _ =>
      unfold RunnerRuntime.wake
      split
      · apply caughtUp_cleanup
        · exact h.setLock _ _
        · exact ht
      · apply respond
        · exact h.setLock _ _
        · exact ht
  | drained ht _ =>
      apply caughtUp_cleanup
      · exact h.setLock _ _
      · exact ht
  | resumeLoop hp =>
      apply h.writeLoop _ rfl
      rw [Open, hp]
      rfl
  | drainedLoop hp =>
      apply (h.setLock _ _).modify
      intro _
      rw [open_setLock, Open, hp]
      rfl

end Tracked

structure Sound (st : RunnerRuntime) : Prop where
  numbered : Numbered st
  lined : Lined st
  served : Served st
  tracked : Tracked st.caughtUp st

theorem Sound.start : Sound {} where
  numbered := by
    constructor
    · intro id _
      rfl
    · intro a b r s hr _ _
      cases hr
  lined := lined_start
  served := by
    constructor
    case own =>
      intro c id response hmem
      cases hmem
    case closed =>
      intro c _
      rfl
    case job =>
      intro c r hjob
      cases hjob
    all_goals
      intro id task
      intros
      contradiction
  tracked := by
    constructor
    · intro requestId entry he
      cases he
    · intro id task _ _ _
      rfl
    · intro requestId jobId hmem
      cases hmem

theorem sound_of_reach {registered : String → Bool} {st : RunnerRuntime}
    (h : (eventLoop registered).Reach (admitted · ·) {} st) : Sound st := by
  induction h with
  | start => exact Sound.start
  | step event _ hadmitted hstep ih =>
      have hm := move_of_step hstep
      obtain ⟨hnew, -⟩ := Bool.and_eq_true_iff.mp hadmitted
      obtain ⟨hn, hl, hs, ht⟩ := ih
      constructor
      · exact hn.move hm hnew
      · exact hl.move hm (Option.map_eq_none_iff.mp (hn.fresh _ (Nat.le_refl _)))
      · exact hs.move hn hm hadmitted
      · exact ht.move hn hs hm hadmitted

-- What becomes of an accepted request. The slot is given back with the last step of its task,
-- the entries of the tracker with what is in the queue by then. No task is kept from coming to
-- its end.
structure Handled (registered : String → Bool) (st : RunnerRuntime) (id : TaskId) (task : Task) :
    Prop where
  own : ∀ c, ∀ response ∈ (st.connections c).responses, response.answers = some id →
    c = task.connection ∧ Own task.request response.outcome
  once : answered (st.connections task.connection).responses id ≤ 1
  ended : task.stage = .ended →
    answered (st.connections task.connection).responses id = 1 ∧
      task.request.requestId ∉ (st.connections task.connection).connectionRequests ∧
      (st.connections task.connection).connectionJobs task.request.requestId = none ∧
      st.caughtUp.inFlight task.request.requestId = none ∧
      ∀ jobId, task.request.requestId ∉ st.caughtUp.entries jobId
  ends : Quiet registered st → task.stage = .ended ∧ st.caughtUp = st.tracker

theorem handled_of_sound {registered : String → Bool} {st : RunnerRuntime} (h : Sound st)
    {id : TaskId} {task : Task} (ht : st.tasks id = some task) (hopen : st.Open task.connection) :
    Handled registered st id task := by
  obtain ⟨hn, hl, hs, htracked⟩ := h
  have hcounted := hs.counted id task ht hopen
  constructor
  · intro c response hmem hanswers
    obtain ⟨hstage, hown⟩ := hs.own c id response hmem hanswers
    rw [stageOn_eq c ht] at hstage
    refine ⟨?_, hown _ (requestOf_eq ht)⟩
    by_contra hc
    rw [if_neg (Ne.symm hc)] at hstage
    cases hstage
  · rw [hcounted]
    split <;> omega
  · intro hover
    rw [hover] at hcounted
    have hslot := hs.slot id task ht (by rw [hover]; rfl)
    have hnone := htracked.released id task ht hopen (by rw [hover]; rfl)
    refine ⟨hcounted, hslot, ?_, hnone, ?_⟩
    · by_contra hjob
      exact hslot (hs.job _ _ (Option.isSome_iff_ne_none.mpr hjob))
    · intro jobId hmem
      obtain ⟨entry, he, -⟩ := htracked.coherent _ _ hmem
      rw [hnone] at he
      cases he
  · intro hq
    refine ⟨hq.ended hl ht, ?_⟩
    rw [caughtUp, hq.queue]
    rfl

theorem answered_and_released {registered : String → Bool} {st : RunnerRuntime}
    (h : (eventLoop registered).Reach (admitted · ·) {} st) {id : TaskId} {task : Task}
    (ht : st.tasks id = some task) (hopen : st.Open task.connection) :
    Handled registered st id task := handled_of_sound (sound_of_reach h) ht hopen

def sampleRequest : ExecutionRequest :=
  { requestId := "r", jobId := "j", functionName := "f"
    context :=
      { jobId := "j", attempt := 1, enqueueTime := ⟨0⟩, queueName := "q", deadline := none
        traceContext := none, correlationContext := none, workerId := none } }

-- One request is answered while the other, which is cancelled, waits for the write lock.
def inTurn : List Event :=
  [.receive 0 (.Request sampleRequest),
    .receive 0 (.Request { sampleRequest with requestId := "q", jobId := "i" }),
    .start 0, .start 1, .track, .track, .receive 0 (.Cancel { jobId := "i" }), .track,
    .finish 0 (.executed (.value (.json .null))), .finish 1 .cancelled, .drained 0, .resume 1,
    .drained 1, .track, .track]

def bothOver (st : RunnerRuntime) : Bool :=
  (st.tasks 0).any (fun task => task.connection = 0 && task.stage.Ended) &&
    (st.tasks 1).any (fun task => task.connection = 0 && task.stage.Ended) && decide (st.Open 0)

theorem answered_and_released_orderly : ∃ st,
    (eventLoop fun _ => true).Reach (admitted · ·) {} st ∧
      answered (st.connections 0).responses 0 = 1 ∧
      answered (st.connections 0).responses 1 = 1 := by
  have htest : ((eventLoop fun _ => true).run admitted inTurn {}).map bothOver = some true := by
    decide +kernel
  obtain ⟨st, hreach, hdone⟩ := EventSystem.exists_reach (fun _ _ h => h) htest
  simp only [bothOver, Bool.and_eq_true, Option.any_eq_true, decide_eq_true_eq] at hdone
  obtain ⟨⟨⟨first, hfirst, hown, hover⟩, second, hsecond, hother, hended⟩, hopen⟩ := hdone
  have hone := (answered_and_released hreach hfirst (hown ▸ hopen)).ended
    (Stage.eq_ended hover)
  have htwo := (answered_and_released hreach hsecond (hother ▸ hopen)).ended
    (Stage.eq_ended hended)
  rw [hown] at hone
  rw [hother] at htwo
  exact ⟨st, hreach, hone.1, htwo.1⟩

-- The tracker gets to a cancel before the task gets to its first step.
def tooSoon : List Event :=
  [.receive 0 (.Cancel { jobId := "other" }), .receive 0 (.Request sampleRequest),
    .receive 0 (.Cancel { jobId := "j", requestId := some "r" }), .track, .track, .track, .start 0]

theorem answered_and_released_fails : ¬ ∀ (registered : String → Bool) (st : RunnerRuntime),
    (eventLoop registered).Reach (distinct · ·) {} st → ∀ id task, st.tasks id = some task →
      st.Open task.connection → Handled registered st id task := by
  intro h
  have htest : ((eventLoop fun _ => true).run distinct tooSoon {}).map (fun st =>
      (st.tasks 0).any (fun task => task.connection = 0 && task.stage.Ended) &&
        decide (st.Open 0 ∧ answered (st.connections 0).responses 0 = 0)) = some true := by
    decide +kernel
  obtain ⟨st, hreach, htest⟩ := EventSystem.exists_reach (fun _ _ h => h) htest
  simp only [Bool.and_eq_true, Option.any_eq_true, decide_eq_true_eq] at htest
  obtain ⟨⟨task, ht, hown, hover⟩, hopen, hnever⟩ := htest
  have hone := ((h _ st hreach 0 task ht (hown ▸ hopen)).ended (Stage.eq_ended hover)).1
  rw [hown, hnever] at hone
  cases hone

end RunnerRuntime

end Rrq.Runtime.Python
