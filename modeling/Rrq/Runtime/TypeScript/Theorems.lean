import Rrq.Runtime.TypeScript

namespace Rrq.Runtime.TypeScript

open RunnerRuntime

-- The write is the response to the request.
def Write.isFor (requestId : RequestId) (write : Write) : Bool :=
  write.answers.any fun answered => answered.1 = requestId

namespace Connection

-- How often a request has been answered on a connection, whatever has come of the writes.
def answers (c : Connection) (requestId : RequestId) : Nat :=
  c.written.countP (Write.isFor requestId) + c.failed.countP (Write.isFor requestId) +
    c.writeChain.countP (Write.isFor requestId)

-- The responses to a request that are written or on their way.
def responses (c : Connection) (requestId : RequestId) : Nat :=
  c.written.countP (Write.isFor requestId) +
    c.writeChain.countP fun write => write.isFor requestId && write.outcome.Stringifies

theorem responses_le (c : Connection) (requestId : RequestId) :
    c.responses requestId ≤ c.answers requestId := by
  have hchain : (c.writeChain.countP fun write =>
      write.isFor requestId && write.outcome.Stringifies) ≤
        c.writeChain.countP (Write.isFor requestId) := by
    apply List.countP_mono_left
    intro write _ h
    exact (Bool.and_eq_true_iff.mp h).1
  unfold responses answers
  omega

end Connection

namespace RunnerRuntime

-- Where a request in flight belongs.
def place (st : RunnerRuntime) (requestId : RequestId) : Option (ConnectionId × JobId) :=
  (st.inFlight requestId).map fun task => (task.connection, task.jobId)

-- What the two maps and the connections say of the requests in flight. The requests at hand
-- are those that a close handler has still to clean up.
structure Tracked (atHand : List RequestId) (st : RunnerRuntime) : Prop where
  index : ∀ requestId jobId, requestId ∈ st.entries jobId ↔
    ∃ connection, st.place requestId = some (connection, jobId)
  active : ∀ requestId connection, requestId ∈ (st.connections connection).activeRequests ↔
    ∃ jobId, st.place requestId = some (connection, jobId)
  accepted : ∀ requestId found, st.place requestId = some found →
    st.accepted requestId = some found
  seen : ∀ requestId, (st.accepted requestId).isSome → st.seen requestId = true
  live : ∀ requestId connection jobId, st.place requestId = some (connection, jobId) →
    (st.connections connection).closed = true → requestId ∈ atHand

@[simp] theorem entries_setEntries (st : RunnerRuntime) (jobId other : JobId)
    (entries : List RequestId) :
    (st.setEntries jobId entries).entries other =
      if other = jobId then entries else st.entries other := by
  unfold RunnerRuntime.entries
  by_cases ho : other = jobId
  · subst ho
    by_cases he : entries = [] <;> simp [he]
  · simp [ho]

theorem entries_congr {st later : RunnerRuntime} (h : later.jobIndex = st.jobIndex)
    (jobId : JobId) : later.entries jobId = st.entries jobId := by
  unfold RunnerRuntime.entries
  rw [h]

theorem entries_set {st later : RunnerRuntime} {jobId : JobId} {entries : List RequestId}
    (h : later.jobIndex = (st.setEntries jobId entries).jobIndex) (other : JobId) :
    later.entries other = if other = jobId then entries else st.entries other :=
  (entries_congr h other).trans (entries_setEntries st jobId other entries)

@[simp] theorem mem_insertEntry {entries : List RequestId} {requestId other : RequestId} :
    other ∈ insertEntry entries requestId ↔ other = requestId ∨ other ∈ entries := by
  unfold insertEntry
  by_cases h : requestId ∈ entries
  · rw [if_pos h]
    constructor
    · exact .inr
    · rintro (rfl | ho)
      · exact h
      · exact ho
  · simp [h, or_comm]

@[simp] theorem mem_deleteEntry {entries : List RequestId} {requestId other : RequestId} :
    other ∈ deleteEntry entries requestId ↔ other ∈ entries ∧ other ≠ requestId := by
  simp [deleteEntry]

@[simp] theorem place_modify (st : RunnerRuntime) (connection : ConnectionId)
    (update : Connection → Connection) (requestId : RequestId) :
    (st.modify connection update).place requestId = st.place requestId := rfl

-- Most of what happens moves no request in or out.
structure SameTracking (st later : RunnerRuntime) : Prop where
  place : ∀ requestId, later.place requestId = st.place requestId
  index : later.jobIndex = st.jobIndex
  accepted : later.accepted = st.accepted
  seen : later.seen = st.seen
  active : ∀ connection, (later.connections connection).activeRequests =
    (st.connections connection).activeRequests
  closed : ∀ connection, (later.connections connection).closed =
    (st.connections connection).closed

namespace SameTracking

variable {st later last : RunnerRuntime}

theorem refl (st : RunnerRuntime) : SameTracking st st :=
  ⟨fun _ => rfl, rfl, rfl, rfl, fun _ => rfl, fun _ => rfl⟩

theorem trans (h : SameTracking st later) (h' : SameTracking later last) :
    SameTracking st last where
  place requestId := (h'.place requestId).trans (h.place requestId)
  index := h'.index.trans h.index
  accepted := h'.accepted.trans h.accepted
  seen := h'.seen.trans h.seen
  active connection := (h'.active connection).trans (h.active connection)
  closed connection := (h'.closed connection).trans (h.closed connection)

theorem tracked (h : SameTracking st later) {atHand : List RequestId} (ht : Tracked atHand st) :
    Tracked atHand later where
  index requestId jobId := by
    rw [entries_congr h.index, h.place]
    exact ht.index requestId jobId
  active requestId connection := by
    rw [h.active, h.place]
    exact ht.active requestId connection
  accepted requestId found hp := by
    rw [h.accepted]
    exact ht.accepted requestId found (h.place requestId ▸ hp)
  seen requestId hs := by
    rw [h.seen]
    exact ht.seen requestId (h.accepted ▸ hs)
  live requestId connection jobId hp hc :=
    ht.live requestId connection jobId (h.place requestId ▸ hp) (h.closed connection ▸ hc)

end SameTracking

-- What an update of a connection leaves alone is left alone everywhere.
theorem modify_keeps {β : Type} (part : Connection → β) (st : RunnerRuntime)
    (connection other : ConnectionId) {update : Connection → Connection}
    (hpart : ∀ c, part (update c) = part c) :
    part ((st.modify connection update).connections other) = part (st.connections other) := by
  by_cases ho : other = connection
  · subst ho
    simp [hpart]
  · simp [ho]

-- To accept a request and to clean up after one changes the active requests and no other
-- part of a connection.
theorem accept_keeps {β : Type} (part : Connection → β)
    (hpart : ∀ c active, part { c with activeRequests := active } = part c) (st : RunnerRuntime)
    (connection : ConnectionId) (request : ExecutionRequest) (other : ConnectionId) :
    part ((st.accept connection request).connections other) = part (st.connections other) := by
  by_cases ho : other = connection
  · subst ho
    simp [accept, hpart]
  · simp [accept, ho]

theorem cleanup_keeps {β : Type} (part : Connection → β)
    (hpart : ∀ c active, part { c with activeRequests := active } = part c) (st : RunnerRuntime)
    (requestId : RequestId) (jobId : JobId) (connection other : ConnectionId) :
    part ((st.cleanupRequest requestId jobId connection).connections other) =
      part (st.connections other) := by
  by_cases ho : other = connection
  · subst ho
    simp [cleanupRequest, hpart]
  · simp [cleanupRequest, ho]

section Same

variable (st : RunnerRuntime)

theorem same_modify (connection : ConnectionId) (update : Connection → Connection)
    (hactive : ∀ c, (update c).activeRequests = c.activeRequests)
    (hclosed : ∀ c, (update c).closed = c.closed) :
    SameTracking st (st.modify connection update) where
  place _ := rfl
  index := rfl
  accepted := rfl
  seen := rfl
  active other := modify_keeps Connection.activeRequests st connection other hactive
  closed other := modify_keeps Connection.closed st connection other hclosed

theorem same_enqueueWrite (connection : ConnectionId) (write : Write) :
    SameTracking st (st.enqueueWrite connection write) :=
  same_modify st connection _ (fun _ => rfl) fun _ => rfl

theorem same_setExecution (requestId : RequestId) (execution : Execution) :
    SameTracking st (st.setExecution requestId execution) :=
  ⟨fun _ => rfl, rfl, rfl, rfl, fun _ => rfl, fun _ => rfl⟩

theorem same_abort (requestId : RequestId) : SameTracking st (st.abort requestId) := by
  unfold abort
  split
  · split
    · exact same_setExecution st _ _
    · exact .refl st
  · exact .refl st

theorem same_answer {requestId : RequestId} {task : InFlightTask}
    (ht : st.inFlight requestId = some task) (outcome : ExecutionOutcome) :
    SameTracking st (st.answer requestId task outcome) := by
  apply SameTracking.trans _ (same_enqueueWrite _ _ _)
  refine ⟨fun other => ?_, rfl, rfl, rfl, fun _ => rfl, fun _ => rfl⟩
  unfold RunnerRuntime.place
  by_cases ho : other = requestId
  · subst ho
    simp [ht]
  · simp [ho]

theorem inFlight_abort (requestId : RequestId) : (st.abort requestId).inFlight = st.inFlight := by
  unfold abort
  split
  · split <;> rfl
  · rfl

theorem same_noteCancelled (requestId : RequestId) :
    SameTracking st (st.noteCancelled requestId) :=
  ⟨fun _ => rfl, rfl, rfl, rfl, fun _ => rfl, fun _ => rfl⟩

theorem same_cancelOne (payload : CancelRequest) (requestId : RequestId) :
    SameTracking st (cancelOne payload st requestId) := by
  have hnoted := same_noteCancelled st requestId
  unfold cancelOne
  dsimp only
  split
  · exact hnoted
  · rename_i task htask
    split
    · exact hnoted
    · apply hnoted.trans
      apply SameTracking.trans (same_abort _ requestId)
      apply same_answer
      rw [inFlight_abort]
      exact htask

theorem same_handleCancel (payload : CancelRequest) :
    SameTracking st (st.handleCancel payload) := by
  have hfold : ∀ (requestIds : List RequestId) (st : RunnerRuntime),
      SameTracking st (requestIds.foldl (cancelOne payload) st) := by
    intro requestIds
    induction requestIds with
    | nil => exact SameTracking.refl
    | cons requestId requestIds ih =>
        exact fun st => (same_cancelOne st payload requestId).trans (ih _)
  unfold handleCancel
  split
  · exact .refl st
  · exact hfold _ st

theorem same_writeFrame (connection : ConnectionId) (write : Write) (rest : List Write) :
    SameTracking st (st.writeFrame connection write rest) where
  place _ := rfl
  index := rfl
  accepted := rfl
  seen := rfl
  active other := by
    by_cases ho : other = connection
    · subst ho
      simp only [writeFrame, Function.update_self]
      split <;> rfl
    · simp [writeFrame, ho]
  closed other := by
    by_cases ho : other = connection
    · subst ho
      simp only [writeFrame, Function.update_self]
      split <;> rfl
    · simp [writeFrame, ho]

end Same

-- A request comes in, and one goes out.

section Moves

variable {st : RunnerRuntime} {atHand : List RequestId}

theorem place_accept (connection : ConnectionId) (request : ExecutionRequest)
    (requestId : RequestId) : (st.accept connection request).place requestId =
      if requestId = request.requestId then some (connection, request.jobId)
      else st.place requestId := by
  unfold RunnerRuntime.place accept
  by_cases hr : requestId = request.requestId
  · subst hr
    simp
  · simp [hr]

theorem place_cleanup (requestId : RequestId) (jobId : JobId) (connection : ConnectionId)
    (other : RequestId) : (st.cleanupRequest requestId jobId connection).place other =
      if other = requestId then none else st.place other := by
  unfold RunnerRuntime.place cleanupRequest
  by_cases ho : other = requestId
  · subst ho
    simp
  · simp [ho]

theorem place_none (ht : Tracked atHand st) {requestId : RequestId}
    (h : st.accepted requestId = none) : st.place requestId = none := by
  cases hp : st.place requestId with
  | none => rfl
  | some found =>
      rw [ht.accepted requestId found hp] at h
      cases h

theorem tracked_accept (ht : Tracked atHand st) {connection : ConnectionId}
    {request : ExecutionRequest} (hopen : (st.connections connection).closed = false)
    (hnew : st.accepted request.requestId = none) (hseen : st.seen request.requestId = true) :
    Tracked atHand (st.accept connection request) where
  index requestId jobId := by
    have hold := place_none ht hnew
    have hentries : (st.accept connection request).entries jobId =
        if jobId = request.jobId then
          insertEntry (st.entries request.jobId) request.requestId
        else st.entries jobId := entries_set rfl jobId
    rw [hentries, place_accept]
    by_cases hr : requestId = request.requestId
    · subst hr
      by_cases hj : jobId = request.jobId
      · simp [hj]
      · have hnot : request.requestId ∉ st.entries jobId := by
          rw [ht.index, hold]
          simp
        simp [hj, hnot, Ne.symm hj]
    · by_cases hj : jobId = request.jobId
      · subst hj
        simp [hr, ht.index]
      · simp [hr, hj, ht.index]
  active requestId other := by
    have hold := place_none ht hnew
    rw [place_accept]
    by_cases hc : other = connection
    · subst hc
      by_cases hr : requestId = request.requestId
      · simp [accept, hr]
      · simp [accept, hr, ht.active]
    · by_cases hr : requestId = request.requestId
      · have hnot : request.requestId ∉ (st.connections other).activeRequests := by
          rw [ht.active, hold]
          simp
        simp [accept, hr, hc, hnot, Ne.symm hc]
      · simp [accept, hr, hc, ht.active]
  accepted requestId found hp := by
    rw [place_accept] at hp
    by_cases hr : requestId = request.requestId
    · rw [if_pos hr] at hp
      simpa [accept, hr] using hp
    · rw [if_neg hr] at hp
      simpa [accept, hr] using ht.accepted requestId found hp
  seen requestId hs := by
    by_cases hr : requestId = request.requestId
    · exact hr ▸ hseen
    · exact ht.seen requestId (by simpa [accept, hr] using hs)
  live requestId other jobId hp hc := by
    have hclosed : (st.connections other).closed = true := by
      by_cases ho : other = connection
      · subst ho
        simpa [accept] using hc
      · simpa [accept, ho] using hc
    rw [place_accept] at hp
    by_cases hr : requestId = request.requestId
    · rw [if_pos hr] at hp
      obtain ⟨rfl, -⟩ := Prod.mk.injEq .. ▸ Option.some.inj hp
      rw [hopen] at hclosed
      cases hclosed
    · rw [if_neg hr] at hp
      exact ht.live requestId other jobId hp hclosed

theorem tracked_cleanup {requestId : RequestId} {rest : List RequestId} {jobId : JobId}
    {connection : ConnectionId} (ht : Tracked atHand st)
    (hplace : ∀ found, st.place requestId = some found → found = (connection, jobId))
    (hrest : ∀ other ∈ atHand, other ∈ rest ∨ other = requestId) :
    Tracked rest (st.cleanupRequest requestId jobId connection) where
  index other job := by
    have hentries : (st.cleanupRequest requestId jobId connection).entries job =
        if job = jobId then deleteEntry (st.entries jobId) requestId else st.entries job :=
      entries_set rfl job
    rw [hentries, place_cleanup]
    by_cases ho : other = requestId
    · subst ho
      by_cases hj : job = jobId
      · simp [hj]
      · have hnot : other ∉ st.entries job := by
          rw [ht.index]
          rintro ⟨found, hp⟩
          obtain ⟨-, hjob⟩ := Prod.mk.injEq .. ▸ hplace _ hp
          exact hj hjob
        simp [hj, hnot]
    · by_cases hj : job = jobId
      · subst hj
        simp [ho, ht.index]
      · simp [ho, hj, ht.index]
  active other conn := by
    rw [place_cleanup]
    by_cases hc : conn = connection
    · subst hc
      by_cases ho : other = requestId
      · simp [cleanupRequest, ho]
      · simp [cleanupRequest, ho, ht.active]
    · by_cases ho : other = requestId
      · subst ho
        have hnot : other ∉ (st.connections conn).activeRequests := by
          rw [ht.active]
          rintro ⟨job, hp⟩
          obtain ⟨hconn, -⟩ := Prod.mk.injEq .. ▸ hplace _ hp
          exact hc hconn
        simp [cleanupRequest, hc, hnot]
      · simp [cleanupRequest, ho, hc, ht.active]
  accepted other found hp := by
    rw [place_cleanup] at hp
    exact ht.accepted other found (Option.ite_none_left_eq_some.mp hp).2
  seen other hs := ht.seen other hs
  live other conn job hp hc := by
    rw [place_cleanup] at hp
    obtain ⟨hne, hp⟩ := Option.ite_none_left_eq_some.mp hp
    rw [cleanup_keeps Connection.closed (fun _ _ => rfl)] at hc
    rcases hrest other (ht.live other conn job hp hc) with hlater | heq
    · exact hlater
    · exact absurd heq hne

end Moves

-- How often the requests have been answered.

structure Answered (st : RunnerRuntime) : Prop where
  owned : ∀ connection requestId, 0 < (st.connections connection).answers requestId →
    ∃ jobId, st.accepted requestId = some (connection, jobId)
  inFlight : ∀ requestId task, st.inFlight requestId = some task →
    (st.connections task.connection).answers requestId = if task.completed then 1 else 0
  -- A request that is gone has been answered, or its connection is closed.
  gone : ∀ requestId connection jobId, st.accepted requestId = some (connection, jobId) →
    st.inFlight requestId = none → (st.connections connection).answers requestId ≤ 1 ∧
      ((st.connections connection).closed = false →
        (st.connections connection).answers requestId = 1)
  completed : ∀ requestId task, st.inFlight requestId = some task →
    st.executions requestId = some .ended ∨ st.cancelled requestId = true → task.completed = true
  known : ∀ requestId, (st.executions requestId).isSome ∨ st.cancelled requestId = true ∨
    st.resumed requestId = true → (st.accepted requestId).isSome
  chained : ∀ connection, ∀ write ∈ (st.connections connection).writeChain, ∀ requestId jobId,
    write.answers = some (requestId, jobId) →
      st.accepted requestId = some (connection, jobId) ∧
        ∀ task, st.inFlight requestId = some task → task.completed = true
  resuming : ∀ requestId jobId connection, (requestId, jobId, connection) ∈ st.resuming →
    st.accepted requestId = some (connection, jobId) ∧
      ∀ task, st.inFlight requestId = some task → task.completed = true
  resumed : ∀ requestId, st.resumed requestId = true → st.inFlight requestId = none

theorem isFor_of_answers {write : Write} {requestId other : RequestId} {jobId : JobId}
    (h : write.answers = some (requestId, jobId)) :
    write.isFor other = decide (requestId = other) := by
  simp [Write.isFor, h]

theorem isFor_of_none {write : Write} (h : write.answers = none) (requestId : RequestId) :
    write.isFor requestId = false := by
  simp [Write.isFor, h]

theorem mem_enqueueWrite {st : RunnerRuntime} {connection other : ConnectionId} {write found : Write}
    (h : found ∈ ((st.enqueueWrite connection write).connections other).writeChain) :
    found ∈ (st.connections other).writeChain ∨ found = write := by
  by_cases ho : other = connection
  · subst ho
    simpa only [enqueueWrite_connections, Function.update_self, List.mem_append,
      List.mem_singleton] using h
  · exact .inl (by simpa [ho] using h)

theorem answers_enqueueWrite (st : RunnerRuntime) (connection other : ConnectionId)
    (write : Write) (requestId : RequestId) :
    ((st.enqueueWrite connection write).connections other).answers requestId =
      (st.connections other).answers requestId +
        if other = connection ∧ write.isFor requestId = true then 1 else 0 := by
  by_cases ho : other = connection
  · subst ho
    simp only [enqueueWrite_connections, Function.update_self, Connection.answers,
      List.countP_append, List.countP_singleton, true_and]
    omega
  · simp [ho]

theorem answers_writeFrame {st : RunnerRuntime} {connection : ConnectionId} {write : Write}
    {rest : List Write} (h : (st.connections connection).writeChain = write :: rest)
    (other : ConnectionId) (requestId : RequestId) :
    ((st.writeFrame connection write rest).connections other).answers requestId =
      (st.connections other).answers requestId := by
  by_cases ho : other = connection
  · subst ho
    simp only [writeFrame, Function.update_self, Connection.answers, h]
    split
    · simp only [List.countP_append, List.countP_cons, List.countP_nil]
      omega
    · simp only [List.countP_append, List.countP_cons, List.countP_nil]
      omega
  · simp [writeFrame, ho]

namespace Answered

variable {st later : RunnerRuntime}

-- A change that touches neither the tasks nor their responses.
theorem of_same (h : Answered st) (hinFlight : later.inFlight = st.inFlight)
    (haccepted : later.accepted = st.accepted) (hresuming : later.resuming = st.resuming)
    (hresumed : later.resumed = st.resumed)
    (hanswers : ∀ connection requestId, (later.connections connection).answers requestId =
      (st.connections connection).answers requestId)
    (hchain : ∀ connection, ∀ write ∈ (later.connections connection).writeChain,
      write ∈ (st.connections connection).writeChain ∨ write.answers = none)
    (hclosed : ∀ connection, (st.connections connection).closed = true →
      (later.connections connection).closed = true)
    (hcompleted : ∀ requestId task, st.inFlight requestId = some task →
      later.executions requestId = some .ended ∨ later.cancelled requestId = true →
        task.completed = true)
    (hknown : ∀ requestId, (later.executions requestId).isSome ∨
      later.cancelled requestId = true → (st.accepted requestId).isSome) : Answered later where
  owned connection requestId hpos := by
    rw [hanswers] at hpos
    rw [haccepted]
    exact h.owned connection requestId hpos
  inFlight requestId task ht := by
    rw [hanswers]
    exact h.inFlight requestId task (hinFlight ▸ ht)
  gone requestId connection jobId ha hn := by
    rw [haccepted] at ha
    rw [hinFlight] at hn
    obtain ⟨hle, hopen⟩ := h.gone requestId connection jobId ha hn
    rw [hanswers]
    refine ⟨hle, fun hc => hopen ?_⟩
    by_contra hnot
    rw [hclosed connection (Bool.not_eq_false _ ▸ hnot)] at hc
    cases hc
  completed requestId task ht := hcompleted requestId task (hinFlight ▸ ht)
  known requestId hk := by
    rw [haccepted]
    rcases hk with hexecution | hcancelled | hresumed'
    · exact hknown requestId (.inl hexecution)
    · exact hknown requestId (.inr hcancelled)
    · exact h.known requestId (.inr (.inr (hresumed ▸ hresumed')))
  chained connection write hw requestId jobId ha := by
    rw [haccepted, hinFlight]
    rcases hchain connection write hw with hold | hnone
    · exact h.chained connection write hold requestId jobId ha
    · rw [hnone] at ha
      cases ha
  resuming requestId jobId connection hr := by
    rw [haccepted, hinFlight]
    exact h.resuming requestId jobId connection (hresuming ▸ hr)
  resumed requestId hr := by
    rw [hinFlight]
    exact h.resumed requestId (hresumed ▸ hr)

theorem enqueueWrite (h : Answered st) (connection : ConnectionId) {write : Write}
    (hw : write.answers = none) : Answered (st.enqueueWrite connection write) := by
  refine h.of_same rfl rfl rfl rfl ?_ ?_ ?_ ?_ ?_
  · intro other requestId
    rw [answers_enqueueWrite, isFor_of_none hw]
    simp
  · intro other found hf
    rcases mem_enqueueWrite hf with hold | rfl
    · exact .inl hold
    · exact .inr hw
  · intro other hc
    by_cases ho : other = connection
    · subst ho
      simpa using hc
    · simpa [ho] using hc
  · exact h.completed
  · exact fun requestId hk => h.known requestId (hk.imp_right .inl)

theorem setExecution (h : Answered st) {requestId : RequestId} {execution : Execution}
    (hk : (st.accepted requestId).isSome)
    (hover : execution = .ended → ∀ task, st.inFlight requestId = some task →
      task.completed = true) : Answered (st.setExecution requestId execution) := by
  refine h.of_same rfl rfl rfl rfl ?_ ?_ ?_ ?_ ?_
  · exact fun _ _ => rfl
  · exact fun _ _ hw => .inl hw
  · exact fun _ hc => hc
  · intro other task ht hdone
    by_cases ho : other = requestId
    · subst ho
      rcases hdone with hexecution | hcancelled
      · simp only [setExecution_executions, Function.update_self, Option.some.injEq] at hexecution
        exact hover hexecution task ht
      · exact h.completed other task ht (.inr hcancelled)
    · apply h.completed other task ht
      simpa [ho] using hdone
  · intro other hdone
    by_cases ho : other = requestId
    · exact ho ▸ hk
    · apply h.known other
      rcases hdone with hexecution | hcancelled
      · exact .inl (by simpa [ho] using hexecution)
      · exact .inr (.inl hcancelled)

theorem abort (h : Answered st) (requestId : RequestId) : Answered (st.abort requestId) := by
  unfold RunnerRuntime.abort
  split
  · rename_i request hexecution
    split
    · apply h.setExecution
      · exact h.known requestId (.inl (by simp [hexecution]))
      · nofun
    · exact h
  · exact h

theorem modify (h : Answered st) (connection : ConnectionId) {update : Connection → Connection}
    (hanswers : ∀ c requestId, (update c).answers requestId = c.answers requestId)
    (hchain : ∀ c, (update c).writeChain = c.writeChain)
    (hclosed : ∀ c, c.closed = true → (update c).closed = true) :
    Answered (st.modify connection update) := by
  refine h.of_same rfl rfl rfl rfl ?_ ?_ ?_ h.completed fun requestId hk =>
    h.known requestId (hk.imp_right .inl)
  · intro other requestId
    exact modify_keeps (·.answers requestId) st connection other (hanswers · requestId)
  · intro other write hw
    left
    rw [modify_keeps Connection.writeChain st connection other hchain] at hw
    exact hw
  · intro other hc
    by_cases ho : other = connection
    · subst ho
      simpa using hclosed _ hc
    · simpa [ho] using hc

theorem noteCancelled (h : Answered st) {requestId : RequestId}
    (hdone : ∀ task, st.inFlight requestId = some task → task.completed = true) :
    Answered (st.noteCancelled requestId) := by
  refine h.of_same rfl rfl rfl rfl (fun _ _ => rfl) (fun _ _ hw => .inl hw) (fun _ hc => hc)
    ?_ ?_
  · intro other task ht hcases
    simp only [RunnerRuntime.noteCancelled, Bool.or_eq_true, Bool.and_eq_true,
      decide_eq_true_eq] at hcases
    rcases hcases with hexecution | hold | ⟨rfl, -⟩
    · exact h.completed other task ht (.inl hexecution)
    · exact h.completed other task ht (.inr hold)
    · exact hdone task ht
  · intro other hcases
    simp only [RunnerRuntime.noteCancelled, Bool.or_eq_true, Bool.and_eq_true,
      decide_eq_true_eq] at hcases
    rcases hcases with hexecution | hold | ⟨rfl, hsome⟩
    · exact h.known other (.inl hexecution)
    · exact h.known other (.inr (.inl hold))
    · exact hsome

theorem answer (h : Answered st) {requestId : RequestId} {task : InFlightTask}
    (ht : st.inFlight requestId = some task) (hnot : task.completed = false)
    (ha : st.accepted requestId = some (task.connection, task.jobId))
    (outcome : ExecutionOutcome) : Answered (st.answer requestId task outcome) := by
  let write : Write := { outcome, answers := some (requestId, task.jobId) }
  have hanswers : ∀ connection other,
      ((st.answer requestId task outcome).connections connection).answers other =
        (st.connections connection).answers other +
          if connection = task.connection ∧ requestId = other then 1 else 0 := by
    intro connection other
    have hwrite : write.isFor other = decide (requestId = other) := isFor_of_answers rfl
    refine (answers_enqueueWrite _ task.connection connection write other).trans ?_
    simp [hwrite]
  have hself : (st.answer requestId task outcome).inFlight requestId =
      some { task with completed := true } := by simp [RunnerRuntime.answer]
  have hother : ∀ other, other ≠ requestId →
      (st.answer requestId task outcome).inFlight other = st.inFlight other := by
    intro other ho
    simp [RunnerRuntime.answer, ho]
  have hcompleted : ∀ found, (st.answer requestId task outcome).inFlight requestId = some found →
      found.completed = true := by
    intro found hf
    rw [hself] at hf
    obtain rfl := Option.some.inj hf
    rfl
  -- A task that was over stays so, and this one is over now.
  have hover : ∀ other, (∀ found, st.inFlight other = some found → found.completed = true) →
      ∀ now, (st.answer requestId task outcome).inFlight other = some now →
        now.completed = true := by
    intro other hdone now hnow
    by_cases ho : other = requestId
    · subst ho
      exact hcompleted now hnow
    · exact hdone now (hother other ho ▸ hnow)
  have hclosed : ∀ connection,
      ((st.answer requestId task outcome).connections connection).closed =
        (st.connections connection).closed := (same_answer st ht outcome).closed
  constructor
  · intro connection other hpos
    rw [hanswers] at hpos
    by_cases hcond : connection = task.connection ∧ requestId = other
    · obtain ⟨rfl, rfl⟩ := hcond
      exact ⟨task.jobId, ha⟩
    · rw [if_neg hcond] at hpos
      exact h.owned connection other hpos
  · intro other found hf
    rw [hanswers]
    by_cases ho : other = requestId
    · subst ho
      rw [hself] at hf
      obtain rfl := Option.some.inj hf
      have hzero := h.inFlight other task ht
      rw [hnot] at hzero
      simpa using hzero
    · rw [hother other ho] at hf
      rw [if_neg fun hcond => ho hcond.2.symm]
      exact h.inFlight other found hf
  · intro other connection jobId hacc hn
    by_cases ho : other = requestId
    · subst ho
      rw [hself] at hn
      cases hn
    · rw [hother other ho] at hn
      rw [hanswers, if_neg fun hcond => ho hcond.2.symm]
      rw [hclosed]
      exact h.gone other connection jobId hacc hn
  · intro other found hf hdone
    by_cases ho : other = requestId
    · subst ho
      exact hcompleted found hf
    · exact h.completed other found (hother other ho ▸ hf) hdone
  · exact h.known
  · intro connection found hw other jobId hanswered
    have hmem : found ∈ (st.connections connection).writeChain ∨
        connection = task.connection ∧ found = write := by
      by_cases hconn : connection = task.connection
      · subst hconn
        simpa [RunnerRuntime.answer, write] using hw
      · exact .inl (by simpa [RunnerRuntime.answer, hconn] using hw)
    rcases hmem with hold | ⟨rfl, rfl⟩
    · obtain ⟨hacc, hdone⟩ := h.chained connection found hold other jobId hanswered
      exact ⟨hacc, hover other hdone⟩
    · obtain ⟨rfl, rfl⟩ := Prod.mk.injEq .. ▸ Option.some.inj hanswered
      exact ⟨ha, hcompleted⟩
  · intro other jobId connection hr
    obtain ⟨hacc, hdone⟩ := h.resuming other jobId connection hr
    exact ⟨hacc, hover other hdone⟩
  · intro other hr
    have hn := h.resumed other hr
    by_cases ho : other = requestId
    · subst ho
      rw [ht] at hn
      cases hn
    · rw [hother other ho]
      exact hn

theorem accept (h : Answered st) {connection : ConnectionId} {request : ExecutionRequest}
    (hnew : st.accepted request.requestId = none) : Answered (st.accept connection request) := by
  have hanswers : ∀ other requestId,
      ((st.accept connection request).connections other).answers requestId =
        (st.connections other).answers requestId := fun other requestId =>
    accept_keeps (·.answers requestId) (fun _ _ => rfl) st connection request other
  have hchain : ∀ other, ((st.accept connection request).connections other).writeChain =
      (st.connections other).writeChain :=
    accept_keeps Connection.writeChain (fun _ _ => rfl) st connection request
  have hclosed : ∀ other, ((st.accept connection request).connections other).closed =
      (st.connections other).closed :=
    accept_keeps Connection.closed (fun _ _ => rfl) st connection request
  have hold : ∀ requestId, (st.accepted requestId).isSome → requestId ≠ request.requestId := by
    rintro requestId hsome rfl
    rw [hnew] at hsome
    cases hsome
  have haccepted : ∀ requestId, requestId ≠ request.requestId →
      (st.accept connection request).accepted requestId = st.accepted requestId := by
    intro requestId hr
    simp [RunnerRuntime.accept, hr]
  have hinFlight : ∀ requestId, requestId ≠ request.requestId →
      (st.accept connection request).inFlight requestId = st.inFlight requestId := by
    intro requestId hr
    simp [RunnerRuntime.accept, hr]
  have hexecutions : ∀ requestId, requestId ≠ request.requestId →
      (st.accept connection request).executions requestId = st.executions requestId := by
    intro requestId hr
    simp [RunnerRuntime.accept, hr]
  have hself : (st.accept connection request).inFlight request.requestId =
      some { connection, jobId := request.jobId } := by simp [RunnerRuntime.accept]
  constructor
  · intro other requestId hpos
    rw [hanswers] at hpos
    obtain ⟨jobId, ha⟩ := h.owned other requestId hpos
    exact ⟨jobId, by rw [haccepted _ (hold requestId (by simp [ha])), ha]⟩
  · intro requestId task ht
    rw [hanswers]
    by_cases hr : requestId = request.requestId
    · subst hr
      rw [hself] at ht
      obtain rfl := Option.some.inj ht
      by_contra hpos
      obtain ⟨jobId, ha⟩ := h.owned connection request.requestId (by simp at hpos; omega)
      rw [hnew] at ha
      cases ha
    · exact h.inFlight requestId task (hinFlight requestId hr ▸ ht)
  · intro requestId other jobId ha hn
    by_cases hr : requestId = request.requestId
    · subst hr
      rw [hself] at hn
      cases hn
    · rw [haccepted requestId hr] at ha
      rw [hinFlight requestId hr] at hn
      rw [hanswers, hclosed]
      exact h.gone requestId other jobId ha hn
  · intro requestId task ht hdone
    by_cases hr : requestId = request.requestId
    · subst hr
      rcases hdone with hexecution | hcancelled
      · have hbegin : begin request = .ended := by
          simpa [RunnerRuntime.accept] using hexecution
        unfold begin at hbegin
        split at hbegin <;> cases hbegin
      · have hsome := h.known request.requestId (.inr (.inl hcancelled))
        rw [hnew] at hsome
        cases hsome
    · rw [hexecutions requestId hr] at hdone
      exact h.completed requestId task (hinFlight requestId hr ▸ ht) hdone
  · intro requestId hk
    by_cases hr : requestId = request.requestId
    · simp [RunnerRuntime.accept, hr]
    · rw [hexecutions requestId hr] at hk
      rw [haccepted requestId hr]
      exact h.known requestId hk
  · intro other write hw requestId jobId ha
    rw [hchain] at hw
    obtain ⟨hacc, hdone⟩ := h.chained other write hw requestId jobId ha
    have hr := hold requestId (by simp [hacc])
    rw [haccepted requestId hr, hinFlight requestId hr]
    exact ⟨hacc, hdone⟩
  · intro requestId jobId other hmem
    obtain ⟨hacc, hdone⟩ := h.resuming requestId jobId other hmem
    have hr := hold requestId (by simp [hacc])
    rw [haccepted requestId hr, hinFlight requestId hr]
    exact ⟨hacc, hdone⟩
  · intro requestId hresumed
    have hr := hold requestId (h.known requestId (.inr (.inr hresumed)))
    rw [hinFlight requestId hr]
    exact h.resumed requestId hresumed

theorem cleanup (h : Answered st) {requestId : RequestId} {jobId : JobId}
    {connection : ConnectionId}
    (haccepted : ∀ task, st.inFlight requestId = some task →
      st.accepted requestId = some (task.connection, task.jobId))
    (hdone : ∀ task, st.inFlight requestId = some task → task.completed = true ∨
      (st.connections task.connection).closed = true) :
    Answered (st.cleanupRequest requestId jobId connection) := by
  have hanswers : ∀ other found,
      ((st.cleanupRequest requestId jobId connection).connections other).answers found =
        (st.connections other).answers found := fun other found =>
    cleanup_keeps (·.answers found) (fun _ _ => rfl) st requestId jobId connection other
  have hchain : ∀ other,
      ((st.cleanupRequest requestId jobId connection).connections other).writeChain =
        (st.connections other).writeChain :=
    cleanup_keeps Connection.writeChain (fun _ _ => rfl) st requestId jobId connection
  have hclosed : ∀ other,
      ((st.cleanupRequest requestId jobId connection).connections other).closed =
        (st.connections other).closed :=
    cleanup_keeps Connection.closed (fun _ _ => rfl) st requestId jobId connection
  have hinFlight : ∀ other task,
      (st.cleanupRequest requestId jobId connection).inFlight other = some task →
        other ≠ requestId ∧ st.inFlight other = some task := by
    intro other task ht
    by_cases ho : other = requestId
    · simp [cleanupRequest, ho] at ht
    · exact ⟨ho, by simpa [cleanupRequest, ho] using ht⟩
  constructor
  · intro other found hpos
    rw [hanswers] at hpos
    exact h.owned other found hpos
  · intro other task ht
    rw [hanswers]
    exact h.inFlight other task (hinFlight other task ht).2
  · intro other conn job ha hn
    rw [hanswers, hclosed]
    cases hold : st.inFlight other with
    | none => exact h.gone other conn job ha hold
    | some task =>
        have ho : other = requestId := by
          by_contra ho
          simp [cleanupRequest, ho, hold] at hn
        subst ho
        have hacc := haccepted task hold
        have hsame : st.accepted other = some (conn, job) := ha
        rw [hacc] at hsame
        obtain ⟨rfl, -⟩ := Prod.mk.injEq .. ▸ Option.some.inj hsame
        rw [h.inFlight other task hold]
        rcases hdone task hold with hcompleted | hgone
        · simp [hcompleted]
        · rw [hgone]
          cases task.completed <;> simp
  · intro other task ht hcases
    exact h.completed other task (hinFlight other task ht).2 hcases
  · exact h.known
  · intro conn write hw other job ha
    rw [hchain] at hw
    obtain ⟨hacc, hcompleted⟩ := h.chained conn write hw other job ha
    exact ⟨hacc, fun task ht => hcompleted task (hinFlight other task ht).2⟩
  · intro other job conn hmem
    obtain ⟨hacc, hcompleted⟩ := h.resuming other job conn hmem
    exact ⟨hacc, fun task ht => hcompleted task (hinFlight other task ht).2⟩
  · intro other hresumed
    have hn := h.resumed other hresumed
    by_cases ho : other = requestId
    · simp [cleanupRequest, ho]
    · simpa [cleanupRequest, ho] using hn

theorem writeFrame (h : Answered st) {connection : ConnectionId} {write : Write}
    {rest : List Write} (hchain : (st.connections connection).writeChain = write :: rest) :
    Answered (st.writeFrame connection write rest) := by
  have hanswers := answers_writeFrame hchain
  have hclosed : ∀ other, ((st.writeFrame connection write rest).connections other).closed =
      (st.connections other).closed := (same_writeFrame st connection write rest).closed
  constructor
  · intro other requestId hpos
    rw [hanswers] at hpos
    exact h.owned other requestId hpos
  · intro requestId task ht
    rw [hanswers]
    exact h.inFlight requestId task ht
  · intro requestId other jobId ha hn
    rw [hanswers, hclosed]
    exact h.gone requestId other jobId ha hn
  · exact h.completed
  · exact h.known
  · intro other found hw requestId jobId ha
    apply h.chained other found _ requestId jobId ha
    by_cases ho : other = connection
    · subst ho
      rw [hchain]
      apply List.mem_cons_of_mem
      simp only [RunnerRuntime.writeFrame, Function.update_self] at hw
      split at hw <;> exact hw
    · simpa [RunnerRuntime.writeFrame, ho] using hw
  · intro requestId jobId other hmem
    have hcases : (requestId, jobId, other) ∈ st.resuming ∨
        write.answers = some (requestId, jobId) ∧ other = connection := by
      simp only [RunnerRuntime.writeFrame] at hmem
      split at hmem
      · rename_i answered job hanswered
        rcases List.mem_append.mp hmem with hold | hnew
        · exact .inl hold
        · obtain ⟨rfl, rfl, rfl⟩ := by simpa using hnew
          exact .inr ⟨hanswered, rfl⟩
      · exact .inl hmem
    rcases hcases with hold | ⟨hanswered, rfl⟩
    · exact h.resuming requestId jobId other hold
    · exact h.chained other write (hchain ▸ List.mem_cons_self) requestId jobId hanswered
  · exact h.resumed

end Answered

-- What becomes of the writes.
structure Sent (st : RunnerRuntime) : Prop where
  chain : ∀ connection, ∀ write ∈ (st.connections connection).writeChain,
    write.answers.isSome → write.outcome.Stringifies = true
  failed : ∀ connection, (st.connections connection).Open →
    ∀ write ∈ (st.connections connection).failed, write.answers = none

theorem Sent.of_chain {st later : RunnerRuntime} (h : Sent st)
    (hchain : ∀ connection, ∀ write ∈ (later.connections connection).writeChain,
      write ∈ (st.connections connection).writeChain ∨
        (write.answers.isSome → write.outcome.Stringifies = true))
    (hfailed : ∀ connection, (later.connections connection).failed =
      (st.connections connection).failed)
    (hopen : ∀ connection, (later.connections connection).Open →
      (st.connections connection).Open) : Sent later where
  chain connection write hw ha := by
    rcases hchain connection write hw with hold | hnew
    · exact h.chain connection write hold ha
    · exact hnew ha
  failed connection ho write hw := by
    rw [hfailed] at hw
    exact h.failed connection (hopen connection ho) write hw

theorem Sent.same {st later : RunnerRuntime} (h : Sent st)
    (hconnections : later.connections = st.connections) : Sent later := by
  apply h.of_chain
  · intro connection write hw
    exact .inl (hconnections ▸ hw)
  · intro connection
    rw [hconnections]
  · intro connection ho
    exact hconnections ▸ ho

theorem Sent.modify {st : RunnerRuntime} (h : Sent st) (connection : ConnectionId)
    {update : Connection → Connection} (hchain : ∀ c, (update c).writeChain = c.writeChain)
    (hfailed : ∀ c, (update c).failed = c.failed) (hopen : ∀ c, (update c).Open → c.Open) :
    Sent (st.modify connection update) := by
  apply h.of_chain
  · intro other write hw
    rw [modify_keeps Connection.writeChain st connection other hchain] at hw
    exact .inl hw
  · intro other
    exact modify_keeps Connection.failed st connection other hfailed
  · intro other hc
    by_cases ho : other = connection
    · subst ho
      exact hopen _ (by simpa using hc)
    · simpa [ho] using hc

theorem Sent.enqueueWrite {st : RunnerRuntime} (h : Sent st) (connection : ConnectionId)
    {write : Write} (hw : write.answers.isSome → write.outcome.Stringifies = true) :
    Sent (st.enqueueWrite connection write) := by
  apply h.of_chain
  · intro other found hf
    rcases mem_enqueueWrite hf with hold | rfl
    · exact .inl hold
    · exact .inr hw
  · intro other
    by_cases ho : other = connection
    · subst ho
      simp
    · simp [ho]
  · intro other hopen
    by_cases ho : other = connection
    · subst ho
      simpa [Connection.Open] using hopen
    · simpa [ho] using hopen

-- A connection that is open has every response written or on its way.
theorem Sent.responses {st : RunnerRuntime} (h : Sent st) {connection : ConnectionId}
    (ho : (st.connections connection).Open) (requestId : RequestId) :
    (st.connections connection).responses requestId =
      (st.connections connection).answers requestId := by
  have hfailed : (st.connections connection).failed.countP (Write.isFor requestId) = 0 := by
    rw [List.countP_eq_zero]
    intro write hw
    rw [isFor_of_none (h.failed connection ho write hw)]
    simp
  have hchain : ((st.connections connection).writeChain.countP fun write =>
      write.isFor requestId && write.outcome.Stringifies) =
        (st.connections connection).writeChain.countP (Write.isFor requestId) := by
    apply List.countP_congr
    intro write hw
    by_cases hfor : write.isFor requestId = true
    · have hsome : write.answers.isSome := by
        cases ha : write.answers with
        | none =>
            rw [isFor_of_none ha] at hfor
            cases hfor
        | some answered => rfl
      simp [hfor, h.chain connection write hw hsome]
    · simp [hfor]
  unfold Connection.responses Connection.answers
  omega

-- All of it together.
structure Sound (atHand : List RequestId) (st : RunnerRuntime) : Prop where
  tracked : Tracked atHand st
  answered : Answered st
  sent : Sent st

namespace Sound

variable {st : RunnerRuntime} {atHand : List RequestId}

theorem acceptedTask (h : Sound atHand st) {requestId : RequestId} {task : InFlightTask}
    (ht : st.inFlight requestId = some task) :
    st.accepted requestId = some (task.connection, task.jobId) := by
  apply h.tracked.accepted
  simp [RunnerRuntime.place, ht]

theorem refuse (h : Sound atHand st) (connection : ConnectionId) {write : Write}
    (hw : write.answers = none) : Sound atHand (st.enqueueWrite connection write) where
  tracked := (same_enqueueWrite st connection write).tracked h.tracked
  answered := h.answered.enqueueWrite connection hw
  sent := h.sent.enqueueWrite connection (by simp [hw])

theorem setExecution (h : Sound atHand st) {requestId : RequestId} {execution : Execution}
    (hk : (st.accepted requestId).isSome)
    (hover : execution = .ended → ∀ task, st.inFlight requestId = some task →
      task.completed = true) : Sound atHand (st.setExecution requestId execution) where
  tracked := (same_setExecution st requestId execution).tracked h.tracked
  answered := h.answered.setExecution hk hover
  sent := h.sent.same rfl

theorem connections_abort (st : RunnerRuntime) (requestId : RequestId) :
    (st.abort requestId).connections = st.connections := by
  unfold RunnerRuntime.abort
  split
  · split <;> rfl
  · rfl

theorem abort (h : Sound atHand st) (requestId : RequestId) :
    Sound atHand (st.abort requestId) where
  tracked := (same_abort st requestId).tracked h.tracked
  answered := h.answered.abort requestId
  sent := h.sent.same (connections_abort st requestId)

theorem answer (h : Sound atHand st) {requestId : RequestId} {task : InFlightTask}
    (ht : st.inFlight requestId = some task) (hnot : task.completed = false)
    {outcome : ExecutionOutcome} (ho : outcome.Stringifies = true) :
    Sound atHand (st.answer requestId task outcome) where
  tracked := (same_answer st ht outcome).tracked h.tracked
  answered := h.answered.answer ht hnot (h.acceptedTask ht) outcome
  sent := by
    apply Sent.enqueueWrite
    · exact h.sent.same rfl
    · exact fun _ => ho

theorem noteCancelled (h : Sound atHand st) {requestId : RequestId}
    (hdone : ∀ task, st.inFlight requestId = some task → task.completed = true) :
    Sound atHand (st.noteCancelled requestId) where
  tracked := (same_noteCancelled st requestId).tracked h.tracked
  answered := h.answered.noteCancelled hdone
  sent := h.sent.same rfl

theorem abort_noteCancelled (st : RunnerRuntime) (requestId other : RequestId) :
    (st.noteCancelled requestId).abort other = (st.abort other).noteCancelled requestId := by
  unfold RunnerRuntime.abort RunnerRuntime.noteCancelled
  dsimp only
  cases st.executions other with
  | none => rfl
  | some execution =>
      cases execution with
      | running request =>
          by_cases hd : request.deadline = .ahead
          · simp only [hd, if_pos]
            rfl
          · simp only [hd, if_neg, not_false_eq_true]
      | settled request outcome => rfl
      | ended => rfl

theorem cancelOne (h : Sound atHand st) (payload : CancelRequest) (requestId : RequestId) :
    Sound atHand (cancelOne payload st requestId) := by
  unfold RunnerRuntime.cancelOne
  dsimp only
  split
  · rename_i hnone
    apply h.noteCancelled
    intro task ht
    rw [show st.inFlight requestId = none from hnone] at ht
    cases ht
  · rename_i task htask
    split
    · rename_i hcompleted
      apply h.noteCancelled
      intro found hf
      have hsame : st.inFlight requestId = some task := htask
      rw [hf] at hsame
      obtain rfl := Option.some.inj hsame
      exact hcompleted
    · rename_i hnot
      rw [abort_noteCancelled]
      have haborted := h.abort requestId
      have ht : (st.abort requestId).inFlight requestId = some task := by
        rw [inFlight_abort]
        exact htask
      have hanswered := haborted.answer ht (Bool.not_eq_true _ ▸ hnot)
        (show (cancelledOutcome payload requestId).Stringifies = true from rfl)
      apply hanswered.noteCancelled
      intro found hf
      have hself : found = { task with completed := true } := by
        simpa [RunnerRuntime.answer] using hf.symm
      rw [hself]

theorem handleCancel (h : Sound atHand st) (payload : CancelRequest) :
    Sound atHand (st.handleCancel payload) := by
  have hfold : ∀ (requestIds : List RequestId) (st : RunnerRuntime), Sound atHand st →
      Sound atHand (requestIds.foldl (RunnerRuntime.cancelOne payload) st) := by
    intro requestIds
    induction requestIds with
    | nil => exact fun st h => h
    | cons requestId requestIds ih => exact fun st h => ih _ (h.cancelOne payload requestId)
  unfold RunnerRuntime.handleCancel
  split
  · exact h
  · exact hfold _ st h

-- Messages that come in.

theorem note (h : Sound atHand st) (requestId : RequestId) :
    Sound atHand { st with seen := Function.update st.seen requestId true } where
  tracked := by
    refine ⟨h.tracked.index, h.tracked.active, h.tracked.accepted, fun other hs => ?_,
      h.tracked.live⟩
    by_cases ho : other = requestId
    · simp [ho]
    · simpa [ho] using h.tracked.seen other hs
  answered := h.answered.of_same rfl rfl rfl rfl (fun _ _ => rfl) (fun _ _ hw => .inl hw)
    (fun _ hc => hc) h.answered.completed fun requestId hk =>
      h.answered.known requestId (hk.imp_right .inl)
  sent := h.sent.same rfl

theorem accept (h : Sound atHand st) {connection : ConnectionId} {request : ExecutionRequest}
    (hopen : (st.connections connection).closed = false)
    (hnew : st.accepted request.requestId = none) (hseen : st.seen request.requestId = true) :
    Sound atHand (st.accept connection request) where
  tracked := tracked_accept h.tracked hopen hnew hseen
  answered := h.answered.accept hnew
  sent := by
    apply h.sent.of_chain
    · intro other write hw
      rw [accept_keeps Connection.writeChain fun _ _ => rfl] at hw
      exact .inl hw
    · exact accept_keeps Connection.failed (fun _ _ => rfl) st connection request
    · intro other hc
      rw [accept_keeps Connection.Open fun _ _ => rfl] at hc
      exact hc

end Sound

-- The ids of the requests among the messages.
def requestIds (messages : List RunnerMessage) : List RequestId :=
  messages.filterMap fun message =>
    match message with
    | .request request => some request.requestId
    | _ => none

theorem closed_receive {connection : ConnectionId} (st : RunnerRuntime) (message : RunnerMessage) :
    ((receive connection st message).connections connection).closed =
      (st.connections connection).closed := by
  cases message with
  | request request =>
      simp only [receive]
      split
      · simp [refuse]
      · split
        · simp [refuse]
        · simp [accept]
  | response => simp [receive]
  | cancel payload => exact (same_handleCancel st payload).closed connection

theorem seen_receive {connection : ConnectionId} (st : RunnerRuntime) (message : RunnerMessage)
    {requestId : RequestId} (hs : st.seen requestId = false)
    (hnot : ∀ request, message = .request request → request.requestId ≠ requestId) :
    (receive connection st message).seen requestId = false := by
  cases message with
  | request request =>
      have hne := hnot request rfl
      simp only [receive]
      split
      · simpa [refuse, Function.update_of_ne hne.symm] using hs
      · split
        · simpa [refuse, Function.update_of_ne hne.symm] using hs
        · simpa [accept, Function.update_of_ne hne.symm] using hs
  | response => exact hs
  | cancel payload =>
      rw [show (receive connection st (.cancel payload)).seen = st.seen from
        (same_handleCancel st payload).seen]
      exact hs

theorem sound_receive {atHand : List RequestId} {st : RunnerRuntime} (h : Sound atHand st)
    {connection : ConnectionId} (hopen : (st.connections connection).closed = false)
    {message : RunnerMessage}
    (hnew : ∀ request, message = .request request → st.seen request.requestId = false) :
    Sound atHand (receive connection st message) := by
  cases message with
  | request request =>
      have hnoted := h.note request.requestId
      simp only [receive]
      split
      · exact hnoted.refuse connection rfl
      · split
        · exact hnoted.refuse connection rfl
        · apply hnoted.accept hopen
          · cases ha : st.accepted request.requestId with
            | none => rfl
            | some found =>
                have hseen := h.tracked.seen request.requestId (by simp [ha])
                rw [hnew request rfl] at hseen
                cases hseen
          · simp
  | response => exact h.refuse connection rfl
  | cancel payload => exact h.handleCancel payload

theorem sound_data {atHand : List RequestId} {connection : ConnectionId}
    {messages : List RunnerMessage} {st : RunnerRuntime} (h : Sound atHand st)
    (hopen : (st.connections connection).closed = false)
    (hdistinct : (requestIds messages).Nodup)
    (hnew : ∀ requestId ∈ requestIds messages, st.seen requestId = false) :
    Sound atHand (messages.foldl (receive connection) st) := by
  induction messages generalizing st with
  | nil => exact h
  | cons message messages ih =>
      have hmessage : ∀ request, message = .request request →
          requestIds (message :: messages) = request.requestId :: requestIds messages := by
        rintro request rfl
        rfl
      have hlater : ∀ requestId ∈ requestIds messages,
          requestId ∈ requestIds (message :: messages) := by
        intro requestId hmem
        cases message with
        | request request => exact List.mem_cons_of_mem _ hmem
        | response => exact hmem
        | cancel payload => exact hmem
      apply ih
      · apply sound_receive h hopen
        intro request hr
        exact hnew request.requestId (hmessage request hr ▸ List.mem_cons_self)
      · rw [closed_receive]
        exact hopen
      · cases message with
        | request request => exact (List.nodup_cons.mp hdistinct).2
        | response => exact hdistinct
        | cancel payload => exact hdistinct
      · intro requestId hmem
        apply seen_receive
        · exact hnew requestId (hlater requestId hmem)
        · rintro request hr rfl
          rw [hmessage request hr] at hdistinct
          exact (List.nodup_cons.mp hdistinct).1 hmem

-- A connection closes.

theorem sound_closing {st : RunnerRuntime} (h : Sound [] st) (connection : ConnectionId) :
    Sound (st.connections connection).activeRequests
      (st.modify connection fun c => { c with closed := true }) where
  tracked := by
    refine ⟨h.tracked.index, fun requestId other => ?_, h.tracked.accepted, h.tracked.seen, ?_⟩
    · by_cases ho : other = connection
      · subst ho
        simpa using h.tracked.active requestId other
      · simpa [ho] using h.tracked.active requestId other
    · intro requestId other jobId hp hc
      by_cases ho : other = connection
      · subst ho
        exact (h.tracked.active requestId other).mpr ⟨jobId, hp⟩
      · have hnone := h.tracked.live requestId other jobId hp (by simpa [ho] using hc)
        cases hnone
  answered := h.answered.modify connection (fun _ _ => rfl) (fun _ => rfl) fun _ _ => rfl
  sent := by
    refine h.sent.modify connection (fun _ => rfl) (fun _ => rfl) fun c hc => ?_
    simp [Connection.Open] at hc

theorem cleanup_sent {st : RunnerRuntime} (h : Sent st) (requestId : RequestId) (jobId : JobId)
    (connection : ConnectionId) : Sent (st.cleanupRequest requestId jobId connection) := by
  apply h.of_chain
  · intro other write hw
    rw [cleanup_keeps Connection.writeChain fun _ _ => rfl] at hw
    exact .inl hw
  · exact cleanup_keeps Connection.failed (fun _ _ => rfl) st requestId jobId connection
  · intro other hc
    rw [cleanup_keeps Connection.Open fun _ _ => rfl] at hc
    exact hc

theorem sound_closeOne {st : RunnerRuntime} {requestId : RequestId} {rest : List RequestId}
    {connection : ConnectionId} (h : Sound (requestId :: rest) st)
    (hclosed : (st.connections connection).closed = true)
    (hactive : ∀ task, st.inFlight requestId = some task → task.connection = connection) :
    Sound rest (st.closeOne requestId) := by
  unfold closeOne
  split
  · rename_i hnone
    refine ⟨⟨h.tracked.index, h.tracked.active, h.tracked.accepted, h.tracked.seen, ?_⟩,
      h.answered, h.sent⟩
    intro other conn jobId hp hc
    rcases List.mem_cons.mp (h.tracked.live other conn jobId hp hc) with rfl | hrest
    · simp [RunnerRuntime.place, hnone] at hp
    · exact hrest
  · rename_i task htask
    have haborted := h.abort requestId
    have ht : (st.abort requestId).inFlight requestId = some task := by
      rw [inFlight_abort]
      exact htask
    refine ⟨?_, ?_, cleanup_sent haborted.sent _ _ _⟩
    · apply tracked_cleanup haborted.tracked
      · intro found hp
        have hsame : (st.abort requestId).place requestId = some (task.connection, task.jobId) := by
          simp [RunnerRuntime.place, ht]
        rw [hsame] at hp
        exact (Option.some.inj hp).symm
      · intro other hother
        exact (List.mem_cons.mp hother).symm
    · apply haborted.answered.cleanup
      · intro found hf
        exact haborted.acceptedTask hf
      · intro found hf
        right
        rw [ht] at hf
        obtain rfl := Option.some.inj hf
        rw [Sound.connections_abort, hactive task htask]
        exact hclosed

theorem closeOne_closed (st : RunnerRuntime) (requestId : RequestId) (connection : ConnectionId) :
    ((st.closeOne requestId).connections connection).closed =
      (st.connections connection).closed := by
  unfold closeOne
  split
  · rfl
  · rw [cleanup_keeps Connection.closed fun _ _ => rfl, Sound.connections_abort]

theorem closeOne_inFlight {st : RunnerRuntime} {requestId other : RequestId} {task : InFlightTask}
    (h : (st.closeOne requestId).inFlight other = some task) : st.inFlight other = some task := by
  unfold closeOne at h
  split at h
  · exact h
  · by_cases ho : other = requestId
    · simp [cleanupRequest, ho] at h
    · simpa [cleanupRequest, ho, inFlight_abort] using h

theorem sound_close {requestIds : List RequestId} {st : RunnerRuntime} {connection : ConnectionId}
    (h : Sound requestIds st) (hclosed : (st.connections connection).closed = true)
    (hactive : ∀ requestId ∈ requestIds, ∀ task, st.inFlight requestId = some task →
      task.connection = connection) : Sound [] (requestIds.foldl closeOne st) := by
  induction requestIds generalizing st with
  | nil => exact h
  | cons requestId requestIds ih =>
      apply ih
      · exact sound_closeOne h hclosed (hactive requestId List.mem_cons_self)
      · rw [closeOne_closed]
        exact hclosed
      · intro other hother task ht
        exact hactive other (List.mem_cons_of_mem _ hother) task (closeOne_inFlight ht)

-- The responses that are out.

theorem sound_writeFrame {st : RunnerRuntime} (h : Sound [] st) {connection : ConnectionId}
    {write : Write} {rest : List Write}
    (hchain : (st.connections connection).writeChain = write :: rest) :
    Sound [] (st.writeFrame connection write rest) where
  tracked := (same_writeFrame st connection write rest).tracked h.tracked
  answered := h.answered.writeFrame hchain
  sent := by
    constructor
    · intro other found hf ha
      apply h.sent.chain other found _ ha
      by_cases ho : other = connection
      · subst ho
        rw [hchain]
        apply List.mem_cons_of_mem
        simp only [writeFrame, Function.update_self] at hf
        split at hf <;> exact hf
      · simpa [writeFrame, ho] using hf
    · intro other hopen found hf
      by_cases ho : other = connection
      · subst ho
        simp only [writeFrame, Function.update_self] at hopen hf
        split at hf
        · rename_i hcond
          exact h.sent.failed other hcond.1 found hf
        · rename_i hcond
          rw [if_neg hcond] at hopen
          have hold : (st.connections other).Open := hopen
          rcases List.mem_append.mp hf with hbefore | hnow
          · exact h.sent.failed other hold found hbefore
          · obtain rfl := List.mem_singleton.mp hnow
            by_contra hsome
            have hstringifies := h.sent.chain other found (hchain ▸ List.mem_cons_self)
              (Option.isSome_iff_ne_none.mpr hsome)
            exact hcond ⟨hold, hstringifies⟩
      · simp only [writeFrame, Function.update_of_ne ho] at hopen hf
        exact h.sent.failed other hopen found hf

theorem sound_noteResumed {st : RunnerRuntime} (h : Sound [] st) {requestId : RequestId}
    (hgone : st.inFlight requestId = none) (hk : (st.accepted requestId).isSome) :
    Sound [] (st.noteResumed requestId) := by
  have hsame : SameTracking st (st.noteResumed requestId) :=
    ⟨fun _ => rfl, rfl, rfl, rfl, fun _ => rfl, fun _ => rfl⟩
  have hresumed : ∀ other, (st.noteResumed requestId).resumed other = true →
      other = requestId ∨ st.resumed other = true := by
    intro other hr
    by_cases ho : other = requestId
    · exact .inl ho
    · exact .inr (by simpa [noteResumed, ho] using hr)
  refine ⟨hsame.tracked h.tracked, ?_, h.sent.same rfl⟩
  have ha := h.answered
  refine ⟨ha.owned, ha.inFlight, ha.gone, ha.completed, ?_, ha.chained, ?_, ?_⟩
  · intro other hcases
    rcases hcases with hexecution | hcancelled | hr
    · exact ha.known other (.inl hexecution)
    · exact ha.known other (.inr (.inl hcancelled))
    · rcases hresumed other hr with rfl | hold
      · exact hk
      · exact ha.known other (.inr (.inr hold))
  · intro other jobId connection hr
    exact ha.resuming other jobId connection (List.mem_of_mem_filter hr)
  · intro other hr
    rcases hresumed other hr with rfl | hold
    · exact hgone
    · exact ha.resumed other hold

theorem sound_resume {st : RunnerRuntime} (h : Sound [] st) {requestId : RequestId} {jobId : JobId}
    {connection : ConnectionId} (hmem : (requestId, jobId, connection) ∈ st.resuming) :
    Sound [] ((st.cleanupRequest requestId jobId connection).noteResumed requestId) := by
  obtain ⟨hacc, hdone⟩ := h.answered.resuming requestId jobId connection hmem
  apply sound_noteResumed
  · refine ⟨?_, ?_, cleanup_sent h.sent _ _ _⟩
    · apply tracked_cleanup h.tracked
      · intro found hp
        have hfound := h.tracked.accepted requestId found hp
        rw [hacc] at hfound
        exact (Option.some.inj hfound).symm
      · exact nofun
    · apply h.answered.cleanup
      · exact fun task ht => h.acceptedTask ht
      · exact fun task ht => .inl (hdone task ht)
  · simp [cleanupRequest]
  · show (st.accepted requestId).isSome
    rw [hacc]
    rfl

-- Requests come with ids of their own.
def Distinct (messages : List RunnerMessage) (st : RunnerRuntime) : Prop :=
  (requestIds messages).Nodup ∧ ∀ requestId ∈ requestIds messages, st.seen requestId = false

instance (messages : List RunnerMessage) (st : RunnerRuntime) : Decidable (Distinct messages st) :=
  inferInstanceAs (Decidable (_ ∧ _))

-- The outcome that a request is about to be answered with can be written as JSON.
def Writable (requestId : RequestId) (st : RunnerRuntime) : Prop :=
  ∀ request outcome task, st.executions requestId = some (.settled request outcome) →
    st.inFlight requestId = some task → task.completed = false → outcome.Stringifies = true

def distinctIds : Event → RunnerRuntime → Prop
  | .data _ messages, st => Distinct messages st
  | _, _ => True

def writableOutcomes : Event → RunnerRuntime → Prop
  | .data _ messages, st => Distinct messages st
  | .continueExecution requestId, st => Writable requestId st
  | _, _ => True

theorem sound_continue {st : RunnerRuntime} (h : Sound [] st) {requestId : RequestId}
    {request : ExecutionRequest} {outcome : ExecutionOutcome}
    (he : st.executions requestId = some (.settled request outcome))
    (hw : Writable requestId st) : Sound [] (st.continueExecution requestId outcome) := by
  have hk : (st.accepted requestId).isSome :=
    h.answered.known requestId (.inl (by simp [he]))
  unfold continueExecution
  dsimp only
  split
  · rename_i hnone
    apply h.setExecution hk
    intro _ task ht
    rw [hnone] at ht
    cases ht
  · rename_i task htask
    split
    · rename_i hcompleted
      apply h.setExecution hk
      intro _ found hf
      rw [htask] at hf
      obtain rfl := Option.some.inj hf
      exact hcompleted
    · rename_i hnot
      have hanswered := h.answer htask (Bool.not_eq_true _ ▸ hnot)
        (hw request outcome task he htask (Bool.not_eq_true _ ▸ hnot))
      show Sound [] ((st.answer requestId task outcome).setExecution requestId .ended)
      apply hanswered.setExecution hk
      intro _ found hf
      have hself : found = { task with completed := true } := by
        simpa [answer] using hf.symm
      rw [hself]

theorem sound_step (registered : String → Bool) (st : RunnerRuntime) (event : Event)
    (after : RunnerRuntime) (h : Sound [] st) (ha : writableOutcomes event st)
    (hs : (eventLoop registered).step event st = some after) : Sound [] after := by
  cases event with
  | data connection messages =>
      obtain ⟨hopen, hafter⟩ := Option.ite_none_right_eq_some.mp hs
      obtain rfl := Option.some.inj hafter
      exact sound_data h hopen.2 ha.1 ha.2
  | destroy connection =>
      obtain rfl := Option.some.inj hs
      have hsame : SameTracking st
          (st.modify connection fun c => { c with destroyed := true }) :=
        same_modify st connection _ (fun _ => rfl) fun _ => rfl
      refine ⟨hsame.tracked h.tracked,
        h.answered.modify connection (fun _ _ => rfl) (fun _ => rfl) fun _ hc => hc, ?_⟩
      refine h.sent.modify connection (fun _ => rfl) (fun _ => rfl) fun c hc => ?_
      simp [Connection.Open] at hc
  | close connection =>
      obtain ⟨-, hafter⟩ := Option.ite_none_left_eq_some.mp hs
      obtain rfl := Option.some.inj hafter
      have hclosed : ((st.modify connection fun c => { c with closed := true }).connections
          connection).closed = true := by simp
      apply sound_close (sound_closing h connection) hclosed
      intro requestId hmem task ht
      obtain ⟨jobId, hp⟩ := (h.tracked.active requestId connection).mp hmem
      have htask : st.inFlight requestId = some task := ht
      simp only [RunnerRuntime.place, htask, Option.map_some, Option.some.injEq,
        Prod.mk.injEq] at hp
      exact hp.1
  | handlerSettles requestId settlement =>
      simp only [eventLoop, step] at hs
      split at hs
      · rename_i request he
        obtain rfl := Option.some.inj hs
        exact h.setExecution (h.answered.known requestId (.inl (by simp [he]))) nofun
      · cases hs
  | deadlineExpires requestId =>
      simp only [eventLoop, step] at hs
      split at hs
      · rename_i request he
        obtain ⟨-, hafter⟩ := Option.ite_none_right_eq_some.mp hs
        obtain rfl := Option.some.inj hafter
        exact h.setExecution (h.answered.known requestId (.inl (by simp [he]))) nofun
      · cases hs
  | executionRejects requestId message =>
      simp only [eventLoop, step] at hs
      split at hs
      · rename_i request he
        obtain rfl := Option.some.inj hs
        exact h.setExecution (h.answered.known requestId (.inl (by simp [he]))) nofun
      · rename_i request outcome he
        obtain rfl := Option.some.inj hs
        exact h.setExecution (h.answered.known requestId (.inl (by simp [he]))) nofun
      · cases hs
  | continueExecution requestId =>
      simp only [eventLoop, step] at hs
      split at hs
      · rename_i request outcome he
        obtain rfl := Option.some.inj hs
        exact sound_continue h he ha
      · cases hs
  | writeFrame connection =>
      simp only [eventLoop, step] at hs
      split at hs
      · rename_i write rest hchain
        obtain rfl := Option.some.inj hs
        exact sound_writeFrame h hchain
      · cases hs
  | resume requestId =>
      obtain ⟨⟨found, jobId, connection⟩, hfind, rfl⟩ := Option.map_eq_some_iff.mp hs
      obtain rfl : found = requestId := by simpa using List.find?_some hfind
      exact sound_resume h (List.mem_of_find?_eq_some hfind)

theorem sound_start : Sound [] {} where
  tracked := ⟨by simp [RunnerRuntime.entries, RunnerRuntime.place],
    by simp [RunnerRuntime.place], nofun, nofun, nofun⟩
  answered := ⟨by simp [Connection.answers], nofun, nofun, nofun, by simp, by simp, by simp,
    by simp⟩
  sent := ⟨by simp, by simp⟩

theorem sound_reach {registered : String → Bool} {st : RunnerRuntime}
    (h : (eventLoop registered).Reach writableOutcomes {} st) : Sound [] st :=
  h.invariant sound_start (sound_step registered)

-- Every accepted request gets at most one response, just one once it has settled or been
-- cancelled while its connection is open, and is tracked neither after that nor after its
-- connection has closed.
theorem responds_once {registered : String → Bool} {st : RunnerRuntime}
    (h : (eventLoop registered).Reach writableOutcomes {} st) :
    (∀ requestId, (st.inFlight requestId).isSome ↔ ∃ jobId, requestId ∈ st.entries jobId) ∧
      ∀ requestId connection jobId, st.accepted requestId = some (connection, jobId) →
        ((st.connections connection).responses requestId ≤ 1 ∧
          ∀ other, other ≠ connection → (st.connections other).responses requestId = 0) ∧
        ((st.connections connection).Open →
          st.executions requestId = some .ended ∨ st.cancelled requestId = true →
            (st.connections connection).responses requestId = 1) ∧
        (st.resumed requestId = true ∨ (st.connections connection).closed = true →
          st.inFlight requestId = none ∧ ∀ other, requestId ∉ st.entries other) := by
  have hs := sound_reach h
  have hindex : ∀ requestId, (st.inFlight requestId).isSome ↔
      ∃ jobId, requestId ∈ st.entries jobId := by
    intro requestId
    simp only [hs.tracked.index, RunnerRuntime.place, Option.map_eq_some_iff]
    constructor
    · intro hsome
      obtain ⟨task, ht⟩ := Option.isSome_iff_exists.mp hsome
      exact ⟨task.jobId, task.connection, task, ht, rfl⟩
    · rintro ⟨jobId, connection, task, ht, -⟩
      rw [ht]
      rfl
  refine ⟨hindex, fun requestId connection jobId ha => ?_⟩
  have htask : ∀ task, st.inFlight requestId = some task → task.connection = connection := by
    intro task ht
    have hacc := hs.acceptedTask ht
    rw [ha] at hacc
    exact (Prod.mk.injEq .. ▸ Option.some.inj hacc).1.symm
  refine ⟨⟨?_, ?_⟩, ?_, ?_⟩
  · apply (Connection.responses_le _ requestId).trans
    cases hin : st.inFlight requestId with
    | none => exact (hs.answered.gone requestId connection jobId ha hin).1
    | some task =>
        have hcount := hs.answered.inFlight requestId task hin
        rw [htask task hin] at hcount
        rw [hcount]
        split <;> omega
  · intro other hne
    have hle := Connection.responses_le (st.connections other) requestId
    by_contra hpos
    obtain ⟨job, hacc⟩ := hs.answered.owned other requestId (by omega)
    rw [ha] at hacc
    exact hne (Prod.mk.injEq .. ▸ Option.some.inj hacc).1.symm
  · intro hopen hdone
    rw [hs.sent.responses hopen]
    cases hin : st.inFlight requestId with
    | none => exact (hs.answered.gone requestId connection jobId ha hin).2 hopen.2
    | some task =>
        have hcount := hs.answered.inFlight requestId task hin
        rw [htask task hin, hs.answered.completed requestId task hin hdone] at hcount
        exact hcount
  · intro hgone
    have hnone : st.inFlight requestId = none := by
      rcases hgone with hresumed | hclosed
      · exact hs.answered.resumed requestId hresumed
      · cases hin : st.inFlight requestId with
        | none => rfl
        | some task =>
            have hp : st.place requestId = some (connection, task.jobId) := by
              simp [RunnerRuntime.place, hin, htask task hin]
            cases hs.tracked.live requestId connection task.jobId hp hclosed
    refine ⟨hnone, fun other hmem => ?_⟩
    have hsome := (hindex requestId).mpr ⟨other, hmem⟩
    rw [hnone] at hsome
    cases hsome

-- Two requests, of which one is answered and the other cancelled.
def orderly : List Event :=
  [.data 0 [.request { requestId := "r", jobId := "j", functionName := "f" },
      .request { requestId := "q", jobId := "j", functionName := "f", deadline := .ahead }],
    .handlerSettles "r" (.value (.json .null)), .continueExecution "r", .writeFrame 0,
    .data 1 [.cancel { jobId := "j" }], .resume "r"]

def isOver (st : RunnerRuntime) (requestId : RequestId) : Bool :=
  match st.executions requestId with
  | some .ended => true
  | _ => false

theorem over_of_isOver {st : RunnerRuntime} {requestId : RequestId}
    (h : st.isOver requestId = true) : st.executions requestId = some .ended := by
  unfold isOver at h
  split at h
  · assumption
  · cases h

def answeredBoth (st : RunnerRuntime) : Bool :=
  decide (st.accepted "r" = some (0, "j") ∧ st.accepted "q" = some (0, "j") ∧
    (st.connections 0).Open) && (st.isOver "r" && (st.resumed "r" && st.cancelled "q"))

-- A test that admits no answer which cannot be written.
def writable : Event → RunnerRuntime → Bool
  | .data _ messages, st => decide (Distinct messages st)
  | .continueExecution requestId, st =>
      match st.executions requestId with
      | some (.settled _ outcome) => outcome.Stringifies
      | _ => true
  | _, _ => true

theorem admits_of_writable (event : Event) (st : RunnerRuntime) (h : writable event st = true) :
    writableOutcomes event st := by
  cases event with
  | data connection messages =>
      show Distinct messages st
      exact of_decide_eq_true h
  | continueExecution requestId =>
      intro request outcome task he _ _
      simpa [writable, he] using h
  | _ => trivial

theorem responds_once_orderly : ∃ st, (eventLoop fun _ => true).Reach writableOutcomes {} st ∧
    (st.connections 0).responses "r" = 1 ∧ (st.connections 0).responses "q" = 1 ∧
      st.inFlight "r" = none := by
  have htest : ((eventLoop fun _ => true).run writable orderly {}).map answeredBoth =
      some true := by decide +kernel
  obtain ⟨st, hreach, hboth⟩ := EventSystem.exists_reach admits_of_writable htest
  simp only [answeredBoth, Bool.and_eq_true, decide_eq_true_eq] at hboth
  obtain ⟨⟨hr, hq, hopen⟩, hover, hresumed, hcancelled⟩ := hboth
  obtain ⟨-, honce⟩ := responds_once hreach
  obtain ⟨-, hfirst, hgone⟩ := honce "r" 0 "j" hr
  obtain ⟨-, hsecond, -⟩ := honce "q" 0 "j" hq
  exact ⟨st, hreach, hfirst hopen (.inl (over_of_isOver hover)), hsecond hopen (.inr hcancelled),
    (hgone (.inl hresumed)).1⟩

-- A handler returns what JSON.stringify throws on.
def unwritable : List Event :=
  [.data 0 [.request { requestId := "r", jobId := "j", functionName := "f" }],
    .handlerSettles "r" (.value .throws), .continueExecution "r", .writeFrame 0, .resume "r"]

def unanswered (st : RunnerRuntime) : Bool :=
  decide (st.accepted "r" = some (0, "j") ∧ (st.connections 0).Open ∧
    (st.connections 0).responses "r" = 0) && st.isOver "r"

def distinct : Event → RunnerRuntime → Bool
  | .data _ messages, st => decide (Distinct messages st)
  | _, _ => true

theorem admits_of_distinct (event : Event) (st : RunnerRuntime) (h : distinct event st = true) :
    distinctIds event st := by
  cases event with
  | data connection messages =>
      show Distinct messages st
      exact of_decide_eq_true h
  | _ => trivial

theorem responds_fails : ¬ ∀ (registered : String → Bool) (st : RunnerRuntime),
    (eventLoop registered).Reach distinctIds {} st →
      ∀ requestId connection jobId, st.accepted requestId = some (connection, jobId) →
        (st.connections connection).Open →
          st.executions requestId = some .ended ∨ st.cancelled requestId = true →
            (st.connections connection).responses requestId = 1 := by
  intro h
  have htest : ((eventLoop fun _ => true).run distinct unwritable {}).map unanswered =
      some true := by decide +kernel
  obtain ⟨st, hreach, hnone⟩ := EventSystem.exists_reach admits_of_distinct htest
  simp only [unanswered, Bool.and_eq_true, decide_eq_true_eq] at hnone
  obtain ⟨⟨haccepted, hopen, hzero⟩, hover⟩ := hnone
  have hone := h _ st hreach "r" 0 "j" haccepted hopen (.inl (over_of_isOver hover))
  omega

end RunnerRuntime

end Rrq.Runtime.TypeScript
