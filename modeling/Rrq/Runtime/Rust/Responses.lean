import Rrq.Runtime.Rust.Registered

namespace Rrq.Runtime.Rust

-- The task has put its outcome in the channel.
@[simp, grind] def Stage.Sent : Stage → Bool
  | sent | untracked | unindexed | ended => true
  | _ => false

-- It has marked itself completed.
@[simp, grind] def Stage.Marked : Stage → Bool
  | marked _ | sent | untracked | unindexed | ended => true
  | _ => false

@[simp, grind] def Stage.outcome : Stage → Option ExecutionOutcome
  | finished outcome | marked outcome => some outcome
  | _ => none

@[simp, grind] def CancelStage.Told : CancelStage → Bool
  | answered _ _ => true
  | _ => false

-- The loop still reads.
@[simp, grind] def Phase.Live : Phase → Bool
  | ended | draining _ _ | returned => false
  | _ => true

-- The outcome carries the ids of the request.
@[grind] def Own (request : ExecutionRequest) (outcome : ExecutionOutcome) : Prop :=
  outcome.jobId = some request.jobId ∧ outcome.requestId = some request.requestId

theorem own_executeWithDeadline {request : ExecutionRequest} {ending : Ending}
    {answer : ExecutionOutcome} (hanswer : executeWithDeadline request ending = some answer)
    (h : ∀ outcome, ending = .handled outcome → (∀ jobId ∈ outcome.jobId, jobId = request.jobId) ∧
      ∀ requestId ∈ outcome.requestId, requestId = request.requestId) :
    Own request answer := by
  cases ending with
  | handled outcome =>
      cases hanswer
      obtain ⟨hjob, hrequest⟩ := h outcome rfl
      constructor
      · cases hj : outcome.jobId with
        | none => simp
        | some jobId => simp [hjob jobId hj]
      · cases hr : outcome.requestId with
        | none => simp
        | some requestId => simp [hrequest requestId hr]
  | panicked => cases hanswer
  | notFound | timedOut | expired =>
      cases hanswer
      exact ⟨rfl, rfl⟩

namespace RunnerRuntime

def responses (st : RunnerRuntime) (connection : ConnectionId) : List Response :=
  (st.connections connection).responses

-- How often a task has been answered on a connection.
def answers (st : RunnerRuntime) (connection : ConnectionId) (id : TaskId) : Nat :=
  (st.responses connection).countP (·.answers = some id)

section Accesses

variable (st : RunnerRuntime) (connection other : ConnectionId) (id later : TaskId)

@[grind =] theorem responses_moveTo (phase : Phase) :
    (st.moveTo connection phase).responses other = st.responses other := by
  unfold responses
  by_cases ho : other = connection <;> simp [ho]

@[grind =] theorem responses_respond (response : Response) :
    (st.respond connection response).responses other =
      if other = connection then st.responses connection ++ [response]
      else st.responses other := by
  unfold responses
  by_cases ho : other = connection <;> simp [ho]

@[grind =] theorem responses_deactivate (requestId : RequestId) :
    (st.deactivate connection requestId).responses other = st.responses other := by
  unfold responses
  by_cases ho : other = connection <;> simp [ho]

@[grind =] theorem responses_spawn (request : ExecutionRequest) :
    (st.spawn connection request).responses other = st.responses other := by
  unfold responses
  by_cases ho : other = connection <;> simp [ho]

@[grind =] theorem answers_respond (response : Response) :
    (st.respond connection response).answers other id =
      if other = connection ∧ response.answers = some id then st.answers connection id + 1
      else st.answers other id := by
  unfold answers
  rw [responses_respond]
  by_cases ho : other = connection
  · subst ho
    rw [if_pos rfl, List.countP_append, List.countP_singleton]
    by_cases ha : response.answers = some id
    · simp [ha]
    · simp [ha]
  · simp [ho]

theorem answers_congr {st later : RunnerRuntime} {connection : ConnectionId}
    (h : later.responses connection = st.responses connection) (id : TaskId) :
    later.answers connection id = st.answers connection id := by
  unfold answers
  rw [h]

theorem responses_of_connections {st later : RunnerRuntime} (h : later.connections = st.connections)
    (connection : ConnectionId) : later.responses connection = st.responses connection := by
  unfold responses
  rw [h]

theorem connections_abort : (st.abort id).connections = st.connections := by
  unfold abort
  split <;> rfl

end Accesses

-- The channel takes every response, no handler panics, and the accepted requests have ids of
-- their own.
def assumed : Event → RunnerRuntime → Bool
  | .act connection sent, st => sent && match st.phase connection with
      | .admitting request => (List.range st.nextTask).all fun id =>
          (st.tasks id).all (·.request.requestId ≠ request.requestId)
      | _ => true
  | .advance _ sent, _ => sent
  | .finish _ .panicked, _ => false
  | _, _ => true

-- A task of which a cancel has taken the entry puts no outcome in the channel any more, a
-- cancel by request id names the job of the request, and a handler gives its outcome no ids
-- but the request's.
def orderly : Event → RunnerRuntime → Bool
  | .advance id _, st =>
      match (st.tasks id).map Task.stage with
      | some (.marked _) => !st.taken id
      | _ => true
  | .act connection _, st =>
      match st.phase connection with
      | .cancelling payload (requestId :: _) .next =>
          payload.requestId.isNone || (st.inFlight requestId).all (·.jobId = payload.jobId)
      | _ => true
  | .finish id (.handled outcome), st =>
      (st.tasks id).all fun task =>
        outcome.jobId.all (· = task.request.jobId) &&
          outcome.requestId.all (· = task.request.requestId)
  | _, _ => true

-- A task has been spawned on the connection for a request with this id.
def Owns (st : RunnerRuntime) (connection : ConnectionId) (requestId : RequestId) : Prop :=
  ∃ id task, st.tasks id = some task ∧ task.request.requestId = requestId ∧
    task.connection = connection

-- A task has been spawned for the request and the job.
def Asked (st : RunnerRuntime) (requestId : RequestId) (jobId : JobId) : Prop :=
  ∃ id task, st.tasks id = some task ∧ task.request.requestId = requestId ∧
    task.request.jobId = jobId

-- Tasks have requests of their own, and what is noted of a request is so.
structure Placed (st : RunnerRuntime) : Prop where
  distinct : ∀ id other task found, st.tasks id = some task → st.tasks other = some found →
    task.request.requestId = found.request.requestId → id = other
  active : ∀ connection requestId, requestId ∈ st.active connection →
    st.Owns connection requestId
  draining : ∀ connection rest stage requestId, st.phase connection = .draining rest stage →
    requestId ∈ rest → st.Owns connection requestId
  entries : ∀ requestId jobId, requestId ∈ st.entries jobId → st.Asked requestId jobId
  cancelling : ∀ connection payload rest stage requestId,
    st.phase connection = .cancelling payload rest stage → payload.requestId = none →
      requestId ∈ rest → st.Asked requestId payload.jobId

-- Every task that was there is there, for the same request.
def Persists (st later : RunnerRuntime) : Prop :=
  ∀ id task, st.tasks id = some task → ∃ found, later.tasks id = some found ∧
    found.request = task.request ∧ found.connection = task.connection

namespace Persists

variable {st later : RunnerRuntime} (h : Persists st later)
include h

theorem owns {connection : ConnectionId} {requestId : RequestId}
    (ho : st.Owns connection requestId) : later.Owns connection requestId := by
  obtain ⟨id, task, ht, hr, hc⟩ := ho
  obtain ⟨found, hf, hreq, hconn⟩ := h id task ht
  exact ⟨id, found, hf, hreq ▸ hr, hconn.trans hc⟩

theorem asked {requestId : RequestId} {jobId : JobId} (ha : st.Asked requestId jobId) :
    later.Asked requestId jobId := by
  obtain ⟨id, task, ht, hr, hj⟩ := ha
  obtain ⟨found, hf, hreq, -⟩ := h id task ht
  exact ⟨id, found, hf, hreq ▸ hr, hreq ▸ hj⟩

end Persists

theorem persists_of_tasks {st later : RunnerRuntime} (h : later.tasks = st.tasks) :
    Persists st later := fun _ task ht => ⟨task, by rw [h]; exact ht, rfl, rfl⟩

theorem persists_setTask {st : RunnerRuntime} {id : TaskId} {task value : Task}
    (ht : st.tasks id = some task) (hrequest : value.request = task.request)
    (hconnection : value.connection = task.connection) :
    Persists st (st.setTask id value) := by
  intro other found hfound
  rw [tasks_setTask]
  by_cases ho : other = id
  · subst ho
    obtain rfl := Option.some.inj (ht.symm.trans hfound)
    exact ⟨value, if_pos rfl, hrequest, hconnection⟩
  · exact ⟨found, by rw [if_neg ho]; exact hfound, rfl, rfl⟩

theorem persists_abort (st : RunnerRuntime) (id : TaskId) : Persists st (st.abort id) := by
  unfold abort
  cases ht : st.tasks id with
  | none => exact persists_of_tasks rfl
  | some task => exact persists_setTask ht rfl rfl

namespace Placed

variable {st : RunnerRuntime} (h : Placed st)
include h

theorem congr {later : RunnerRuntime} (hpersists : Persists st later)
    (hback : Persists later st)
    (hactive : ∀ connection, later.active connection ⊆ st.active connection)
    (hentries : ∀ jobId, later.entries jobId ⊆ st.entries jobId)
    (hphase : ∀ connection, later.phase connection = st.phase connection) : Placed later where
  distinct id other task found ht hf heq := by
    obtain ⟨task', ht', hreq, -⟩ := hback id task ht
    obtain ⟨found', hf', hreq', -⟩ := hback other found hf
    exact h.distinct id other task' found' ht' hf' (by rw [hreq, hreq', heq])
  active connection requestId hr :=
    hpersists.owns (h.active connection requestId (hactive connection hr))
  draining connection rest stage requestId hp hr :=
    hpersists.owns (h.draining connection rest stage requestId (hphase connection ▸ hp) hr)
  entries requestId jobId hr := hpersists.asked (h.entries requestId jobId (hentries jobId hr))
  cancelling connection payload rest stage requestId hp hnone hr :=
    hpersists.asked (h.cancelling connection payload rest stage requestId
      (hphase connection ▸ hp) hnone hr)

theorem moveTo {connection : ConnectionId} {phase : Phase}
    (hdraining : ∀ rest stage requestId, phase = .draining rest stage → requestId ∈ rest →
      st.Owns connection requestId)
    (hcancelling : ∀ payload rest stage requestId, phase = .cancelling payload rest stage →
      payload.requestId = none → requestId ∈ rest → st.Asked requestId payload.jobId) :
    Placed (st.moveTo connection phase) where
  distinct := h.distinct
  active other requestId hr := h.active other requestId (active_moveTo st .. ▸ hr)
  draining other rest stage requestId hp hr := by
    rw [phase_moveTo] at hp
    by_cases ho : other = connection
    · rw [if_pos ho] at hp
      exact ho ▸ hdraining rest stage requestId hp hr
    · rw [if_neg ho] at hp
      exact h.draining other rest stage requestId hp hr
  entries := h.entries
  cancelling other payload rest stage requestId hp hnone hr := by
    rw [phase_moveTo] at hp
    by_cases ho : other = connection
    · rw [if_pos ho] at hp
      exact hcancelling payload rest stage requestId hp hnone hr
    · rw [if_neg ho] at hp
      exact h.cancelling other payload rest stage requestId hp hnone hr

theorem respond (connection : ConnectionId) (response : Response) :
    Placed (st.respond connection response) := by
  have htasks : Persists st (st.respond connection response) := persists_of_tasks rfl
  refine h.congr htasks (persists_of_tasks rfl) (fun other => ?_) (fun _ _ hr => hr) fun other => ?_
  · rw [active_respond]
    exact List.Subset.refl _
  · rw [phase_respond]

theorem deactivate (connection : ConnectionId) (requestId : RequestId) :
    Placed (st.deactivate connection requestId) := by
  refine h.congr (persists_of_tasks rfl) (persists_of_tasks rfl) (fun other => ?_)
    (fun _ _ hr => hr) fun other => ?_
  · rw [active_deactivate]
    by_cases ho : other = connection
    · rw [if_pos ho, ho]
      exact fun _ hr => (mem_removeEntry.mp hr).1
    · rw [if_neg ho]
      exact List.Subset.refl _
  · rw [phase_deactivate]

theorem unindex (jobId : JobId) (requestId : RequestId) : Placed (st.unindex jobId requestId) := by
  refine h.congr (persists_of_tasks rfl) (persists_of_tasks rfl) (fun _ _ hr => hr)
    (fun other => ?_) fun _ => rfl
  rw [RunnerRuntime.unindex, entries_setEntries]
  by_cases ho : other = jobId
  · rw [if_pos ho, ho]
    exact fun _ hr => (mem_removeEntry.mp hr).1
  · rw [if_neg ho]
    exact List.Subset.refl _

theorem removeInFlight (requestId : RequestId) : Placed (st.removeInFlight requestId) :=
  h.congr (persists_of_tasks rfl) (persists_of_tasks rfl) (fun _ _ hr => hr) (fun _ _ hr => hr)
    fun _ => rfl

theorem noteTaken (id : TaskId) : Placed (st.noteTaken id) :=
  h.congr (persists_of_tasks rfl) (persists_of_tasks rfl) (fun _ _ hr => hr) (fun _ _ hr => hr)
    fun _ => rfl

theorem noteTold (id : TaskId) : Placed (st.noteTold id) :=
  h.congr (persists_of_tasks rfl) (persists_of_tasks rfl) (fun _ _ hr => hr) (fun _ _ hr => hr)
    fun _ => rfl

theorem setTask {id : TaskId} {task value : Task} (ht : st.tasks id = some task)
    (hrequest : value.request = task.request) (hconnection : value.connection = task.connection) :
    Placed (st.setTask id value) := by
  refine h.congr (persists_setTask ht hrequest hconnection) (fun other found hf => ?_)
    (fun _ _ hr => hr) (fun _ _ hr => hr) fun _ => rfl
  rcases setTask_cases hf with ⟨ho, rfl⟩ | ⟨-, hold⟩
  · exact ⟨task, ho ▸ ht, hrequest.symm, hconnection.symm⟩
  · exact ⟨found, hold, rfl, rfl⟩

theorem abort (id : TaskId) : Placed (st.abort id) := by
  unfold RunnerRuntime.abort
  cases ht : st.tasks id with
  | none => exact h
  | some task => exact h.setTask ht rfl rfl

theorem spawn (hr : Registered st) {connection : ConnectionId} {request : ExecutionRequest}
    (hnew : ∀ id task, st.tasks id = some task →
      task.request.requestId ≠ request.requestId) : Placed (st.spawn connection request) := by
  have hpersists : Persists st (st.spawn connection request) := by
    intro id task ht
    refine ⟨task, ?_, rfl, rfl⟩
    rw [tasks_spawn, if_neg (Nat.ne_of_lt (hr.lt_nextTask ht))]
    exact ht
  have howns : (st.spawn connection request).Owns connection request.requestId :=
    ⟨st.nextTask, _, (tasks_spawn ..).trans (if_pos rfl), rfl, rfl⟩
  constructor
  case distinct =>
    have hdistinct := h.distinct
    grind
  case active =>
    intro other requestId hmem
    rw [active_spawn] at hmem
    by_cases ho : other = connection
    · subst ho
      rw [if_pos rfl, mem_insertEntry] at hmem
      rcases hmem with rfl | hold
      · exact howns
      · exact hpersists.owns (h.active other requestId hold)
    · rw [if_neg ho] at hmem
      exact hpersists.owns (h.active other requestId hmem)
  case draining =>
    intro other rest stage requestId hp hmem
    rw [phase_spawn] at hp
    split at hp
    · cases hp
    · exact hpersists.owns (h.draining other rest stage requestId hp hmem)
  case entries =>
    intro requestId jobId hmem
    exact hpersists.asked (h.entries requestId jobId hmem)
  case cancelling =>
    intro other payload rest stage requestId hp hnone hmem
    rw [phase_spawn] at hp
    split at hp
    · cases hp
    · exact hpersists.asked (h.cancelling other payload rest stage requestId hp hnone hmem)

theorem track (connection : ConnectionId) (request : ExecutionRequest) (id : TaskId) :
    Placed (st.track connection request id) := by
  have hmoved : Placed (st.moveTo connection (.indexing request id)) := h.moveTo nofun nofun
  exact hmoved.congr (persists_of_tasks rfl) (persists_of_tasks rfl) (fun _ _ hr => hr)
    (fun _ _ hr => hr) fun _ => rfl

theorem index (hr : Registered st) {connection : ConnectionId} {request : ExecutionRequest}
    {id : TaskId} (hp : st.phase connection = .indexing request id) :
    Placed (st.index connection request id) := by
  obtain ⟨task, ht, -, hrequest⟩ := (hr.indexing connection request id hp).1
  have hmoved : Placed (st.moveTo connection .reading) := h.moveTo nofun nofun
  constructor
  case entries =>
    intro requestId jobId hmem
    rw [entries_index] at hmem
    by_cases hj : jobId = request.jobId
    · subst hj
      rw [if_pos rfl, mem_insertEntry] at hmem
      rcases hmem with rfl | hold
      · exact ⟨id, task, ht, by rw [hrequest], by rw [hrequest]⟩
      · exact h.entries requestId request.jobId hold
    · rw [if_neg hj] at hmem
      exact h.entries requestId jobId hmem
  · exact hmoved.distinct
  · exact hmoved.active
  · exact hmoved.draining
  · exact hmoved.cancelling

theorem cancelStep {connection : ConnectionId} {payload : CancelRequest} {rest : List RequestId}
    {stage : CancelStage} (hp : st.phase connection = .cancelling payload rest stage)
    (sent : Bool) : Placed (st.cancelStep connection payload rest sent stage) := by
  have hgo : ∀ {later : RunnerRuntime} {requestIds : List RequestId} (after : CancelStage),
      Placed later → Persists st later → requestIds ⊆ rest →
        Placed (later.moveTo connection (.cancelling payload requestIds after)) := by
    intro later requestIds after hlater hpersists hsub
    refine hlater.moveTo nofun ?_
    rintro _ _ _ requestId ⟨⟩ hnone hmem
    exact hpersists.asked
      (h.cancelling connection payload rest stage requestId hp hnone (hsub hmem))
  cases stage with
  | next =>
      cases rest with
      | nil => exact h.moveTo nofun nofun
      | cons requestId rest =>
          have hsub : rest ⊆ requestId :: rest := List.subset_cons_self requestId rest
          simp only [RunnerRuntime.cancelStep]
          cases he : st.inFlight requestId with
          | none => exact hgo _ h (persists_of_tasks rfl) hsub
          | some entry =>
              dsimp only
              split
              · exact hgo _ h (persists_of_tasks rfl) hsub
              · exact hgo _ ((h.removeInFlight requestId).noteTaken entry.handle)
                  (persists_of_tasks rfl) hsub
  | taken requestId entry => exact hgo _ (h.abort _) (persists_abort st _) (List.Subset.refl _)
  | aborted requestId entry =>
      exact hgo _ (h.deactivate _ _) (persists_of_tasks rfl) (List.Subset.refl _)
  | deactivated requestId entry =>
      cases sent with
      | false => exact hgo _ h (persists_of_tasks rfl) (List.Subset.refl _)
      | true =>
          exact hgo _ ((h.respond _ _).noteTold _) (persists_of_tasks rfl) (List.Subset.refl _)
  | answered requestId entry =>
      exact hgo _ (h.unindex _ _) (persists_of_tasks rfl) (List.Subset.refl _)

theorem drainStep {connection : ConnectionId} {rest : List RequestId} {stage : DrainStage}
    (hp : st.phase connection = .draining rest stage) :
    Placed (st.drainStep connection rest stage) := by
  have hgo : ∀ {later : RunnerRuntime} {requestIds : List RequestId} (after : DrainStage),
      Placed later → Persists st later → requestIds ⊆ rest →
        Placed (later.moveTo connection (.draining requestIds after)) := by
    intro later requestIds after hlater hpersists hsub
    refine hlater.moveTo ?_ nofun
    rintro _ _ requestId ⟨⟩ hmem
    exact hpersists.owns (h.draining connection rest stage requestId hp (hsub hmem))
  cases stage with
  | next =>
      cases rest with
      | nil => exact h.moveTo nofun nofun
      | cons requestId rest =>
          have hsub : rest ⊆ requestId :: rest := List.subset_cons_self requestId rest
          simp only [RunnerRuntime.drainStep]
          cases he : st.inFlight requestId with
          | none => exact hgo _ h (persists_of_tasks rfl) hsub
          | some entry => exact hgo _ (h.removeInFlight requestId) (persists_of_tasks rfl) hsub
  | taken requestId entry => exact hgo _ (h.abort _) (persists_abort st _) (List.Subset.refl _)
  | aborted requestId entry =>
      exact hgo _ (h.unindex _ _) (persists_of_tasks rfl) (List.Subset.refl _)

theorem advance {id : TaskId} {task : Task} (ht : st.tasks id = some task) (sent : Bool)
    {later : RunnerRuntime} (hlater : st.advance id task sent = some later) : Placed later := by
  unfold RunnerRuntime.advance at hlater
  cases hs : task.stage with
  | finished outcome =>
      rw [hs] at hlater
      cases hlater
      exact h.setTask ht rfl rfl
  | marked outcome =>
      rw [hs] at hlater
      cases hlater
      cases sent with
      | false => exact h.setTask ht rfl rfl
      | true => exact (h.respond _ _).setTask ht rfl rfl
  | sent =>
      rw [hs] at hlater
      cases hlater
      exact (h.removeInFlight _).setTask ht rfl rfl
  | untracked =>
      rw [hs] at hlater
      cases hlater
      exact (h.unindex _ _).setTask ht rfl rfl
  | unindexed =>
      rw [hs] at hlater
      cases hlater
      exact (h.deactivate _ _).setTask ht rfl rfl
  | running | ended | panicked | dropped =>
      rw [hs] at hlater
      cases hlater

theorem act (hr : Registered st) {connection : ConnectionId} {sent : Bool}
    {later : RunnerRuntime} (hlater : st.act connection sent = some later)
    (hassumed : assumed (.act connection sent) st = true) : Placed later := by
  unfold RunnerRuntime.act at hlater
  cases hp : st.phase connection with
  | admitting request =>
      rw [hp] at hlater
      cases hlater
      simp only [assumed, hp, Bool.and_eq_true, List.all_eq_true, List.mem_range] at hassumed
      unfold RunnerRuntime.spawnOrRefuse
      split
      · split
        · exact (h.respond _ _).moveTo nofun nofun
        · exact h.moveTo nofun nofun
      · apply h.spawn hr
        intro id task ht
        simpa [ht] using hassumed.2 id (hr.lt_nextTask ht)
  | tracking request id =>
      rw [hp] at hlater
      cases hlater
      exact h.track connection request id
  | indexing request id =>
      rw [hp] at hlater
      cases hlater
      exact h.index hr hp
  | cancelling payload rest stage =>
      rw [hp] at hlater
      cases hlater
      exact h.cancelStep hp sent
  | ended =>
      rw [hp] at hlater
      cases hlater
      have hcleared : Placed (st.modify connection fun c =>
          { c with connectionRequests := [] }) := by
        refine h.congr (persists_of_tasks rfl) (persists_of_tasks rfl) (fun other => ?_)
          (fun _ _ hr => hr) fun other => ?_
        · unfold RunnerRuntime.active
          by_cases ho : other = connection <;> simp [ho]
        · exact phase_modify_of_eq st connection other fun _ => rfl
      refine hcleared.moveTo ?_ nofun
      rintro _ _ requestId ⟨⟩ hmem
      exact h.active connection requestId hmem
  | draining rest stage =>
      rw [hp] at hlater
      cases hlater
      exact h.drainStep hp
  | reading | returned =>
      rw [hp] at hlater
      cases hlater

theorem receive (connection : ConnectionId) (message : RunnerMessage) :
    Placed (st.receive connection message) := by
  cases message with
  | Request payload =>
      simp only [RunnerRuntime.receive]
      split
      · exact h.respond _ _
      · exact h.moveTo (by rintro _ _ _ ⟨⟩) (by rintro _ _ _ _ ⟨⟩)
  | Response _ => exact h.respond _ _
  | Cancel payload =>
      simp only [RunnerRuntime.receive]
      split
      · exact h
      · refine h.moveTo (by rintro _ _ _ ⟨⟩) ?_
        rintro _ _ _ requestId ⟨⟩ hnone hmem
        rw [hnone] at hmem
        exact h.entries requestId payload.jobId hmem

theorem step (hr : Registered st) {registered : String → Bool} {event : Event}
    {later : RunnerRuntime} (hlater : RunnerRuntime.step registered event st = some later)
    (hassumed : assumed event st = true) : Placed later := by
  cases event with
  | receive connection message =>
      obtain ⟨hp, rfl⟩ := whileReading_eq_some hlater
      exact h.receive connection message
  | endOfStream connection =>
      obtain ⟨hp, rfl⟩ := whileReading_eq_some hlater
      exact h.moveTo nofun nofun
  | readFails connection =>
      obtain ⟨hp, rfl⟩ := whileReading_eq_some hlater
      exact h.moveTo nofun nofun
  | act connection sent => exact h.act hr hlater hassumed
  | poll id =>
      obtain ⟨task, ht, hlater⟩ := Option.bind_eq_some_iff.mp hlater
      obtain ⟨-, hlater⟩ := Option.ite_none_left_eq_some.mp hlater
      cases hlater
      exact h.setTask ht rfl rfl
  | pend id | drop id =>
      obtain ⟨task, ht, hlater⟩ := Option.bind_eq_some_iff.mp hlater
      obtain ⟨-, hlater⟩ := Option.ite_none_right_eq_some.mp hlater
      cases hlater
      exact h.setTask ht rfl rfl
  | finish id ending =>
      obtain ⟨task, ht, -, -, rfl⟩ := finish_eq_some hlater
      exact h.setTask ht rfl rfl
  | advance id sent =>
      obtain ⟨task, ht, hlater⟩ := Option.bind_eq_some_iff.mp hlater
      obtain ⟨-, hlater⟩ := Option.ite_none_right_eq_some.mp hlater
      exact h.advance ht sent hlater

end Placed

-- Who has answered a task is who may answer it: the task itself, or the cancel that has taken
-- its entry, and then once.
structure Answered (st : RunnerRuntime) : Prop where
  cancelling : ∀ connection payload rest stage requestId entry,
    st.phase connection = .cancelling payload rest stage →
      stage.handled = some (requestId, entry) →
        entry.jobId = payload.jobId ∧ st.taken entry.handle = true ∧
          st.told entry.handle = stage.Told
  draining : ∀ connection rest stage requestId entry,
    st.phase connection = .draining rest stage → stage.handled = some (requestId, entry) →
      entry.connection = connection ∧ st.taken entry.handle = false
  once : ∀ connection other requestId found entry same,
    (st.phase connection).handled = some (requestId, entry) →
      (st.phase other).handled = some (found, same) → entry.handle = same.handle →
        connection = other
  completed : ∀ id task, st.tasks id = some task → task.stage.Marked = true →
    task.completed = true
  outcome : ∀ id task outcome, st.tasks id = some task → task.stage.outcome = some outcome →
    Own task.request outcome
  taken : ∀ id task, st.tasks id = some task → st.taken id = true → task.stage.Sent = false
  told : ∀ id, st.told id = true → st.taken id = true
  untold : ∀ id, st.taken id = true → st.told id = false → st.Busy id
  aborted : ∀ id task, st.tasks id = some task → task.aborted = true →
    (st.phase task.connection).Live = true → st.taken id = true
  counted : ∀ id task, st.tasks id = some task → (st.phase task.connection).Live = true →
    st.answers task.connection id =
      (if task.stage.Sent then 1 else 0) + (if st.told id then 1 else 0)
  own : ∀ connection response id, response ∈ st.responses connection →
    response.answers = some id → ∃ task, st.tasks id = some task ∧
      task.connection = connection ∧ Own task.request response.outcome
  steady : ∀ id task, st.tasks id = some task → task.stage ≠ .panicked

theorem live_moveTo {st : RunnerRuntime} {connection other : ConnectionId} {phase : Phase}
    (hlive : phase.Live = true → (st.phase connection).Live = true)
    (h : ((st.moveTo connection phase).phase other).Live = true) :
    (st.phase other).Live = true := by
  rw [phase_moveTo] at h
  split_ifs at h with ho
  · rw [ho]
    exact hlive h
  · exact h

namespace Answered

variable {st : RunnerRuntime} (h : Answered st)
include h

theorem congr {later : RunnerRuntime} (htasks : later.tasks = st.tasks)
    (htaken : later.taken = st.taken) (htold : later.told = st.told)
    (hresponses : ∀ connection, later.responses connection = st.responses connection)
    (hphase : ∀ connection, later.phase connection = st.phase connection) :
    Answered later := by
  obtain ⟨h1, h2, h3, h4, h5, h6, h7, h8, h9, h10, h11, h12⟩ := h
  constructor <;>
    simpa only [htasks, htaken, htold, hresponses, hphase, Busy, answers]

-- The loop of one connection goes on. What it has then in hand, it had before or nobody had.
theorem shift {connection : ConnectionId} {phase : Phase}
    (hlive : phase.Live = true → (st.phase connection).Live = true)
    (hcancelling : ∀ payload rest stage requestId entry, phase = .cancelling payload rest stage →
      stage.handled = some (requestId, entry) → entry.jobId = payload.jobId ∧
        st.taken entry.handle = true ∧ st.told entry.handle = stage.Told)
    (hdraining : ∀ rest stage requestId entry, phase = .draining rest stage →
      stage.handled = some (requestId, entry) →
        entry.connection = connection ∧ st.taken entry.handle = false)
    (honce : ∀ requestId entry, phase.handled = some (requestId, entry) →
      (st.phase connection).handled = some (requestId, entry) ∨
        ∀ other found same, (st.phase other).handled = some (found, same) →
          same.handle ≠ entry.handle)
    (huntold : ∀ id, st.taken id = true → st.told id = false → st.Busy id →
      (st.moveTo connection phase).Busy id) :
    Answered (st.moveTo connection phase) where
  cancelling other payload rest stage requestId entry hp hhandled := by
    rw [phase_moveTo] at hp
    split_ifs at hp
    · exact hcancelling payload rest stage requestId entry hp hhandled
    · exact h.cancelling other payload rest stage requestId entry hp hhandled
  draining other rest stage requestId entry hp hhandled := by
    rw [phase_moveTo] at hp
    split_ifs at hp with ho
    · exact ho ▸ hdraining rest stage requestId entry hp hhandled
    · exact h.draining other rest stage requestId entry hp hhandled
  once first second requestId found entry same hfirst hsecond heq := by
    rw [phase_moveTo] at hfirst hsecond
    split_ifs at hfirst hsecond with hone htwo
    · rw [hone, htwo]
    · rcases honce requestId entry hfirst with hheld | hfree
      · rw [hone]
        exact h.once connection second requestId found entry same hheld hsecond heq
      · exact absurd heq.symm (hfree second found same hsecond)
    · rcases honce found same hsecond with hheld | hfree
      · rename_i htwo
        rw [htwo]
        exact h.once first connection requestId found entry same hfirst hheld heq
      · exact absurd heq (hfree first requestId entry hfirst)
    · exact h.once first second requestId found entry same hfirst hsecond heq
  completed := h.completed
  outcome := h.outcome
  taken := h.taken
  told := h.told
  untold id htaken htold := huntold id htaken htold (h.untold id htaken htold)
  aborted id task ht haborted hl := h.aborted id task ht haborted (live_moveTo hlive hl)
  counted id task ht hl := by
    rw [answers_congr (responses_moveTo st connection task.connection phase)]
    exact h.counted id task ht (live_moveTo hlive hl)
  own other response id hmem hanswers :=
    h.own other response id (responses_moveTo st connection other phase ▸ hmem) hanswers
  steady := h.steady

-- The loop goes on with nothing in hand.
theorem moveTo {connection : ConnectionId} {phase : Phase}
    (hbefore : (st.phase connection).handled = none) (hafter : phase.handled = none)
    (hlive : phase.Live = true → (st.phase connection).Live = true) :
    Answered (st.moveTo connection phase) := by
  refine h.shift hlive ?_ ?_ ?_ fun id _ _ => ?_
  · rintro payload rest stage requestId entry rfl hhandled
    cases hafter.symm.trans hhandled
  · rintro rest stage requestId entry rfl hhandled
    cases hafter.symm.trans hhandled
  · intro requestId entry hhandled
    cases hafter.symm.trans hhandled
  · exact Busy.move (phase_moveTo st connection · phase) (.inl hbefore) id

-- A response to a request that has not been accepted.
theorem respond (connection : ConnectionId) (outcome : ExecutionOutcome) :
    Answered (st.respond connection { outcome }) := by
  have hbusy : ∀ id, st.Busy id → (st.respond connection { outcome }).Busy id := by
    intro id
    apply Busy.mono
    exact fun other => .inr (by rw [phase_respond])
  obtain ⟨h1, h2, h3, h4, h5, h6, h7, h8, h9, h10, h11, h12⟩ := h
  constructor
  all_goals grind

theorem deactivate (connection : ConnectionId) (requestId : RequestId) :
    Answered (st.deactivate connection requestId) :=
  h.congr rfl rfl rfl (responses_deactivate st connection · requestId)
    (phase_deactivate st connection · requestId)

theorem removeInFlight (requestId : RequestId) : Answered (st.removeInFlight requestId) :=
  h.congr rfl rfl rfl (fun _ => rfl) fun _ => rfl

theorem setEntries (jobId : JobId) (entries : List RequestId) :
    Answered (st.setEntries jobId entries) :=
  h.congr rfl rfl rfl (fun _ => rfl) fun _ => rfl

-- A task goes on without answering.
theorem setTask {id : TaskId} {task value : Task} (ht : st.tasks id = some task)
    (hconnection : value.connection = task.connection) (hrequest : value.request = task.request)
    (hsteady : value.stage ≠ .panicked)
    (haborted : value.aborted = true → task.aborted = true ∨ st.taken id = true ∨
      (st.phase task.connection).Live = false)
    (hsent : (st.phase task.connection).Live = true → value.stage.Sent = task.stage.Sent)
    (htaken : st.taken id = true → value.stage.Sent = false)
    (hmarked : value.stage.Marked = true → value.completed = true)
    (houtcome : ∀ outcome, value.stage.outcome = some outcome → Own task.request outcome) :
    Answered (st.setTask id value) := by
  have hresponses : ∀ other, (st.setTask id value).responses other = st.responses other :=
    responses_of_connections rfl
  have hbusy : ∀ other, st.Busy other → (st.setTask id value).Busy other := fun _ hb => hb
  obtain ⟨h1, h2, h3, h4, h5, h6, h7, h8, h9, h10, h11, h12⟩ := h
  constructor
  all_goals grind [answers]

-- A task puts its outcome in the channel.
theorem send {id : TaskId} {task : Task} {outcome : ExecutionOutcome}
    (ht : st.tasks id = some task) (hs : task.stage = .marked outcome)
    (huntaken : st.taken id = false) :
    Answered ((st.respond task.connection { outcome, answers := some id }).setTask id
      { task with stage := .sent }) := by
  have huntold : st.told id = false := by
    by_contra htold
    rw [h.told id (by simpa using htold)] at huntaken
    cases huntaken
  have hown : Own task.request outcome := h.outcome id task outcome ht (by rw [hs]; rfl)
  have hcompleted := h.completed id task ht (by rw [hs]; rfl)
  have hresponses : ∀ other, ((st.respond task.connection { outcome, answers := some id }).setTask
      id { task with stage := .sent }).responses other =
        (st.respond task.connection { outcome, answers := some id }).responses other :=
    responses_of_connections rfl
  have hbusy : ∀ other, st.Busy other →
      ((st.respond task.connection { outcome, answers := some id }).setTask id
        { task with stage := .sent }).Busy other := by
    intro other
    apply Busy.mono
    exact fun other => .inr (by rw [phase_setTask, phase_respond])
  have hanswers : ∀ connection other,
      ((st.respond task.connection { outcome, answers := some id }).setTask id
        { task with stage := .sent }).answers connection other =
          if connection = task.connection ∧ other = id then st.answers task.connection id + 1
          else st.answers connection other := by
    intro connection other
    rw [answers_congr (hresponses connection), answers_respond]
    by_cases ho : other = id
    · simp [ho]
    · simp [ho, Ne.symm ho]
  obtain ⟨h1, h2, h3, h4, h5, h6, h7, h8, h9, h10, h11, h12⟩ := h
  constructor
  all_goals grind

theorem spawn (hr : Registered st) {connection : ConnectionId} {request : ExecutionRequest}
    (hp : st.phase connection = .admitting request) :
    Answered (st.spawn connection request) := by
  have hlt : ∀ id task, st.tasks id = some task → id < st.nextTask := fun _ _ => hr.lt_nextTask
  have huntaken : st.taken st.nextTask = false := by
    by_contra htaken
    have hparted := hr.taken st.nextTask (by simpa using htaken)
    exact Nat.lt_irrefl _ (hr.known st.nextTask (.inl hparted.1))
  have huntold : st.told st.nextTask = false := by
    by_contra htold
    rw [h.told st.nextTask (by simpa using htold)] at huntaken
    cases huntaken
  have hnone : st.answers connection st.nextTask = 0 := by
    apply List.countP_eq_zero.mpr
    intro response hmem hanswers
    obtain ⟨task, ht, -⟩ := h.own connection response st.nextTask hmem (by simpa using hanswers)
    exact Nat.lt_irrefl _ (hlt _ task ht)
  have hbusy : ∀ id, st.Busy id → (st.spawn connection request).Busy id :=
    Busy.move (phase_spawn st connection · request) (.inl (by rw [hp]; rfl))
  have hanswers : ∀ other id, (st.spawn connection request).answers other id =
      st.answers other id := fun other =>
    answers_congr (responses_spawn st connection other request)
  obtain ⟨h1, h2, h3, h4, h5, h6, h7, h8, h9, h10, h11, h12⟩ := h
  constructor
  all_goals grind

theorem track {connection : ConnectionId} {request : ExecutionRequest} {id : TaskId}
    (hp : st.phase connection = .tracking request id) :
    Answered (st.track connection request id) := by
  have hmoved : Answered (st.moveTo connection (.indexing request id)) := by
    apply h.moveTo _ rfl <;> rw [hp] <;> simp
  exact hmoved.congr rfl rfl rfl (fun _ => rfl) fun _ => rfl

theorem index {connection : ConnectionId} {request : ExecutionRequest} {id : TaskId}
    (hp : st.phase connection = .indexing request id) :
    Answered (st.index connection request id) := by
  have hmoved : Answered (st.moveTo connection .reading) := by
    apply h.moveTo _ rfl <;> rw [hp] <;> simp
  exact hmoved.congr rfl rfl rfl (fun _ => rfl) fun _ => rfl

-- What a cancel and the teardown do with an entry.

-- A cancel takes an entry of a task that has not marked itself completed.
theorem take (hr : Registered st) {connection : ConnectionId} {payload : CancelRequest}
    {before rest : List RequestId} {requestId : RequestId} {entry : InFlightTask} {task : Task}
    (hp : st.phase connection = .cancelling payload before .next)
    (he : st.inFlight requestId = some entry) (ht : st.tasks entry.handle = some task)
    (hcompleted : task.completed = false) (hjob : entry.jobId = payload.jobId) :
    Answered (((st.removeInFlight requestId).noteTaken entry.handle).moveTo connection
      (.cancelling payload rest (.taken requestId entry))) := by
  have hfree : ∀ other found same, (st.phase other).handled = some (found, same) →
      same.handle ≠ entry.handle := by
    intro other found same hhandled heq
    exact (hr.handled other found same hhandled).1.2 requestId entry he heq.symm
  have huntaken : st.taken entry.handle = false := by
    by_contra htaken
    exact (hr.taken entry.handle (by simpa using htaken)).2 requestId entry he rfl
  have huntold : st.told entry.handle = false := by
    by_contra htold
    rw [h.told entry.handle (by simpa using htold)] at huntaken
    cases huntaken
  have hunsent : task.stage.Sent = false := by
    have := h.completed entry.handle task ht
    cases hs : task.stage <;> simp_all
  have hbusy : ∀ id, id = entry.handle ∨ st.Busy id →
      (((st.removeInFlight requestId).noteTaken entry.handle).moveTo connection
        (.cancelling payload rest (.taken requestId entry))).Busy id := by
    rintro id (rfl | hb)
    · exact ⟨connection, requestId, entry, by simp, rfl⟩
    · apply hb.mono
      intro other
      rw [phase_moveTo]
      by_cases ho : other = connection
      · exact .inl (by rw [ho, hp]; rfl)
      · exact .inr (by rw [if_neg ho]; rfl)
  have hresponses : ∀ other, (((st.removeInFlight requestId).noteTaken entry.handle).moveTo
      connection (.cancelling payload rest (.taken requestId entry))).responses other =
        st.responses other := fun other => responses_moveTo _ _ other _
  obtain ⟨h1, h2, h3, h4, h5, h6, h7, h8, h9, h10, h11, h12⟩ := h
  constructor
  all_goals grind [answers]

-- The entry stays in hand.
theorem goOn {connection : ConnectionId} {payload : CancelRequest} {rest : List RequestId}
    {before after : CancelStage} (hp : st.phase connection = .cancelling payload rest before)
    (hhandled : after.handled = before.handled) (htold : after.Told = before.Told) :
    Answered (st.moveTo connection (.cancelling payload rest after)) := by
  refine h.shift (fun _ => by rw [hp]; rfl) ?_ nofun ?_ fun id _ _ => ?_
  · rintro _ _ _ requestId entry ⟨⟩ hentry
    rw [htold]
    exact h.cancelling connection payload rest before requestId entry hp (hhandled ▸ hentry)
  · intro requestId entry hentry
    rw [hp]
    exact .inl (hhandled.symm.trans hentry)
  · exact Busy.move (phase_moveTo st connection · _) (.inr (by rw [hp]; exact hhandled)) id

-- The cancel answers for the task.
theorem tell (hr : Registered st) {connection : ConnectionId} {payload : CancelRequest}
    {rest : List RequestId} {requestId : RequestId} {entry : InFlightTask}
    (hp : st.phase connection = .cancelling payload rest (.deactivated requestId entry)) :
    Answered (((st.respond entry.connection
      { outcome := cancelOutcome payload requestId
        answers := some entry.handle }).noteTold entry.handle).moveTo connection
          (.cancelling payload rest (.answered requestId entry))) := by
  obtain ⟨hjob, htaken, huntold⟩ := h.cancelling connection payload rest _ requestId entry hp rfl
  obtain ⟨task, ht, hconnection, hrequest, hfits⟩ :=
    (hr.handled connection requestId entry (by rw [hp]; rfl)).2
  have hunsent := h.taken entry.handle task ht htaken
  have hown : Own task.request (cancelOutcome payload requestId) :=
    ⟨congrArg some (hjob.symm.trans hfits.symm), congrArg some hrequest.symm⟩
  have hfree : ∀ other found same, other ≠ connection →
      (st.phase other).handled = some (found, same) → same.handle ≠ entry.handle := by
    intro other found same hne hhandled heq
    exact hne (h.once other connection found requestId same entry hhandled (by rw [hp]; rfl) heq)
  generalize hlater : ((st.respond entry.connection
      { outcome := cancelOutcome payload requestId
        answers := some entry.handle }).noteTold entry.handle).moveTo connection
          (.cancelling payload rest (.answered requestId entry)) = later
  have hphase : ∀ other, later.phase other =
      if other = connection then .cancelling payload rest (.answered requestId entry)
      else st.phase other := by
    intro other
    rw [← hlater, phase_moveTo, phase_noteTold, phase_respond]
  have htold : ∀ id, later.told id = if id = entry.handle then true else st.told id := by
    intro id
    rw [← hlater, moveTo_told, told_noteTold, respond_told]
  have hresponses : ∀ other, later.responses other =
      (st.respond entry.connection
        { outcome := cancelOutcome payload requestId
          answers := some entry.handle }).responses other := by
    intro other
    rw [← hlater, responses_moveTo]
    rfl
  have hanswers : ∀ other id, later.answers other id =
      if other = entry.connection ∧ id = entry.handle then
        st.answers entry.connection entry.handle + 1
      else st.answers other id := by
    intro other id
    rw [answers_congr (hresponses other), answers_respond]
    by_cases hid : id = entry.handle
    · simp [hid]
    · simp [hid, Ne.symm hid]
  have htasks : ∀ id, later.tasks id = st.tasks id := fun id => by rw [← hlater]; rfl
  have hsame : ∀ id, later.taken id = st.taken id := fun id => by rw [← hlater]; rfl
  have hbusy : ∀ id, st.Busy id → later.Busy id :=
    Busy.move hphase (.inr (by rw [hp]; rfl))
  clear hlater
  obtain ⟨h1, h2, h3, h4, h5, h6, h7, h8, h9, h10, h11, h12⟩ := h
  constructor
  all_goals grind

theorem letGo {connection : ConnectionId} {payload : CancelRequest} {rest : List RequestId}
    {requestId : RequestId} {entry : InFlightTask}
    (hp : st.phase connection = .cancelling payload rest (.answered requestId entry)) :
    Answered (st.moveTo connection (.cancelling payload rest .next)) := by
  obtain ⟨-, -, htold⟩ := h.cancelling connection payload rest _ requestId entry hp rfl
  refine h.shift (fun _ => by rw [hp]; rfl) (by rintro _ _ _ _ _ ⟨⟩ ⟨⟩) nofun nofun ?_
  rintro id - huntold ⟨other, found, same, hhandled, rfl⟩
  by_cases ho : other = connection
  · rw [ho, hp] at hhandled
    obtain ⟨-, rfl⟩ := Prod.mk.injEq .. ▸ Option.some.inj hhandled
    rw [htold] at huntold
    cases huntold
  · exact ⟨other, found, same, by rw [phase_moveTo, if_neg ho]; exact hhandled, rfl⟩

theorem drainTake (hr : Registered st) {connection : ConnectionId}
    {before rest : List RequestId} {requestId : RequestId} {entry : InFlightTask}
    (hp : st.phase connection = .draining before .next)
    (he : st.inFlight requestId = some entry) (hown : entry.connection = connection) :
    Answered ((st.removeInFlight requestId).moveTo connection
      (.draining rest (.taken requestId entry))) := by
  have huntaken : st.taken entry.handle = false := by
    by_contra htaken
    exact (hr.taken entry.handle (by simpa using htaken)).2 requestId entry he rfl
  refine (h.removeInFlight requestId).shift nofun nofun ?_ ?_ fun id _ _ => ?_
  · rintro _ _ found same ⟨⟩ hhandled
    obtain ⟨-, rfl⟩ := Prod.mk.injEq .. ▸ Option.some.inj hhandled
    exact ⟨hown, huntaken⟩
  · intro found same hhandled
    obtain ⟨-, rfl⟩ := Prod.mk.injEq .. ▸ Option.some.inj hhandled
    refine .inr fun other key held hheld heq => ?_
    exact (hr.handled other key held hheld).1.2 requestId entry he heq.symm
  · exact Busy.move (phase_moveTo _ connection · _) (.inl (congrArg Phase.handled hp)) id

theorem drainOn {connection : ConnectionId} {rest : List RequestId} {before after : DrainStage}
    (hp : st.phase connection = .draining rest before)
    (hhandled : after.handled = before.handled ∨ after.handled = none) :
    Answered (st.moveTo connection (.draining rest after)) := by
  have hheld : ∀ requestId entry, after.handled = some (requestId, entry) →
      before.handled = some (requestId, entry) := by
    intro requestId entry hafter
    rcases hhandled with hsame | hnone
    · rwa [← hsame]
    · cases hnone.symm.trans hafter
  refine h.shift nofun nofun ?_ ?_ ?_
  · rintro _ _ requestId entry ⟨⟩ hafter
    exact h.draining connection rest before requestId entry hp (hheld requestId entry hafter)
  · intro requestId entry hafter
    rw [hp]
    exact .inl (hheld requestId entry hafter)
  · rintro id htaken - ⟨other, found, same, hsame, rfl⟩
    by_cases ho : other = connection
    · rw [ho, hp] at hsame
      have huntaken := (h.draining connection rest before found same hp hsame).2
      rw [htaken] at huntaken
      cases huntaken
    · exact ⟨other, found, same, by rw [phase_moveTo, if_neg ho]; exact hsame, rfl⟩

theorem abort {id : TaskId} (hparted : st.taken id = true ∨ ∀ task, st.tasks id = some task →
    (st.phase task.connection).Live = false) : Answered (st.abort id) := by
  unfold RunnerRuntime.abort
  cases ht : st.tasks id with
  | none => exact h
  | some task =>
      refine h.setTask ht rfl rfl (h.steady id task ht) (fun _ => .inr ?_) (fun _ => rfl)
        (h.taken id task ht) (h.completed id task ht) fun outcome => h.outcome id task outcome ht
      exact hparted.imp_right fun hall => hall task ht

theorem cancelStep (hr : Registered st) (hpl : Placed st) {connection : ConnectionId}
    {payload : CancelRequest} {rest : List RequestId} {stage : CancelStage}
    (hp : st.phase connection = .cancelling payload rest stage)
    (horderly : orderly (.act connection true) st = true) :
    Answered (st.cancelStep connection payload rest true stage) := by
  cases stage with
  | next =>
      cases rest with
      | nil => exact h.moveTo (by rw [hp]; rfl) rfl fun _ => by rw [hp]; rfl
      | cons requestId rest =>
          have hskip : Answered (st.moveTo connection (.cancelling payload rest .next)) :=
            h.moveTo (by rw [hp]; rfl) rfl fun _ => by rw [hp]; rfl
          simp only [RunnerRuntime.cancelStep]
          cases he : st.inFlight requestId with
          | none => exact hskip
          | some entry =>
              obtain ⟨task, ht, -, hrequest, hfits⟩ := (hr.inFlight requestId entry he).2
              dsimp only
              split
              · exact hskip
              · rename_i hcompleted
                apply h.take hr hp he ht
                · simpa [ht] using hcompleted
                · simp only [orderly, hp, he, Option.all_some, Bool.or_eq_true,
                    Option.isNone_iff_eq_none, decide_eq_true_eq] at horderly
                  rcases horderly with hnone | hjob
                  · -- The request was found under the job, and no other has its id.
                    obtain ⟨id, found, hfound, hsame, hasked⟩ := hpl.cancelling connection payload
                      _ _ requestId hp hnone List.mem_cons_self
                    have := hpl.distinct id entry.handle found task hfound ht
                      (hsame.trans hrequest.symm)
                    subst this
                    obtain rfl := Option.some.inj (ht.symm.trans hfound)
                    exact hfits.symm.trans hasked
                  · exact hjob
  | taken requestId entry =>
      obtain ⟨-, htaken, -⟩ := h.cancelling connection payload rest _ requestId entry hp rfl
      have hp' : (st.abort entry.handle).phase connection =
          .cancelling payload rest (.taken requestId entry) := by rw [phase_abort, hp]
      exact (h.abort (.inl htaken)).goOn hp' rfl rfl
  | aborted requestId entry =>
      have hp' : (st.deactivate entry.connection requestId).phase connection =
          .cancelling payload rest (.aborted requestId entry) := by rw [phase_deactivate, hp]
      exact (h.deactivate entry.connection requestId).goOn hp' rfl rfl
  | deactivated requestId entry => exact h.tell hr hp
  | answered requestId entry =>
      apply (h.setEntries _ _).letGo
      exact hp

theorem drainStep (hr : Registered st) (hpl : Placed st) {connection : ConnectionId}
    {rest : List RequestId} {stage : DrainStage}
    (hp : st.phase connection = .draining rest stage) :
    Answered (st.drainStep connection rest stage) := by
  cases stage with
  | next =>
      cases rest with
      | nil => exact h.moveTo (by rw [hp]; rfl) rfl (by rintro ⟨⟩)
      | cons requestId rest =>
          simp only [RunnerRuntime.drainStep]
          cases he : st.inFlight requestId with
          | none => exact h.moveTo (by rw [hp]; rfl) rfl (by rintro ⟨⟩)
          | some entry =>
              apply h.drainTake hr hp he
              obtain ⟨task, ht, hown, hrequest, -⟩ := (hr.inFlight requestId entry he).2
              obtain ⟨id, found, hfound, hsame, hconnection⟩ :=
                hpl.draining connection _ _ requestId hp List.mem_cons_self
              have := hpl.distinct id entry.handle found task hfound ht
                (hsame.trans hrequest.symm)
              subst this
              obtain rfl := Option.some.inj (ht.symm.trans hfound)
              exact hown.symm.trans hconnection
  | taken requestId entry =>
      obtain ⟨hown, -⟩ := h.draining connection rest _ requestId entry hp rfl
      have hdead : ∀ task, st.tasks entry.handle = some task →
          (st.phase task.connection).Live = false := by
        intro task ht
        obtain ⟨found, hfound, hconnection, -⟩ :=
          (hr.handled connection requestId entry (by rw [hp]; rfl)).2
        obtain rfl := Option.some.inj (ht.symm.trans hfound)
        rw [hconnection, hown, hp]
        rfl
      have hp' : (st.abort entry.handle).phase connection =
          .draining rest (.taken requestId entry) := by rw [phase_abort, hp]
      exact (h.abort (.inr hdead)).drainOn hp' (.inl rfl)
  | aborted requestId entry =>
      have hp' : (st.unindex entry.jobId requestId).phase connection =
          .draining rest (.aborted requestId entry) := hp
      exact Answered.drainOn (h.setEntries _ _) hp' (.inr rfl)

theorem advance {id : TaskId} {task : Task} (ht : st.tasks id = some task)
    {later : RunnerRuntime} (hlater : st.advance id task true = some later)
    (huntaken : ∀ outcome, task.stage = .marked outcome → st.taken id = false) :
    Answered later := by
  have hcompleted := h.completed id task ht
  have htaken := h.taken id task ht
  unfold RunnerRuntime.advance at hlater
  cases hs : task.stage with
  | finished outcome =>
      rw [hs] at hlater
      cases hlater
      refine h.setTask ht rfl rfl nofun .inl (fun _ => by rw [hs]; rfl) (fun _ => rfl)
        (fun _ => rfl) ?_
      exact fun found hfound => h.outcome id task found ht (by rw [hs]; exact hfound)
  | marked outcome =>
      rw [hs] at hlater
      cases hlater
      exact h.send ht hs (huntaken outcome hs)
  | sent =>
      rw [hs] at hlater hcompleted htaken
      cases hlater
      exact (h.removeInFlight _).setTask ht rfl rfl nofun .inl (fun _ => by rw [hs]; rfl) htaken
        hcompleted fun _ hnone => by cases hnone
  | untracked =>
      rw [hs] at hlater hcompleted htaken
      cases hlater
      exact (h.setEntries _ _).setTask ht rfl rfl nofun .inl (fun _ => by rw [hs]; rfl) htaken
        hcompleted fun _ hnone => by cases hnone
  | unindexed =>
      rw [hs] at hlater hcompleted htaken
      cases hlater
      exact (h.deactivate _ _).setTask ht rfl rfl nofun .inl (fun _ => by rw [hs]; rfl) htaken
        hcompleted fun _ hnone => by cases hnone
  | running | ended | panicked | dropped =>
      rw [hs] at hlater
      cases hlater

theorem act (hr : Registered st) (hpl : Placed st) {connection : ConnectionId}
    {later : RunnerRuntime} (hlater : st.act connection true = some later)
    (horderly : orderly (.act connection true) st = true) : Answered later := by
  unfold RunnerRuntime.act at hlater
  cases hp : st.phase connection with
  | admitting request =>
      rw [hp] at hlater
      cases hlater
      unfold RunnerRuntime.spawnOrRefuse
      split
      · apply (h.respond _ _).moveTo _ rfl <;> rw [phase_respond, hp] <;> simp
      · exact h.spawn hr hp
  | tracking request id =>
      rw [hp] at hlater
      cases hlater
      exact h.track hp
  | indexing request id =>
      rw [hp] at hlater
      cases hlater
      exact h.index hp
  | cancelling payload rest stage =>
      rw [hp] at hlater
      cases hlater
      exact h.cancelStep hr hpl hp horderly
  | ended =>
      rw [hp] at hlater
      cases hlater
      have hcleared : Answered (st.modify connection fun c =>
          { c with connectionRequests := [] }) := by
        refine h.congr rfl rfl rfl (fun other => ?_) fun other => ?_
        · unfold RunnerRuntime.responses
          by_cases ho : other = connection <;> simp [ho]
        · exact phase_modify_of_eq st connection other fun _ => rfl
      refine hcleared.moveTo ?_ rfl nofun
      rw [phase_modify, if_pos rfl]
      show (st.phase connection).handled = none
      rw [hp]
      rfl
  | draining rest stage =>
      rw [hp] at hlater
      cases hlater
      exact h.drainStep hr hpl hp
  | reading | returned =>
      rw [hp] at hlater
      cases hlater

theorem receive {connection : ConnectionId} (hp : st.phase connection = .reading)
    (message : RunnerMessage) : Answered (st.receive connection message) := by
  have hgo : ∀ phase : Phase, phase.handled = none → Answered (st.moveTo connection phase) :=
    fun phase hnone => h.moveTo (by rw [hp]; rfl) hnone fun _ => by rw [hp]; rfl
  cases message with
  | Request payload =>
      simp only [RunnerRuntime.receive]
      split
      · exact h.respond _ _
      · exact hgo _ rfl
  | Response _ => exact h.respond _ _
  | Cancel payload =>
      simp only [RunnerRuntime.receive]
      split
      · exact h
      · exact hgo _ rfl

theorem step (hr : Registered st) (hpl : Placed st) {registered : String → Bool} {event : Event}
    {later : RunnerRuntime} (hlater : RunnerRuntime.step registered event st = some later)
    (hassumed : assumed event st = true) (horderly : orderly event st = true) :
    Answered later := by
  cases event with
  | receive connection message =>
      obtain ⟨hp, rfl⟩ := whileReading_eq_some hlater
      exact h.receive hp message
  | endOfStream connection =>
      obtain ⟨hp, rfl⟩ := whileReading_eq_some hlater
      exact h.moveTo (by rw [hp]; rfl) rfl nofun
  | readFails connection =>
      obtain ⟨hp, rfl⟩ := whileReading_eq_some hlater
      exact h.moveTo (by rw [hp]; rfl) rfl nofun
  | act connection sent =>
      obtain ⟨rfl, -⟩ := Bool.and_eq_true_iff.mp hassumed
      exact h.act hr hpl hlater horderly
  | poll id =>
      obtain ⟨task, ht, hlater⟩ := Option.bind_eq_some_iff.mp hlater
      obtain ⟨-, hlater⟩ := Option.ite_none_left_eq_some.mp hlater
      cases hlater
      exact h.setTask ht rfl rfl (h.steady id task ht) .inl (fun _ => rfl) (h.taken id task ht)
        (h.completed id task ht) fun outcome => h.outcome id task outcome ht
  | pend id =>
      obtain ⟨task, ht, hlater⟩ := Option.bind_eq_some_iff.mp hlater
      obtain ⟨-, hlater⟩ := Option.ite_none_right_eq_some.mp hlater
      cases hlater
      exact h.setTask ht rfl rfl (h.steady id task ht) .inl (fun _ => rfl) (h.taken id task ht)
        (h.completed id task ht) fun outcome => h.outcome id task outcome ht
  | finish id ending =>
      obtain ⟨task, ht, hs, -, rfl⟩ := finish_eq_some hlater
      obtain ⟨answer, hanswer⟩ :
          ∃ answer, executeWithDeadline task.request ending = some answer := by
        cases ending with
        | panicked => cases hassumed
        | handled _ | notFound | timedOut | expired => exact ⟨_, rfl⟩
      rw [hanswer]
      refine h.setTask ht rfl rfl nofun .inl (fun _ => by rw [hs]; rfl) (fun _ => rfl) nofun ?_
      rintro outcome ⟨⟩
      apply own_executeWithDeadline hanswer
      rintro outcome rfl
      simpa [orderly, ht, Option.all_eq_true] using horderly
  | advance id sent =>
      obtain ⟨task, ht, hlater⟩ := Option.bind_eq_some_iff.mp hlater
      obtain ⟨-, hlater⟩ := Option.ite_none_right_eq_some.mp hlater
      obtain rfl : sent = true := hassumed
      apply h.advance ht hlater
      intro outcome hs
      simpa [orderly, ht, hs] using horderly
  | drop id =>
      obtain ⟨task, ht, hlater⟩ := Option.bind_eq_some_iff.mp hlater
      obtain ⟨⟨haborted, -⟩, hlater⟩ := Option.ite_none_right_eq_some.mp hlater
      cases hlater
      refine h.setTask ht rfl rfl nofun .inl (fun hlive => ?_) (fun _ => rfl) nofun
        fun _ hnone => by cases hnone
      exact (h.taken id task ht (h.aborted id task ht haborted hlive)).symm

end Answered

theorem placed_start : Placed {} where
  distinct _ _ _ _ ht := by cases ht
  active _ _ hr := by cases hr
  draining _ _ _ _ hp := by cases hp
  entries _ _ hr := by cases hr
  cancelling _ _ _ _ _ hp := by cases hp

theorem answered_start : Answered {} where
  cancelling _ _ _ _ _ _ hp := by cases hp
  draining _ _ _ _ _ hp := by cases hp
  once _ _ _ _ _ _ hp := by cases hp
  completed _ _ ht := by cases ht
  outcome _ _ _ ht := by cases ht
  taken _ _ ht := by cases ht
  told _ ht := by cases ht
  untold _ ht := by cases ht
  aborted _ _ ht := by cases ht
  counted _ _ ht := by cases ht
  own _ _ _ hr := by cases hr
  steady _ _ ht := by cases ht

def admitted (event : Event) (st : RunnerRuntime) : Bool := assumed event st && orderly event st

theorem reach_answered {registered : String → Bool} {st : RunnerRuntime}
    (h : (threads registered).Reach (admitted · ·) {} st) :
    Registered st ∧ Placed st ∧ Answered st := by
  induction h with
  | start => exact ⟨registered_start, placed_start, answered_start⟩
  | step event _ hadmitted hstep ih =>
      obtain ⟨hassumed, horderly⟩ := Bool.and_eq_true_iff.mp hadmitted
      obtain ⟨hr, hp, ha⟩ := ih
      exact ⟨hr.step hstep, hp.step hr hstep hassumed, ha.step hr hp hstep hassumed horderly⟩

-- The request of the task is dealt with: its outcome is out, or a cancel has answered it, or
-- the task has ended and no cancel still has it in hand.
def Done (st : RunnerRuntime) (id : TaskId) (task : Task) : Prop :=
  task.stage.Sent = true ∨ st.told id = true ∨ task.stage.Ended = true ∧ ¬ st.Busy id

-- Each accepted request is answered on its own connection under its own ids, at most once
-- while that lives, and once when it is done.
def Responds (st : RunnerRuntime) (id : TaskId) (task : Task) : Prop :=
  (∀ connection response, response ∈ st.responses connection → response.answers = some id →
    connection = task.connection ∧ Own task.request response.outcome) ∧
  ((st.phase task.connection).Live = true →
    st.answers task.connection id ≤ 1 ∧ (st.Done id task → st.answers task.connection id = 1))

theorem responds_of_answered {st : RunnerRuntime} (hr : Registered st) (h : Answered st)
    {id : TaskId} {task : Task} (ht : st.tasks id = some task) : st.Responds id task := by
  constructor
  · intro connection response hmem hanswers
    obtain ⟨found, hfound, hconnection, hown⟩ := h.own connection response id hmem hanswers
    obtain rfl := Option.some.inj (ht.symm.trans hfound)
    exact ⟨hconnection.symm, hown⟩
  intro hlive
  have hcounted := h.counted id task ht hlive
  have hboth : task.stage.Sent = true → st.told id = false := by
    intro hsent
    by_contra htold
    rw [h.taken id task ht (h.told id (by simpa using htold))] at hsent
    cases hsent
  have hsome : st.Done id task → task.stage.Sent = true ∨ st.told id = true := by
    rintro (hsent | htold | ⟨hended, hidle⟩)
    · exact .inl hsent
    · exact .inr htold
    · cases hs : task.stage with
      | ended => exact .inl rfl
      | panicked => exact absurd hs (h.steady id task ht)
      | dropped =>
          have htaken := h.aborted id task ht (hr.dropped id task ht hs) hlive
          by_contra hnot
          exact hidle (h.untold id htaken (by simpa using (not_or.mp hnot).2))
      | running | finished _ | marked _ | sent | untracked | unindexed =>
          rw [hs] at hended
          cases hended
  by_cases hsent : task.stage.Sent = true
  · rw [if_pos hsent, hboth hsent, if_neg Bool.false_ne_true] at hcounted
    exact ⟨by omega, fun _ => hcounted⟩
  · rw [if_neg hsent] at hcounted
    by_cases htold : st.told id = true
    · rw [if_pos htold] at hcounted
      exact ⟨by omega, fun _ => by omega⟩
    · rw [if_neg htold] at hcounted
      refine ⟨by omega, fun hdone => ?_⟩
      rcases hsome hdone with h | h
      · exact absurd h hsent
      · exact absurd h htold

theorem response_once {registered : String → Bool} {st : RunnerRuntime}
    (h : (threads registered).Reach (admitted · ·) {} st) {id : TaskId} {task : Task}
    (ht : st.tasks id = some task) : st.Responds id task := by
  obtain ⟨hr, -, ha⟩ := reach_answered h
  exact responds_of_answered hr ha ht

-- One request is answered by its task and one by a cancel from another connection.
def bothWays : List Event :=
  [.receive 0 (.Request sampleRequest), .act 0, .act 0, .act 0,
    .receive 0 (.Request { sampleRequest with requestId := "q", jobId := "i" }),
    .act 0, .act 0, .act 0,
    .poll 0, .finish 0 success, .advance 0, .advance 0, .advance 0, .advance 0, .advance 0,
    .receive 1 (.Cancel { jobId := "i" }), .act 1, .act 1, .act 1, .act 1]

-- Whether the two tasks have got so far, one by itself and the other by a cancel.
def bothDone (st : RunnerRuntime) : Bool :=
  (st.tasks 0).any (fun task => task.connection = 0 && task.stage.Sent) &&
    (st.tasks 1).any (·.connection = 0) && st.told 1 && (st.phase 0).Live

theorem response_once_orderly : ∃ st, (threads fun _ => true).Reach (admitted · ·) {} st ∧
    st.answers 0 0 = 1 ∧ st.answers 0 1 = 1 := by
  have htest : ((threads fun _ => true).run admitted bothWays {}).map bothDone = some true := by
    decide +kernel
  obtain ⟨st, hreach, hdone⟩ := EventSystem.exists_reach (fun _ _ h => h) htest
  simp only [bothDone, Bool.and_eq_true, Option.any_eq_true, decide_eq_true_eq] at hdone
  obtain ⟨⟨⟨⟨first, hfirst, hown, hsent⟩, second, hsecond, hother⟩, htold⟩, hlive⟩ := hdone
  have hone := ((response_once hreach hfirst).2 (by rw [hown]; exact hlive)).2 (.inl hsent)
  have htwo := ((response_once hreach hsecond).2 (by rw [hother]; exact hlive)).2
    (.inr (.inl htold))
  rw [hown] at hone
  rw [hother] at htwo
  exact ⟨st, hreach, hone, htwo⟩

-- A cancel takes the entry while the task runs on, and both put a response in the channel.
def crossing : List Event :=
  [.receive 0 (.Request sampleRequest), .act 0, .act 0, .act 0, .poll 0, .finish 0 success,
    .receive 1 (.Cancel { jobId := "j", requestId := some "r" }), .act 1, .advance 0, .advance 0,
    .act 1, .act 1, .act 1]

theorem response_once_fails : ¬ ∀ (registered : String → Bool) (st : RunnerRuntime),
    (threads registered).Reach (assumed · ·) {} st →
      ∀ id task, st.tasks id = some task → st.Responds id task := by
  intro h
  have htest : ((threads fun _ => true).run assumed crossing {}).map
      (fun st => (st.tasks 0).any (·.connection = 0) && (st.phase 0).Live &&
        decide (st.answers 0 0 = 2)) = some true := by decide +kernel
  obtain ⟨st, hreach, htest⟩ := EventSystem.exists_reach (fun _ _ h => h) htest
  simp only [Bool.and_eq_true, Option.any_eq_true, decide_eq_true_eq] at htest
  obtain ⟨⟨⟨task, ht, hown⟩, hlive⟩, htwice⟩ := htest
  have hone := ((h _ st hreach 0 task ht).2 (by rw [hown]; exact hlive)).1
  rw [hown] at hone
  omega

end RunnerRuntime

end Rrq.Runtime.Rust
