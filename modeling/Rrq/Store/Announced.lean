import Rrq.Store.Frame

-- A job that ended in success or in the DLQ has its end in its event stream, and the hash and
-- the stream expire together.

namespace Rrq

def JobHash.Settled (h : JobHash) : Prop :=
  h.status = some JobStatus.Completed.asStr ∨ h.status = some JobStatus.Failed.asStr

instance (h : JobHash) : Decidable h.Settled := inferInstanceAs (Decidable (_ ∨ _))

namespace Store

open Script Scripts

-- The last event of the stream is about the job and has the status of its hash.
def Told (id : JobId) (h : JobHash) (stream : List Event) : Prop :=
  ∃ event, stream.getLast? = some event ∧ event.jobId = id ∧ h.status = some event.status

-- What the hash and the stream of a job have to do with each other.
def Matched (id : JobId) : Option (Volatile JobHash) → Option (Volatile (List Event)) → Prop
  | none, none => True
  | none, some _ => False
  | some cell, none => cell.expireAt = none ∧ ¬ cell.value.Settled
  | some cell, some stream =>
      cell.expireAt = stream.expireAt ∧ (cell.value.Settled → Told id cell.value stream.value)

def Announced (s : Store) : Prop := ∀ id, Matched id (s.jobs id) (s.events id)

variable {s t : Store} {id other : JobId}

theorem announced_empty : Announced .empty := fun _ => trivial

theorem Announced.congr (hs : s.Announced) (hj : t.jobs = s.jobs) (he : t.events = s.events) :
    t.Announced := by
  intro id
  rw [hj, he]
  exact hs id

theorem Announced.lpush (hs : s.Announced) (name : String) (id : JobId) :
    (s.lpush name id).Announced := hs.congr rfl rfl

theorem announced_setJob (hs : s.Announced) {cell : Option (Volatile JobHash)}
    (h : Matched id cell (s.events id)) : (s.setJob id cell).Announced := by
  intro other
  by_cases ho : other = id
  · subst ho
    simpa using h
  · simpa [ho] using hs other

-- The fields leave the status as it was, or set one that is not an end.
def Discreet (fields : JobHash → JobHash) : Prop :=
  ∀ h, (fields h).status = h.status ∨ ¬ (fields h).Settled

theorem discreet_same {fields : JobHash → JobHash} (h : ∀ raw, (fields raw).status = raw.status) :
    Discreet fields := fun raw => .inl (h raw)

theorem Discreet.settled {fields : JobHash → JobHash} (hf : Discreet fields) {h : JobHash}
    (hs : (fields h).Settled) : (fields h).status = h.status ∧ h.Settled := by
  have hsame := (hf h).resolve_right (not_not.mpr hs)
  refine ⟨hsame, ?_⟩
  unfold JobHash.Settled at hs ⊢
  rwa [hsame] at hs

theorem Discreet.inStep {fields : JobHash → JobHash} (hf : Discreet fields) {cell : Volatile JobHash}
    {stream : Option (Volatile (List Event))} (h : Matched id (some cell) stream) :
    Matched id (some { cell with value := fields cell.value }) stream := by
  cases stream with
  | none => exact ⟨h.1, fun hset => h.2 (hf.settled hset).2⟩
  | some stream =>
      refine ⟨h.1, fun hset => ?_⟩
      obtain ⟨hsame, hbefore⟩ := hf.settled hset
      obtain ⟨event, hlast, hid, hstatus⟩ := h.2 hbefore
      exact ⟨event, hlast, hid, hsame.trans hstatus⟩

theorem Announced.hset (hs : s.Announced) {fields : JobHash → JobHash} (hf : Discreet fields) :
    (s.hset id fields).Announced := by
  have hid := hs id
  unfold Store.hset
  cases hcell : s.jobs id with
  | some cell =>
      rw [hcell] at hid
      exact announced_setJob hs (hf.inStep hid)
  | none =>
      rw [hcell] at hid
      refine announced_setJob hs ?_
      cases hstream : s.events id with
      | some stream =>
          rw [hstream] at hid
          exact hid.elim
      | none =>
          refine ⟨rfl, fun hset => ?_⟩
          have hnone := (hf.settled hset).2
          simp [JobHash.Settled] at hnone

theorem Announced.hdel (hs : s.Announced) {fields : JobHash → JobHash} (hf : Discreet fields) :
    (s.hdel id fields).Announced := by
  have hid := hs id
  unfold Store.hdel
  cases hcell : s.jobs id with
  | none => exact hs
  | some cell =>
      rw [hcell] at hid
      exact announced_setJob hs (hf.inStep hid)

-- A status is written together with the event that tells it.
theorem Announced.record (hs : s.Announced) {fields : JobHash → JobHash} {event : Event}
    (hid : event.jobId = id) (hf : ∀ h, (fields h).status = some event.status) :
    ((s.hset id fields).xadd id event).Announced := by
  have hstep := hs id
  intro other
  by_cases ho : other = id
  · subst ho
    cases hcell : s.jobs other with
    | none =>
        cases hstream : s.events other with
        | none =>
            simp only [Store.hset, xadd, hcell, hstream, setJob_events, setEvents_jobs,
              setEvents_events, setJob_jobs, Function.update_self]
            exact ⟨rfl, fun _ => ⟨event, rfl, hid, hf _⟩⟩
        | some stream => simp [hcell, hstream, Matched] at hstep
    | some cell =>
        cases hstream : s.events other with
        | none =>
            simp only [hcell, hstream, Matched] at hstep
            simp only [Store.hset, xadd, hcell, hstream, setJob_events, setEvents_jobs,
              setEvents_events, setJob_jobs, Function.update_self]
            exact ⟨hstep.1, fun _ => ⟨event, rfl, hid, hf _⟩⟩
        | some stream =>
            simp only [hcell, hstream, Matched] at hstep
            simp only [Store.hset, xadd, hcell, hstream, setJob_events, setEvents_jobs,
              setEvents_events, setJob_jobs, Function.update_self]
            exact ⟨hstep.1, fun _ => ⟨event, by simp, hid, hf _⟩⟩
  · have hjobs : ((s.hset id fields).xadd id event).jobs other = s.jobs other := by
      unfold xadd Store.hset
      split <;> split <;> simp [ho]
    have hevents : ((s.hset id fields).xadd id event).events other = s.events other := by
      unfold xadd Store.hset
      split <;> split <;> simp [ho]
    rw [hjobs, hevents]
    exact hs other

-- The hash and the stream are given the same expiry.

theorem Announced.expire (hs : s.Announced) (hevents : (s.events id).isSome) (seconds : Int) :
    ((s.expireJob id seconds).expireEvents id seconds).Announced := by
  have hstep := hs id
  obtain ⟨stream, hstream⟩ := Option.isSome_iff_exists.mp hevents
  cases hcell : s.jobs id with
  | none => simp [hcell, hstream, Matched] at hstep
  | some cell =>
      simp only [hcell, hstream, Matched] at hstep
      simp only [expireJob, expireEvents, hcell, setJob_events, hstream, setJob_now]
      intro other
      by_cases ho : other = id
      · subst ho
        simpa [Matched] using hstep.2
      · simpa [ho] using hs other

theorem Announced.persist (hs : s.Announced) (hevents : (s.events id).isSome) :
    ((s.persistJob id).persistEvents id).Announced := by
  have hstep := hs id
  obtain ⟨stream, hstream⟩ := Option.isSome_iff_exists.mp hevents
  cases hcell : s.jobs id with
  | none => simp [hcell, hstream, Matched] at hstep
  | some cell =>
      simp only [hcell, hstream, Matched] at hstep
      simp only [persistJob, persistEvents, hcell, setJob_events, hstream]
      intro other
      by_cases ho : other = id
      · subst ho
        simpa [Matched] using hstep.2
      · simpa [ho] using hs other

theorem isSome_events_xadd (s : Store) (id : JobId) (event : Event) :
    ((s.xadd id event).events id).isSome := by
  unfold xadd
  split <;> simp

theorem announced_advance (hs : s.Announced) (now : Int) : (s.advance now).Announced := by
  intro id
  have hstep := hs id
  change Matched id ((s.jobs id).filter _) ((s.events id).filter _)
  cases hcell : s.jobs id with
  | none =>
      cases hstream : s.events id with
      | none => trivial
      | some stream => simp [hcell, hstream, Matched] at hstep
  | some cell =>
      cases hstream : s.events id with
      | none =>
          simp only [hcell, hstream, Matched] at hstep
          have hlive : cell.liveAt now = true := by simp [Volatile.liveAt, hstep.1]
          rw [Option.filter_some, if_pos hlive]
          exact hstep
      | some stream =>
          simp only [hcell, hstream, Matched] at hstep
          have hlive : cell.liveAt now = stream.liveAt now := by
            simp [Volatile.liveAt, hstep.1]
          rw [Option.filter_some, Option.filter_some, hlive]
          split_ifs
          · exact hstep
          · trivial

-- The scripts.

theorem announced_claimOne (args : ClaimArgs) (id : JobId) :
    Keeps Announced (claimOne args id) := by
  refine .bind (.ask _) fun present => .ite ?_ ?_
  · refine .bind (.ask _) fun seconds => .bind ?_ fun lockOk => .ite (.bind ?_ ?_) (.pure _)
    · refine Keeps.call fun t taken after heq ht => ?_
      unfold setLockNx at heq
      split_ifs at heq
      · obtain ⟨-, rfl⟩ := Prod.mk.inj (Option.some.inj heq)
        exact ht
      · obtain ⟨-, rfl⟩ := Prod.mk.inj (Option.some.inj heq)
        exact ht.congr rfl rfl
    · refine Keeps.call fun t removed after heq ht => ?_
      obtain ⟨-, rfl⟩ := Prod.mk.inj (Option.some.inj heq)
      exact ht.congr rfl rfl
    · refine fun removed => .ite ?_ ?_
      · refine .bind (.write fun _ ht => ht.hset fun h => .inr ?_) fun _ =>
          .bind (.write fun _ ht => ht.congr rfl rfl) fun _ => .pure _
        simp [JobHash.Settled, JobStatus.asStr]
      · exact .bind (.write fun _ ht => ht.congr rfl rfl) fun _ => .pure _
  · exact .bind (.write fun _ ht => ht.congr rfl rfl) fun _ => .pure _

theorem announced_claimReady (args : ClaimArgs) : Keeps Announced (claimReady args) :=
  .ite (.pure _) (.ite (.pure _) (.bind (.ask _) fun _ =>
    keeps_claimEach (fun id _ => announced_claimOne args id) []))

theorem announced_enqueue (id : JobId) (queueKey : QueueKey) {mapping : JobHash}
    (h : ¬ mapping.Settled) (score : ℚ) :
    Keeps Announced (Scripts.enqueue id queueKey mapping score) :=
  .bind (.ask _) fun _ => .ite (.pure _)
    (.bind (.write fun _ ht => ht.hset fun _ => .inr h) fun _ =>
      .bind (.write fun _ ht => ht.congr rfl rfl) fun _ => .pure _)

theorem announced_hincrby (id : JobId) : Keeps Announced (call fun s => s.hincrby id) := by
  refine Keeps.call fun t count after heq ht => ?_
  obtain ⟨n, -, hn⟩ := Option.map_eq_some_iff.mp heq
  obtain ⟨-, rfl⟩ := Prod.mk.inj hn
  exact ht.hset (discreet_same fun _ => rfl)

theorem announced_retry (id : JobId) (queueKey : QueueKey) (score : ℚ) (errorMessage : String) :
    Keeps Announced (retry id queueKey score errorMessage .Retrying) := by
  refine .bind (announced_hincrby id) fun count => ?_
  refine .bind (.write fun _ ht => ht.hset fun h => .inr ?_) fun _ =>
    .bind (.write fun _ ht => ht.congr rfl rfl) fun _ => .pure _
  simp [JobHash.Settled, JobStatus.asStr]

theorem announced_requeueJob (args : RequeueArgs) : Keeps Announced (requeueJob args) := by
  have hdemote : Keeps Announced (demote args) := by
    refine .bind (.ask _) fun current => .ite ?_ (.ite (.pure _) ?_)
    · refine .bind (.write fun _ ht => ht.hset fun h => .inr ?_) fun _ =>
        .write fun _ ht => ht.hdel (discreet_same fun _ => rfl)
      simp [JobHash.Settled, JobStatus.asStr]
    · exact .write fun _ ht => ht.hset (discreet_same fun _ => rfl)
  have huntrack : Keeps Announced (untrack args) := by
    unfold untrack
    split
    · exact .write fun _ ht => ht.congr rfl rfl
    · exact .pure _
  have hrelease : Keeps Announced (releaseOwned args) := by
    refine .ite (.pure _) (.bind (keeps_getLock _ _) fun owner => .ite ?_ (.pure _))
    exact .write fun _ ht => ht.congr rfl rfl
  have hrestore : Keeps Announced (restoreSchedule args) := by
    unfold restoreSchedule
    split
    · exact .write fun _ ht => ht.hset (discreet_same fun _ => rfl)
    · exact .pure _
  refine .bind (.pcall ?_) fun result => .pure _
  refine .bind (.ask _) fun present => .ite ?_ (.pure _)
  refine .bind hdemote fun _ => .bind (.ask _) fun queued => .ite ?_ ?_
  · exact .bind huntrack fun _ => .bind hrelease fun _ => .pure _
  · exact .bind (.write fun _ ht => ht.congr rfl rfl) fun _ => .bind huntrack fun _ =>
      .bind hrestore fun _ => .bind hrelease fun _ => .pure _

section Producer

open Producer

variable (args : JobArgs)

theorem not_settled_mapping : ¬ args.mapping.Settled := by
  simp [JobHash.Settled, JobArgs.mapping, JobStatus.asStr]

theorem announced_create : Keeps Announced (create args) :=
  .bind (.write fun _ ht => ht.hset fun _ => .inr (not_settled_mapping args)) fun _ =>
    .bind (.write fun _ ht => ht.congr rfl rfl) fun _ => .pure _

theorem announced_enqueueScript (idempotencyKey : Option String) (ttlSeconds : Int) :
    Keeps Announced (enqueueScript args idempotencyKey ttlSeconds) :=
  keeps_enqueueScript (fun _ _ _ ht => ht.congr rfl rfl) (announced_create args) idempotencyKey
    ttlSeconds

theorem announced_rateLimitScript (rateKey : String) (ttlSeconds : Int) :
    Keeps Announced (rateLimitScript args rateKey ttlSeconds) :=
  keeps_rateLimitScript (fun _ _ _ ht => ht.congr rfl rfl) (announced_create args) rateKey ttlSeconds

theorem announced_debounceScript (debounceKey : String) (ttlSeconds : Int) :
    Keeps Announced (debounceScript args debounceKey ttlSeconds) := by
  have hkey : ∀ t key c, Announced t → (t.setDebounce key c).Announced :=
    fun _ _ _ ht => ht.congr rfl rfl
  refine keeps_debounceScript hkey (keeps_createDebounced hkey (announced_create args) _ _) ?_
  exact fun existing => keeps_reschedule hkey (fun _ ht => ht.hset (discreet_same fun _ => rfl))
    (fun _ ht => ht.congr rfl rfl) _ _

end Producer

-- The commands that end a job. Only a script that is cut short leaves an end untold.

theorem Announced.failed (hs : s.Announced) (dlqKey errorMessage : String)
    (completionTime : DateTime) :
    (((s.hset id fun h => { h with
      status := some JobStatus.Failed.asStr
      lastError := some errorMessage
      completionTime := some (.val completionTime) }).xadd id (failedEvent id)).lpush dlqKey
        id).Announced :=
  (hs.record (show (failedEvent id).jobId = id from rfl) fun _ => rfl).lpush dlqKey id

theorem announced_moveToDlq (hs : s.Announced) (dlqKey errorMessage : String)
    (completionTime : DateTime) (dlqTtl : Int) (uniqueLockKey : Option String) :
    ((moveToDlq id dlqKey errorMessage completionTime dlqTtl uniqueLockKey).run none
      s).2.Announced := by
  have hrelease : ∀ t : Store, t.Announced → ∀ count : Int,
      ((releaseUnique uniqueLockKey >>= fun _ => pure count).run none t).2.Announced := by
    intro t ht count
    cases uniqueLockKey with
    | none => exact ht
    | some key => exact ht.congr rfl rfl
  have hexpire : ∀ t : Store, t.Announced → (t.events id).isSome → ∀ count : Int,
      ((expireDlq id dlqTtl >>= fun _ => releaseUnique uniqueLockKey >>= fun _ =>
        pure count).run none t).2.Announced := by
    intro t ht hevents count
    unfold expireDlq
    split_ifs
    · rw [bind_assoc, run_write_bind, run_write_bind]
      exact hrelease _ (ht.expire hevents dlqTtl) count
    · exact hrelease t ht count
  unfold moveToDlq
  rw [run_pcall_bind]
  dsimp only
  unfold moveToDlqBody
  rw [run_call_bind]
  cases hcount : s.hincrby id with
  | none => exact hs
  | some result =>
      obtain ⟨count, t⟩ := result
      have ht : t.Announced := by
        obtain ⟨n, -, hn⟩ := Option.map_eq_some_iff.mp hcount
        obtain ⟨-, rfl⟩ := Prod.mk.inj hn
        exact hs.hset (discreet_same fun _ => rfl)
      dsimp only
      rw [run_write_bind, run_write_bind, run_write_bind]
      exact hexpire _ (ht.failed dlqKey errorMessage completionTime)
        (isSome_events_xadd _ id _) count

theorem announced_moveJobToDlq (hs : s.Announced) (dlqKey errorMessage : String)
    (completionTime : DateTime) :
    (Pipelines.moveJobToDlq id dlqKey errorMessage completionTime s).Announced :=
  (hs.failed dlqKey errorMessage completionTime).expire (isSome_events_xadd _ id _) _

theorem announced_saveJobResult (id : JobId) (hs : s.Announced) (result : Json) (ttlSeconds : Int)
    (completionTime : DateTime) :
    (Pipelines.saveJobResult id result ttlSeconds completionTime s).2.Announced := by
  have hrecorded : (Pipelines.recordResult id result completionTime s).Announced :=
    hs.record rfl fun _ => rfl
  have hevents := isSome_events_xadd (s.hset id fun h => { h with
    result := some (.val result)
    completionTime := some (.val completionTime)
    status := some JobStatus.Completed.asStr }) id (Pipelines.completedEvent id)
  unfold Pipelines.saveJobResult
  dsimp only
  split_ifs
  · exact hrecorded.expire hevents _
  · exact hrecorded
  · exact hrecorded.persist hevents
  · exact hrecorded

end Store

namespace Cmd

open Store

-- An end is only written by the commands that tell it.
def Truthful : Cmd → Prop
  | atomicEnqueueJob _ _ mapping _ => ¬ mapping.Settled
  | atomicRetryJob _ _ _ _ status => status = .Retrying
  | updateJobStatus _ status => status = .Cancelled
  | _ => True

-- The move into the DLQ is not cut short.
def Uncut (fault : Fault) : Cmd → Prop
  | atomicMoveJobToDlq _ _ _ _ _ _ => fault = .none ∨ fault = .refused
  | _ => True

variable {s : Store} {fault : Fault} {page : Nat × List String}

theorem announced_exec {c : Cmd} (hc : c.Truthful) (hf : c.Uncut fault) (hs : s.Announced) :
    (c.exec fault page s).2.Announced := by
  have hhset : ∀ {id : JobId} {fields : JobHash → JobHash}, Discreet fields →
      (s.hset id fields).Announced := hs.hset
  cases c <;> simp only [exec, reply]
  case addJobToQueue => exact keeps_single fault hs (hs.congr rfl rfl)
  case removeJobFromQueue => exact keeps_single fault hs (hs.congr rfl rfl)
  case atomicEnqueueJob id queue mapping score =>
    exact keeps_script fault _ _ (announced_enqueue id queue hc score) hs
  case atomicClaimReadyJobs args => exact keeps_script fault _ _ (announced_claimReady args) hs
  case refreshJobLockTimeout id worker ms =>
    refine keeps_script fault _ _ (.bind (keeps_getLock _ _) fun _ => .ite ?_ (.pure _)) hs
    refine Script.Keeps.call fun t value after heq ht => ?_
    split_ifs at heq
    · obtain ⟨-, rfl⟩ := Prod.mk.inj (Option.some.inj heq)
      exact ht.congr rfl rfl
  case releaseJobLock => exact keeps_single fault hs (hs.congr rfl rfl)
  case releaseJobLockIfOwner id owner =>
    refine keeps_script fault _ _ (.bind (keeps_getLock _ _) fun _ => .ite ?_ (.pure _)) hs
    exact .bind (.write fun _ ht => ht.congr rfl rfl) fun _ => .pure _
  case tryLockJob id owner ms =>
    refine keeps_single fault hs ?_
    split
    · rename_i taken after heq
      unfold setLockNx at heq
      split_ifs at heq
      · obtain ⟨-, rfl⟩ := Prod.mk.inj (Option.some.inj heq)
        exact hs
      · obtain ⟨-, rfl⟩ := Prod.mk.inj (Option.some.inj heq)
        exact hs.congr rfl rfl
    · exact hs
  case getJobLockOwner id =>
    refine keeps_single fault hs ?_
    unfold getLock
    split <;> rename_i heq <;> split at heq <;> cases heq <;> exact hs
  case markJobPending id error =>
    refine keeps_single fault hs ?_
    refine Announced.hdel (hhset fun h => .inr ?_) (discreet_same fun _ => rfl)
    simp [JobHash.Settled, JobStatus.asStr]
  case updateJobNextScheduledRunTime id time =>
    exact keeps_single fault hs (hhset (discreet_same fun _ => rfl))
  case updateJobStatus id status =>
    obtain rfl : status = .Cancelled := hc
    refine keeps_single fault hs (hhset fun h => .inr ?_)
    simp [JobHash.Settled, JobStatus.asStr]
  case atomicRetryJob id queue score message status =>
    obtain rfl : status = .Retrying := hc
    exact keeps_script fault _ _ (announced_retry id queue score message) hs
  case atomicMoveJobToDlq id dlq message time ttl unique =>
    rcases hf with rfl | rfl
    · exact announced_moveToDlq hs dlq message time ttl unique
    · exact hs
  case moveJobToDlq id dlq message time =>
    exact keeps_single fault hs (announced_moveJobToDlq hs dlq message time)
  case atomicRequeueJob args => exact keeps_script fault _ _ (announced_requeueJob args) hs
  case saveJobResult id result ttl time =>
    have hsaved := announced_saveJobResult id hs result ttl time
    refine keeps_single fault hs ?_
    split <;> rename_i heq <;> rw [heq] at hsaved <;> exact hsaved
  case removeActiveJob => exact keeps_single fault hs (hs.congr rfl rfl)
  case acquireUniqueJobLock =>
    refine keeps_single fault hs ?_
    split_ifs
    · exact hs
    · exact hs.congr rfl rfl
    · exact hs
  case releaseUniqueJobLock => exact keeps_single fault hs (hs.congr rfl rfl)
  case setWorkerHealth =>
    refine keeps_single fault hs ?_
    split_ifs
    · exact hs.congr rfl rfl
    · exact hs
  case producerEnqueue args key ttl =>
    exact keeps_script fault _ _ (announced_enqueueScript args key ttl) hs
  case producerRateLimit args key ttl =>
    exact keeps_script fault _ _ (announced_rateLimitScript args key ttl) hs
  case producerDebounce args key ttl =>
    exact keeps_script fault _ _ (announced_debounceScript args key ttl) hs
  -- the others only read
  all_goals exact keeps_single fault hs hs

end Cmd

end Rrq
