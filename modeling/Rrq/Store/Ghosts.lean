import Rrq.Redis.Stages
import Rrq.Store.Outcome

-- What becomes of a job that has no hash.

namespace Rrq.Store

open Script Scripts

-- The job, which has no hash, has got none, and has entered no queue and no dead letter list.
structure Unseen (id : JobId) (s t : Store) : Prop where
  cell : t.jobs id = none
  queues : ∀ queue, id ∈ t.queues queue → id ∈ s.queues queue
  dlq : ∀ name, id ∈ t.dlq name → id ∈ s.dlq name

def NoGhost (s t : Store) : Prop := ∀ id, s.jobs id = none → Unseen id s t

variable {id other : JobId} {s t u : Store}

theorem Unseen.refl (h : s.jobs id = none) : Unseen id s s :=
  ⟨h, fun _ hq => hq, fun _ hd => hd⟩

theorem Unseen.trans (hst : Unseen id s t) (htu : Unseen id t u) : Unseen id s u where
  cell := htu.cell
  queues queue hq := hst.queues queue (htu.queues queue hq)
  dlq name hd := hst.dlq name (htu.dlq name hd)

theorem SameJob.unseen (h : SameJob id s t) (hdlq : t.dlq = s.dlq) (hs : s.jobs id = none) :
    Unseen id s t where
  cell := h.cell.trans hs
  queues queue := (h.queues queue).mp
  dlq _ hd := hdlq ▸ hd

theorem unseen_zrem (queue : QueueKey) (h : s.jobs id = none) :
    Unseen id s (s.zrem queue other) where
  cell := h
  queues name hq := by
    by_cases hn : name = queue
    · subst hn
      simp only [zrem, setQueue_queues, Function.update_self, SortedSet.mem_erase] at hq
      exact hq.2
    · simpa [zrem, hn] using hq
  dlq _ hd := hd

-- An id that is queued already can be queued again.
theorem unseen_zadd {queue : QueueKey} (score : ℚ) (h : s.jobs id = none)
    (hq : other ∈ s.queues queue) : Unseen id s (s.zadd queue other score) where
  cell := h
  queues name hm := by
    by_cases hn : name = queue
    · subst hn
      simp only [zadd, setQueue_queues, Function.update_self, SortedSet.mem_insert] at hm
      rcases hm with rfl | hm
      · exact hq
      · exact hm
    · simpa [zadd, hn] using hm
  dlq _ hd := hd

-- What is written about other jobs is nothing to this one.
theorem frame_unseen (id : JobId) :
    Frame (fun _ => True) (id ≠ ·) (fun s t => s.jobs id = none → Unseen id s t) where
  refl _ := .refl
  trans _ _ _ hst htu hs := (hst hs).trans (htu (hst hs).cell)
  define _ s _ fields hne := (sameJob_hset hne s fields).unseen (by simp)
  hset _ s _ fields hne _ := (sameJob_hset hne s fields).unseen (by simp)
  hdel _ s _ fields hne _ := (sameJob_hdel hne s fields).unseen (by unfold hdel; split <;> simp)
  expireJob _ s _ seconds hne :=
    (sameJob_expireJob hne s seconds).unseen (by unfold expireJob; split <;> simp)
  persistJob _ s _ hne := (sameJob_persistJob hne s).unseen (by unfold persistJob; split <;> simp)
  zadd _ s queue _ score hne := (sameJob_zadd hne s queue score).unseen rfl
  zrem _ s queue _ _ := unseen_zrem queue
  zaddActive _ s worker _ score hne := (sameJob_zaddActive hne s worker score).unseen rfl
  zremActive _ s worker _ hne := (sameJob_zremActive hne s worker).unseen rfl
  setLock _ s _ cell hne _ := (sameJob_setLock hne s cell).unseen rfl
  lpush _ s name other hne hs := by
    refine ⟨hs, fun _ hq => hq, fun found hd => ?_⟩
    by_cases hf : found = name
    · subst hf
      simp only [lpush, setDlq_dlq, Function.update_self, List.mem_cons] at hd
      exact hd.resolve_left hne
    · simpa [lpush, hf] using hd
  setHealth _ s worker cell := (sameJob_setHealth id s worker cell).unseen rfl
  setEvents s other cell := (sameJob_setEvents id s other cell).unseen rfl
  setUniqueLock _ s key cell := (sameJob_setUniqueLock id s key cell).unseen rfl
  setIdempotency s _ _ hs := ⟨hs, fun _ hq => hq, fun _ hd => hd⟩
  setRateLimit s _ _ hs := ⟨hs, fun _ hq => hq, fun _ hd => hd⟩
  setDebounce s _ _ hs := ⟨hs, fun _ hq => hq, fun _ hd => hd⟩

-- Writes that touch no hash, no queue and no list.
theorem frame_sameShelves :
    Frame (fun kind => kind ≠ .definition ∧ kind ≠ .hash ∧ kind ≠ .queue ∧ kind ≠ .dlq)
      (fun _ => True) (fun s t => t.jobs = s.jobs ∧ t.queues = s.queues ∧ t.dlq = s.dlq) where
  refl _ := ⟨rfl, rfl, rfl⟩
  trans _ _ _ hst htu := ⟨htu.1.trans hst.1, htu.2.1.trans hst.2.1, htu.2.2.trans hst.2.2⟩
  define h := absurd rfl h.1
  hset h := absurd rfl h.2.1
  hdel h := absurd rfl h.2.1
  expireJob h := absurd rfl h.2.1
  persistJob h := absurd rfl h.2.1
  zadd h := absurd rfl h.2.2.1
  zrem h := absurd rfl h.2.2.1
  zaddActive _ _ _ _ _ _ := ⟨rfl, rfl, rfl⟩
  zremActive _ _ _ _ _ := ⟨rfl, rfl, rfl⟩
  setLock _ _ _ _ _ _ := ⟨rfl, rfl, rfl⟩
  lpush h := absurd rfl h.2.2.2
  setHealth _ _ _ _ := ⟨rfl, rfl, rfl⟩
  setEvents _ _ _ := ⟨rfl, rfl, rfl⟩
  setUniqueLock _ _ _ _ := ⟨rfl, rfl, rfl⟩
  setIdempotency _ _ _ := ⟨rfl, rfl, rfl⟩
  setRateLimit _ _ _ := ⟨rfl, rfl, rfl⟩
  setDebounce _ _ _ := ⟨rfl, rfl, rfl⟩

-- What a script keeps from each of its stores on, it keeps from the first on.
theorem keeps_unseen {α : Type} {script : Script Store α}
    (h : ∀ t, Keeps (fun u => t.jobs id = none → Unseen id t u) script) :
    Keeps (Unseen id s) script := by
  intro budget t ht
  exact ht.trans (h t budget t (fun hnone => .refl hnone) ht.cell)

-- A job that is missing is not found.
theorem leads_unseen_absurd {α : Type} {present : Bool} (hp : present = true)
    (script : Script Store α) :
    Leads (fun t => Unseen id s t ∧ (t.jobs id).isSome = present) (Unseen id s) script := by
  rintro budget t ⟨ht, hpresent⟩
  rw [ht.cell, hp] at hpresent
  cases hpresent

-- The scripts that look for the hash before they write.

theorem keeps_unseen_claimOne (args : ClaimArgs) (candidate : JobId) :
    Keeps (Unseen id s) (claimOne args candidate) := by
  by_cases hc : id = candidate
  · subst hc
    refine Leads.ask_bind (fun _ h => h) fun present => .ite ?_ fun _ => ?_
    · exact fun hp => leads_unseen_absurd hp _
    · exact Leads.write_bind (fun _ h => h.1)
        (fun t h => h.1.trans (unseen_zrem args.queueKey h.1.cell)) (Keeps.pure _)
  · exact keeps_unseen fun t =>
      (frame_unseen id).keeps_claimOne hc t trivial trivial trivial trivial args

theorem keeps_unseen_claimReady (args : ClaimArgs) : Keeps (Unseen id s) (claimReady args) := by
  refine .ite (.pure _) (.ite (.pure _) (.bind (.ask _) fun candidates => ?_))
  exact keeps_claimEach (fun candidate _ => keeps_unseen_claimOne args candidate) []

theorem keeps_unseen_requeueJob (args : RequeueArgs) : Keeps (Unseen id s) (requeueJob args) := by
  by_cases hid : id = args.id
  · subst hid
    refine Leads.answer (Leads.pcall ?_) _
    refine Leads.ask_bind (fun _ h => h) fun present => .ite ?_ fun _ => ?_
    · exact fun hp => leads_unseen_absurd hp _
    · exact .pure (fun _ h => h.1) _
  · exact keeps_unseen fun t =>
      (frame_unseen id).keeps_requeueJob hid t trivial trivial trivial trivial rfl

-- A debounce writes over a job only if it finds it.
theorem keeps_unseen_debounceScript {args : Producer.JobArgs} (hid : id ≠ args.id)
    (debounceKey : String) (ttlSeconds : Int) :
    Keeps (Unseen id s) (Producer.debounceScript args debounceKey ttlSeconds) := by
  have hcreate : Keeps (Unseen id s) (Producer.createDebounced args debounceKey ttlSeconds) :=
    keeps_unseen fun t =>
      (frame_unseen id).keeps_createDebounced t trivial trivial hid debounceKey ttlSeconds
  refine .bind (.ask _) fun existing => ?_
  cases existing with
  | none => exact hcreate
  | some existing =>
      have hskip : Keeps (Unseen id s) (write (fun s => s.setDebounce debounceKey none) >>=
          fun _ => Producer.createDebounced args debounceKey ttlSeconds) :=
        .bind (.write fun t ht => ⟨ht.cell, ht.queues, ht.dlq⟩) fun _ => hcreate
      by_cases he : id = existing
      · subst he
        refine Leads.ask_bind (fun _ h => h) fun present => ?_
        refine Leads.ask_bind (fun _ h => h.1) fun status => .ite (fun hfound => ?_) fun _ => ?_
        · exact (leads_unseen_absurd hfound.1 _).mono fun t h => h.1
        · exact hskip.leads fun t h => h.1.1
      · have hre : Keeps (Unseen id s)
            (Producer.reschedule args existing debounceKey ttlSeconds) := keeps_unseen fun t =>
          (frame_unseen id).keeps_reschedule t trivial trivial he debounceKey ttlSeconds
        exact .bind (.ask _) fun present => .bind (.ask _) fun status => .ite hre hskip

end Rrq.Store

namespace Rrq.Cmd

open Store

-- The job that an enqueue script is to create.
def creates : Cmd → JobId → Prop
  | atomicEnqueueJob id _ _ _ => (· = id)
  | producerEnqueue args _ _ => (· = args.id)
  | producerRateLimit args _ _ => (· = args.id)
  | producerDebounce args _ _ => (· = args.id)
  | _ => fun _ => False

-- What a command writes about without a look, is there.
def Grounded (s : Store) : Cmd → Prop
  | addJobToQueue queue id _ => (s.jobs id).isSome ∨ id ∈ s.queues queue
  | markJobPending id _ => (s.jobs id).isSome
  | updateJobNextScheduledRunTime id _ => (s.jobs id).isSome
  | updateJobStatus id _ => (s.jobs id).isSome
  | atomicRetryJob id _ _ _ _ => (s.jobs id).isSome
  | atomicMoveJobToDlq id _ _ _ _ _ => (s.jobs id).isSome
  | moveJobToDlq id _ _ _ => (s.jobs id).isSome
  | saveJobResult id _ _ _ => (s.jobs id).isSome
  | _ => True

variable {c : Cmd} {id other : JobId} {s : Store}

theorem unseen_other (hs : s.jobs id = none) (hc : ∀ found, c.concerns found → found ≠ id)
    (fault : Fault) (page : Nat × List String) : Unseen id s (c.exec fault page s).2 :=
  frame_exec (frame_unseen id) (fun _ _ => trivial)
    (fun found hfound => (hc found hfound).symm) fault page s hs

theorem unseen_aside (hs : s.jobs id = none)
    (hk : ∀ kind ∈ c.kinds, kind ≠ .definition ∧ kind ≠ .hash ∧ kind ≠ .queue ∧ kind ≠ .dlq)
    (fault : Fault) (page : Nat × List String) : Unseen id s (c.exec fault page s).2 := by
  obtain ⟨hjobs, hqueues, hdlq⟩ :=
    frame_exec frame_sameShelves hk (fun _ _ => trivial) fault page s
  exact ⟨by rw [hjobs, hs], fun queue hq => hqueues ▸ hq, fun name hd => hdlq ▸ hd⟩

-- A command makes nothing of a missing job unless it is to create it, or writes without a look.
theorem unseen_exec (hs : s.jobs id = none) (hc : ¬ c.creates id) (hg : c.Grounded s)
    (fault : Fault) (page : Nat × List String) : Unseen id s (c.exec fault page s).2 := by
  have hne : ∀ {other}, (s.jobs other).isSome → other ≠ id := by
    rintro other hsome rfl
    rw [hs] at hsome
    cases hsome
  cases c
  case addJobToQueue queue other score =>
    rcases hg with hpresent | hqueued
    · exact unseen_other hs (by rintro _ rfl; exact hne hpresent) fault page
    · exact keeps_single fault (.refl hs) (unseen_zadd score hs hqueued)
  case removeJobFromQueue queue other =>
    exact keeps_single fault (.refl hs) (unseen_zrem queue hs)
  case atomicEnqueueJob other queue mapping score =>
    exact unseen_other hs (by rintro _ rfl rfl; exact hc rfl) fault page
  case atomicClaimReadyJobs args =>
    exact keeps_script fault _ _ (keeps_unseen_claimReady args) (.refl hs)
  case markJobPending => exact unseen_other hs (by rintro _ rfl; exact hne hg) fault page
  case updateJobNextScheduledRunTime =>
    exact unseen_other hs (by rintro _ rfl; exact hne hg) fault page
  case updateJobStatus => exact unseen_other hs (by rintro _ rfl; exact hne hg) fault page
  case atomicRetryJob => exact unseen_other hs (by rintro _ rfl; exact hne hg) fault page
  case atomicMoveJobToDlq => exact unseen_other hs (by rintro _ rfl; exact hne hg) fault page
  case moveJobToDlq => exact unseen_other hs (by rintro _ rfl; exact hne hg) fault page
  case saveJobResult => exact unseen_other hs (by rintro _ rfl; exact hne hg) fault page
  case atomicRequeueJob args =>
    exact keeps_script fault _ _ (keeps_unseen_requeueJob args) (.refl hs)
  case producerEnqueue args key ttl =>
    exact unseen_other hs (by rintro _ rfl rfl; exact hc rfl) fault page
  case producerRateLimit args key ttl =>
    exact unseen_other hs (by rintro _ rfl rfl; exact hc rfl) fault page
  case producerDebounce args key ttl =>
    exact keeps_script fault _ _ (keeps_unseen_debounceScript hc key ttl) (.refl hs)
  all_goals exact unseen_aside hs (by simp [kinds]) fault page

-- The other way round: what a command writes without a look is there afterwards.

theorem isSome_hset (s : Store) (id : JobId) (fields : JobHash → JobHash) :
    ((s.hset id fields).jobs id).isSome := by
  unfold hset
  split <;> simp

theorem isSome_setJob {s : Store} {id : JobId} (other : JobId) (cell : Volatile JobHash)
    (h : (s.jobs id).isSome) : ((s.setJob other (some cell)).jobs id).isSome := by
  by_cases ho : id = other
  · subst ho
    simp
  · simpa [ho] using h

-- No write takes a hash away.
theorem frame_present (id : JobId) :
    Frame (fun _ => True) (fun _ => True) fun s t => (s.jobs id).isSome → (t.jobs id).isSome where
  refl _ h := h
  trans _ _ _ hst htu h := htu (hst h)
  define _ s other fields _ h := by
    unfold hset
    split <;> exact isSome_setJob other _ h
  hset _ s other fields _ _ h := by
    unfold hset
    split <;> exact isSome_setJob other _ h
  hdel _ s other fields _ _ h := by
    unfold hdel
    split
    · exact h
    · exact isSome_setJob other _ h
  expireJob _ s other _ _ h := by
    unfold expireJob
    split
    · exact h
    · exact isSome_setJob other _ h
  persistJob _ s other _ h := by
    unfold persistJob
    split
    · exact h
    · exact isSome_setJob other _ h
  zadd _ _ _ _ _ _ h := h
  zrem _ _ _ _ _ h := h
  zaddActive _ _ _ _ _ _ h := h
  zremActive _ _ _ _ _ h := h
  setLock _ _ _ _ _ _ h := h
  lpush _ _ _ _ _ h := h
  setHealth _ _ _ _ h := h
  setEvents _ _ _ h := h
  setUniqueLock _ _ _ _ h := h
  setIdempotency _ _ _ h := h
  setRateLimit _ _ _ h := h
  setDebounce _ _ _ h := h

theorem present_markJobPending (id : JobId) (lastError : Option String) (s : Store) :
    ((Pipelines.markJobPending id lastError s).jobs id).isSome :=
  (frame_present id).hdel trivial _ id _ trivial (by intro; rfl) (isSome_hset s id _)

theorem present_moveJobToDlq (id : JobId) (dlqKey errorMessage : String)
    (completionTime : DateTime) (s : Store) :
    ((Pipelines.moveJobToDlq id dlqKey errorMessage completionTime s).jobs id).isSome := by
  have hf := frame_present id
  apply hf.expireEvents
  apply hf.expireJob trivial _ _ _ trivial
  apply hf.lpush trivial _ _ _ trivial
  apply hf.xadd
  exact isSome_hset s id _

theorem present_saveJobResult (id : JobId) (result : Json) (ttlSeconds : Int)
    (completionTime : DateTime) (s : Store) :
    ((Pipelines.saveJobResult id result ttlSeconds completionTime s).2.jobs id).isSome := by
  have hf := frame_present id
  have hrecord : ((Pipelines.recordResult id result completionTime s).jobs id).isSome :=
    hf.xadd _ _ (isSome_hset s id _)
  unfold Pipelines.saveJobResult
  dsimp only
  split_ifs
  · exact hf.expireEvents _ _ (hf.expireJob trivial _ _ _ trivial hrecord)
  · exact hrecord
  · exact hf.persistEvents _ (hf.persistJob trivial _ _ trivial hrecord)
  · exact hrecord

section Missing

variable (hs : s.jobs id = none)

include hs

-- The counter of a missing hash starts at one.
theorem hincrby_missing :
    s.hincrby id = some (1, s.hset id fun h => { h with currentRetries := some (.int 1) }) := by
  unfold hincrby nextRetries Store.hash
  rw [hs]
  rfl

theorem present_retry (queueKey : QueueKey) (score : ℚ) (errorMessage : String)
    (status : JobStatus) :
    (((Scripts.retry id queueKey score errorMessage status).run none s).2.jobs id).isSome := by
  unfold Scripts.retry
  rw [Script.run_call_bind, hincrby_missing hs]
  exact isSome_hset _ id _

theorem present_moveToDlq (dlqKey errorMessage : String) (completionTime : DateTime)
    (dlqTtl : Int) (uniqueLockKey : Option String) :
    (((Scripts.moveToDlq id dlqKey errorMessage completionTime dlqTtl uniqueLockKey).run none
      s).2.jobs id).isSome := by
  have hf := frame_present id
  unfold Scripts.moveToDlq Scripts.moveToDlqBody
  rw [Script.run_pcall_bind, Script.run_call_bind, hincrby_missing hs]
  dsimp only
  rw [Script.run_write_bind, Script.run_write_bind, Script.run_write_bind]
  generalize hmoved : Store.lpush _ _ _ = moved
  have hpresent : (moved.jobs id).isSome := by
    rw [← hmoved]
    exact hf.lpush trivial _ _ _ trivial (hf.xadd _ _ (isSome_hset _ id _))
  exact (Script.Keeps.bind (hf.keeps_expireDlq trivial moved trivial dlqTtl) fun _ =>
    .bind (hf.keeps_releaseUnique moved trivial uniqueLockKey) fun _ =>
      .pure _).run none (fun h => h) hpresent

end Missing

-- Without a fault a command raises no ghost if and only if what it writes about is there.
theorem noGhost_iff (hc : ∀ id, ¬ c.creates id) (page : Nat × List String) (s : Store) :
    NoGhost s (c.exec .none page s).2 ↔ c.Grounded s := by
  constructor
  swap
  · exact fun hg id hs => unseen_exec hs (hc id) hg .none page
  intro h
  -- A job that is there afterwards was there before.
  have hbefore : ∀ id, ((c.exec .none page s).2.jobs id).isSome → (s.jobs id).isSome := by
    intro id hafter
    cases hs : s.jobs id with
    | none =>
        rw [(h id hs).cell] at hafter
        cases hafter
    | some cell => rfl
  cases c
  case addJobToQueue queue id score =>
    cases hs : s.jobs id with
    | none => exact .inr ((h id hs).queues queue (by simp [exec, single, reply, zadd]))
    | some cell => exact .inl (by rw [hs]; rfl)
  case markJobPending id lastError => exact hbefore id (present_markJobPending id lastError s)
  case updateJobNextScheduledRunTime id time => exact hbefore id (isSome_hset s id _)
  case updateJobStatus id status => exact hbefore id (isSome_hset s id _)
  case atomicRetryJob id queue score message status =>
    by_contra hnone
    have hs : s.jobs id = none := by simpa [Grounded] using hnone
    exact hnone (hbefore id (present_retry hs queue score message status))
  case atomicMoveJobToDlq id dlq message time ttl unique =>
    by_contra hnone
    have hs : s.jobs id = none := by simpa [Grounded] using hnone
    exact hnone (hbefore id (present_moveToDlq hs dlq message time ttl unique))
  case moveJobToDlq id dlq message time =>
    exact hbefore id (present_moveJobToDlq id dlq message time s)
  case saveJobResult id result ttl time =>
    have hpresent := present_saveJobResult id result ttl time s
    apply hbefore id
    simp only [exec, single]
    split <;> rename_i heq <;> rw [heq] at hpresent <;> exact hpresent
  all_goals trivial

end Rrq.Cmd
