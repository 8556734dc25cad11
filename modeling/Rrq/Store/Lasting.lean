import Rrq.Redis.Stages
import Rrq.Store.Claiming
import Rrq.Store.Outcome
import Rrq.Store.Unique

-- How long the hash of a job lives.

namespace Rrq.Store

open Script Scripts

-- The hash of the job, if there is one, carries no expiry.
def Undying (s : Store) (id : JobId) : Prop := ∀ cell, s.jobs id = some cell → cell.expireAt = none

-- No job that is queued or running expires.
def LiveLasts (s : Store) : Prop := ∀ id, s.Live id → s.Undying id

variable {s t : Store} {id other : JobId}

theorem undying_of_missing (h : s.jobs id = none) : s.Undying id := by
  intro cell hcell
  rw [h] at hcell
  cases hcell

theorem undying_congr (h : t.jobs id = s.jobs id) : t.Undying id ↔ s.Undying id := by
  unfold Undying
  rw [h]

theorem live_of_jobs (h : t.jobs id = s.jobs id) : t.Live id ↔ s.Live id :=
  live_congr (by simp only [status, hash, h])

theorem LiveLasts.of_jobs (hs : s.LiveLasts) (h : t.jobs = s.jobs) : t.LiveLasts := by
  intro id hlive
  rw [undying_congr (congrFun h id)]
  exact hs id ((live_of_jobs (congrFun h id)).mp hlive)

-- Setting fields leaves the expiry of a hash as it is, and gives a new hash none.
theorem undying_hset (fields : JobHash → JobHash) :
    (s.hset id fields).Undying other ↔ s.Undying other := by
  by_cases ho : other = id
  · subst ho
    unfold Undying hset
    cases hcell : s.jobs other with
    | none => simp
    | some cell => simp
  · exact undying_congr (sameJob_hset ho s fields).cell

theorem undying_hdel (fields : JobHash → JobHash) :
    (s.hdel id fields).Undying other ↔ s.Undying other := by
  by_cases ho : other = id
  · subst ho
    unfold Undying hdel
    cases hcell : s.jobs other with
    | none => simp [hcell]
    | some cell => simp
  · exact undying_congr (sameJob_hdel ho s fields).cell

-- The status may become live only in a hash without an expiry.
theorem LiveLasts.hset (hs : s.LiveLasts) {fields : JobHash → JobHash}
    (h : (s.hset id fields).Live id → s.Live id ∨ s.Undying id) :
    (s.hset id fields).LiveLasts := by
  intro other hlive
  rw [undying_hset]
  by_cases ho : other = id
  · subst ho
    rcases h hlive with hbefore | hundying
    · exact hs other hbefore
    · exact hundying
  · exact hs other ((live_of_jobs (sameJob_hset ho s fields).cell).mp hlive)

theorem LiveLasts.hset_same (hs : s.LiveLasts) {fields : JobHash → JobHash}
    (hf : ∀ h, (fields h).status = h.status) : (s.hset id fields).LiveLasts :=
  hs.hset fun hlive => .inl ((live_congr (status_hset_same s id fields hf)).mp hlive)

theorem LiveLasts.hset_undying (hs : s.LiveLasts) (hu : s.Undying id)
    (fields : JobHash → JobHash) : (s.hset id fields).LiveLasts := hs.hset fun _ => .inr hu

theorem not_live_hset {fields : JobHash → JobHash} {status : JobStatus} (hn : ¬ status.Live)
    (hf : ∀ h, (fields h).status = some status.asStr) : ¬ (s.hset id fields).Live id := by
  have hstatus : (s.hset id fields).status id = some status.asStr := by
    rw [status_hset, hf]
  exact mt (live_iff hstatus).mp hn

theorem LiveLasts.hset_final (hs : s.LiveLasts) {fields : JobHash → JobHash} {status : JobStatus}
    (hn : ¬ status.Live) (hf : ∀ h, (fields h).status = some status.asStr) :
    (s.hset id fields).LiveLasts := hs.hset fun hlive => absurd hlive (not_live_hset hn hf)

theorem LiveLasts.hdel (hs : s.LiveLasts) {fields : JobHash → JobHash}
    (hf : ∀ h, (fields h).status = h.status) : (s.hdel id fields).LiveLasts := by
  intro other hlive
  rw [undying_hdel]
  apply hs other
  by_cases ho : other = id
  · subst ho
    exact (live_congr (status_hdel_same s other fields hf)).mp hlive
  · exact (live_of_jobs (sameJob_hdel ho s fields).cell).mp hlive

-- An expiry is only for a job that is through.
theorem LiveLasts.expireJob (hs : s.LiveLasts) (hn : ¬ s.Live id) (seconds : Int) :
    (s.expireJob id seconds).LiveLasts := by
  intro other hlive
  by_cases ho : other = id
  · subst ho
    exact absurd ((live_congr (by
      unfold status hash Store.expireJob
      cases hcell : s.jobs other <;> simp [hcell])).mp hlive) hn
  · have hcell := (sameJob_expireJob ho s seconds).cell
    rw [undying_congr hcell]
    exact hs other ((live_of_jobs hcell).mp hlive)

theorem LiveLasts.persistJob (hs : s.LiveLasts) : (s.persistJob id).LiveLasts := by
  intro other hlive
  by_cases ho : other = id
  · subst ho
    unfold Undying Store.persistJob
    cases hcell : s.jobs other with
    | none => simp [hcell]
    | some cell => simp
  · have hcell := (sameJob_persistJob ho s).cell
    rw [undying_congr hcell]
    exact hs other ((live_of_jobs hcell).mp hlive)

-- Time takes hashes away and changes none.
theorem LiveLasts.advance (hs : s.LiveLasts) (now : Int) : (s.advance now).LiveLasts := by
  intro id hlive cell hcell
  have hbefore : s.jobs id = some cell := by
    simp only [Store.advance, Option.filter_eq_some_iff] at hcell
    exact hcell.1
  refine hs id ((live_of_jobs ?_).mp hlive) cell hbefore
  rw [hcell, hbefore]

-- Everything that is live lasts, and this job carries no expiry.
def Steadfast (id : JobId) (s : Store) : Prop := s.LiveLasts ∧ s.Undying id

theorem Steadfast.of_jobs (hs : s.Steadfast id) (h : t.jobs = s.jobs) : t.Steadfast id :=
  ⟨hs.1.of_jobs h, (undying_congr (congrFun h id)).mpr hs.2⟩

theorem Steadfast.hset (hs : s.Steadfast id) (fields : JobHash → JobHash) :
    (s.hset id fields).Steadfast id :=
  ⟨hs.1.hset_undying hs.2 fields, (undying_hset fields).mpr hs.2⟩

-- The scripts that record an outcome.

theorem keeps_steadfast_retry (queueKey : QueueKey) (score : ℚ) (errorMessage : String)
    (status : JobStatus) : Keeps (Steadfast id) (retry id queueKey score errorMessage status) := by
  refine .bind (.call fun t n after heq ht => ?_) fun n => ?_
  · obtain ⟨-, rfl⟩ := hincrby_eq_some heq
    exact ht.hset _
  · exact .bind (.write fun t ht => ht.hset _) fun _ =>
      .bind (.write fun t ht => ht.of_jobs rfl) fun _ => .pure _

theorem keeps_lasts_retry (queueKey : QueueKey) (score : ℚ) (errorMessage : String)
    {status : JobStatus} (hn : ¬ status.Live) :
    Keeps LiveLasts (retry id queueKey score errorMessage status) := by
  refine .bind (.call fun t n after heq ht => ?_) fun n => ?_
  · obtain ⟨-, rfl⟩ := hincrby_eq_some heq
    exact ht.hset_same (by intro; rfl)
  · exact .bind (.write fun t ht => ht.hset_final hn (by intro; rfl)) fun _ =>
      .bind (.write fun t ht => ht.of_jobs rfl) fun _ => .pure _

-- Everything that is live lasts, and this job is through.
def Through (id : JobId) (s : Store) : Prop := s.LiveLasts ∧ ¬ s.Live id

theorem Through.of_jobs (hs : s.Through id) (h : t.jobs = s.jobs) : t.Through id :=
  ⟨hs.1.of_jobs h, fun hl => hs.2 ((live_of_jobs (congrFun h id)).mp hl)⟩

theorem Through.expireJob (hs : s.Through id) (seconds : Int) :
    (s.expireJob id seconds).Through id := by
  refine ⟨hs.1.expireJob hs.2 seconds, fun hlive => hs.2 ((live_congr ?_).mp hlive)⟩
  unfold status hash Store.expireJob
  cases hcell : s.jobs id <;> simp [hcell]

theorem LiveLasts.through (hs : s.LiveLasts) {fields : JobHash → JobHash} {status : JobStatus}
    (hn : ¬ status.Live) (hf : ∀ h, (fields h).status = some status.asStr) :
    (s.hset id fields).Through id := ⟨hs.hset_final hn hf, not_live_hset hn hf⟩

theorem jobs_xadd (event : Event) : (s.xadd id event).jobs = s.jobs := by
  unfold xadd
  split <;> rfl

theorem jobs_expireEvents (seconds : Int) : (s.expireEvents id seconds).jobs = s.jobs := by
  unfold expireEvents
  split <;> rfl

theorem jobs_persistEvents : (s.persistEvents id).jobs = s.jobs := by
  unfold persistEvents
  split <;> rfl

-- The status is written before the expiry is.
theorem keeps_lasts_moveToDlq (dlqKey errorMessage : String) (completionTime : DateTime)
    (dlqTtl : Int) (uniqueLockKey : Option String) :
    Keeps LiveLasts (moveToDlq id dlqKey errorMessage completionTime dlqTtl uniqueLockKey) := by
  have hexpire : Keeps (Through id) (expireDlq id dlqTtl) :=
    .ite (.bind (.write fun t ht => ht.expireJob dlqTtl) fun _ =>
      .write fun t ht => ht.of_jobs (jobs_expireEvents dlqTtl)) (.pure _)
  have hunique : Keeps (Through id) (releaseUnique uniqueLockKey) := by
    cases uniqueLockKey with
    | none => exact .pure _
    | some key => exact .write fun t ht => ht.of_jobs rfl
  have hrest : ∀ n : Int, Keeps (Through id) (do
      write fun s => s.xadd id (failedEvent id)
      write fun s => s.lpush dlqKey id
      expireDlq id dlqTtl
      releaseUnique uniqueLockKey
      pure n) := fun n =>
    .bind (.write fun t ht => ht.of_jobs (jobs_xadd _)) fun _ =>
      .bind (.write fun t ht => ht.of_jobs rfl) fun _ =>
        .bind hexpire fun _ => .bind hunique fun _ => .pure n
  refine Leads.answer (Leads.pcall (Keeps.bind ?_ fun n => ?_)) _
  · refine .call fun t n after heq ht => ?_
    obtain ⟨-, rfl⟩ := hincrby_eq_some heq
    exact ht.hset_same (by intro; rfl)
  · refine Leads.write_bind (fun _ h => h) (fun t ht => ?_) (Leads.widen (hrest n) fun _ h => h.1)
    exact @LiveLasts.through t id ht _ .Failed (by decide) (by intro; rfl)

-- The requeue script. A job that it demotes was live before.

theorem keeps_lasts_demote (args : RequeueArgs) : Keeps LiveLasts (demote args) := by
  refine Leads.ask_bind (fun _ h => h) fun current => .ite (fun hactive => ?_) fun _ =>
    .ite (fun _ => .pure (fun _ h => h.1) _) fun _ => ?_
  · refine @Leads.write_bind Store Unit _ _ (Steadfast args.id) _ _ (fun _ h => h.1)
      (fun t ht => ?_) (.write (fun _ h => h.1) fun t ht => ht.1.hdel (by intro; rfl))
    have hlive : t.Live args.id := ⟨.Active, ht.2.trans hactive, by decide⟩
    exact Steadfast.hset ⟨ht.1, ht.1 args.id hlive⟩ _
  · exact .write (fun _ h => h.1) fun t ht => ht.1.hset_same (by intro; rfl)

theorem keeps_lasts_requeueJob (args : RequeueArgs) : Keeps LiveLasts (requeueJob args) := by
  have huntrack : Keeps LiveLasts (untrack args) := by
    unfold untrack
    split
    · exact .write fun t ht => ht.of_jobs rfl
    · exact .pure _
  have hrelease : Keeps LiveLasts (releaseOwned args) := by
    refine .ite (.pure _) (.bind (keeps_getLock _ _) fun owner => .ite ?_ (.pure _))
    exact .write fun t ht => ht.of_jobs rfl
  have hschedule : Keeps LiveLasts (restoreSchedule args) := by
    unfold restoreSchedule
    split
    · exact .write fun t ht => ht.hset_same (by intro; rfl)
    · exact .pure _
  refine .bind (.pcall ?_) fun _ => .pure _
  refine .bind (.ask _) fun present => .ite (.bind (keeps_lasts_demote args) fun _ => ?_) (.pure _)
  refine .bind (.ask _) fun queued => .ite ?_ ?_
  · exact .bind huntrack fun _ => .bind hrelease fun _ => .pure _
  · exact .bind (.write fun t ht => ht.of_jobs rfl) fun _ =>
      .bind huntrack fun _ => .bind hschedule fun _ => .bind hrelease fun _ => .pure _

-- The loop of a claim. What was missing stays missing, and what was held stays held.
structure Outlasts (s t : Store) : Prop where
  lasts : t.LiveLasts
  undying : ∀ id, s.Undying id → t.Undying id
  missing : ∀ id, s.jobs id = none → t.jobs id = none
  held : ∀ id, (s.locks id).isSome → (t.locks id).isSome

theorem Outlasts.of_jobs {u : Store} (h : Outlasts s t) (hj : u.jobs = t.jobs)
    (hl : ∀ id, (s.locks id).isSome → (u.locks id).isSome) : Outlasts s u where
  lasts := h.lasts.of_jobs hj
  undying id hid := (undying_congr (congrFun hj id)).mpr (h.undying id hid)
  missing id hid := (congrFun hj id).trans (h.missing id hid)
  held := hl

theorem Outlasts.hset (h : Outlasts s t) (hp : (s.jobs id).isSome) (hu : t.Undying id)
    (fields : JobHash → JobHash) : Outlasts s (t.hset id fields) where
  lasts := h.lasts.hset_undying hu fields
  undying other ho := (undying_hset fields).mpr (h.undying other ho)
  missing other ho := by
    have hne : other ≠ id := by
      rintro rfl
      rw [ho] at hp
      cases hp
    rw [(sameJob_hset hne t fields).cell, h.missing other ho]
  held other ho := by
    rw [locks_hset]
    exact h.held other ho

theorem keeps_outlasts_claimOne (args : ClaimArgs) (h : s.Claimable id → s.Undying id) :
    Keeps (Outlasts s) (claimOne args id) := by
  refine Leads.ask_bind (fun _ h => h) fun present => .ite (fun hp => ?_) fun _ => ?_
  swap
  · exact .write_bind (fun _ h => h.1) (fun t ht => ht.1.of_jobs rfl ht.1.held) (Keeps.pure _)
  refine Leads.ask_bind (fun _ h => h.1) fun seconds => ?_
  -- Whoever takes the lock takes it of a job that is free, and so without an expiry.
  refine @Leads.call_bind Store Bool Bool _ _ (fun taken t => Outlasts s t ∧
    (taken = true → s.Claimable id ∧ t.Undying id)) _ _ (fun _ h => h.1.1) ?_ fun lockOk =>
      .ite (fun hok => ?_) fun _ => .pure (fun _ h => h.1) _
  · rintro t taken after heq ⟨⟨ht, hpresent⟩, -⟩
    have hset := setLockNx_eq_some heq
    cases taken with
    | false =>
        obtain ⟨-, rfl⟩ := by simpa using hset
        exact ⟨ht, nofun⟩
    | true =>
        obtain ⟨hfree, rfl⟩ := by simpa using hset
        have hsfree : s.locks id = none := by
          by_contra hheld
          have hstill := ht.held id (Option.isSome_iff_ne_none.mpr hheld)
          rw [hfree] at hstill
          cases hstill
        have hsjob : (s.jobs id).isSome := by
          by_contra hnone
          rw [ht.missing id (by simpa using hnone), hp] at hpresent
          cases hpresent
        refine ⟨ht.of_jobs rfl fun other ho => ?_, fun _ => ⟨⟨hsjob, hsfree⟩, ?_⟩⟩
        · by_cases he : other = id
          · subst he
            simp
          · simpa [he] using ht.held other ho
        · exact ht.undying id (h ⟨hsjob, hsfree⟩)
  · refine @Leads.call_bind Store Bool Bool _ _ (fun _ t => Outlasts s t ∧
      s.Claimable id ∧ t.Undying id) _ _ (fun _ h => h.1) ?_ fun removed =>
        .ite (fun _ => ?_) fun _ => ?_
    · rintro t removed after heq ⟨ht, htaken⟩
      obtain ⟨-, rfl⟩ := Prod.mk.injEq .. ▸ Option.some.inj heq
      exact ⟨ht.of_jobs rfl ht.held, htaken hok⟩
    · exact .write_bind (fun _ h => h.1) (fun t ht => ht.1.hset ht.2.1.1 ht.2.2 _) (Keeps.bind
        (.write fun t ht => ht.of_jobs rfl ht.held) fun _ => .pure _)
    · refine .write_bind (fun _ h => h.1) (fun t ht => ht.1.of_jobs rfl fun other ho => ?_)
        (Keeps.pure _)
      have hne : other ≠ id := by
        rintro rfl
        rw [ht.2.1.2] at ho
        cases ho
      simpa [delLock, hne] using ht.1.held other ho

theorem lasts_claimReady {args : ClaimArgs} (h : ∀ id ∈ window args s, s.Claimable id → s.Undying id)
    (hs : s.LiveLasts) (budget : Budget) : ((claimReady args).run budget s).2.LiveLasts := by
  have hstart : Outlasts s s := ⟨hs, fun _ hu => hu, fun _ hm => hm, fun _ hl => hl⟩
  have hscript : (claimReady args budget s).2.LiveLasts := by
    unfold claimReady
    split
    · exact hs
    · split
      · exact hs
      · apply Outlasts.lasts (s := s)
        have heach : ∀ id ∈ window args s, Keeps (Outlasts s) (claimOne args id) :=
          fun id hid => keeps_outlasts_claimOne args (h id hid)
        exact keeps_ask_bind hstart (keeps_claimEach heach []) budget
  unfold Script.run
  split <;> rename_i heq <;> simpa [heq] using hscript

-- The scripts that create a job look first whether it is there.

theorem keeps_lasts_enqueue (queueKey : QueueKey) (mapping : JobHash) (score : ℚ) :
    Keeps LiveLasts (Scripts.enqueue id queueKey mapping score) := by
  refine Leads.ask_bind (fun _ h => h) fun present => .ite (fun _ => .pure (fun _ h => h.1) _)
    fun habsent => ?_
  refine .write_bind (fun _ h => h.1) (fun t ht => ?_) (Keeps.bind
    (.write fun t (ht : t.LiveLasts) => ht.of_jobs rfl) fun _ => .pure _)
  refine ht.1.hset_undying (undying_of_missing ?_) _
  have hnone := ht.2.trans (Bool.not_eq_true _ ▸ habsent)
  simpa using hnone

section Producer

open Producer

variable {args : JobArgs}

theorem keeps_steadfast_create : Keeps (Steadfast args.id) (create args) :=
  .bind (.write fun _ ht => ht.hset _) fun _ =>
    .bind (.write fun _ ht => ht.of_jobs rfl) fun _ => .pure _

theorem keeps_steadfast_createWithKey (idemKey : String) (ttlSeconds : Int) :
    Keeps (Steadfast args.id) (createWithKey args idemKey ttlSeconds) :=
  keeps_createWithKey (fun _ _ _ ht => ht.of_jobs rfl) keeps_steadfast_create idemKey ttlSeconds

-- Where the job is missing, it carries no expiry.
theorem leads_absent {α : Type} {script : Script Store α} (present : Bool)
    (hp : ¬ present = true) (hs : Keeps (Steadfast args.id) script) :
    Leads (fun t => t.LiveLasts ∧ (t.jobs args.id).isSome = present) LiveLasts script := by
  refine (hs.leads fun t ht => ⟨ht.1, undying_of_missing ?_⟩).widen fun t ht => ht.1
  have hnone := ht.2.trans (Bool.not_eq_true _ ▸ hp)
  simpa using hnone

theorem keeps_lasts_enqueueScript (idempotencyKey : Option String) (ttlSeconds : Int) :
    Keeps LiveLasts (enqueueScript args idempotencyKey ttlSeconds) := by
  refine .bind (keeps_findKeyed (fun _ _ _ ht => ht.of_jobs rfl) _) fun existing => ?_
  cases existing with
  | some existing => exact .pure _
  | none =>
      refine Leads.ask_bind (fun _ h => h) fun present =>
        .ite (fun _ => .pure (fun _ h => h.1) _) fun hp => leads_absent present hp ?_
      cases idempotencyKey with
      | none => exact keeps_steadfast_create
      | some idemKey => exact keeps_steadfast_createWithKey idemKey ttlSeconds

theorem keeps_lasts_rateLimitScript (rateKey : String) (ttlSeconds : Int) :
    Keeps LiveLasts (rateLimitScript args rateKey ttlSeconds) := by
  refine .ite (.pure _) ?_
  refine .bind (keeps_setKeyNx (fun t _ ht => ht.of_jobs rfl) _ _) fun ok => .ite ?_ (.pure _)
  refine Leads.ask_bind (fun _ h => h) fun present => .ite (fun _ => ?_)
    fun hp => leads_absent present hp keeps_steadfast_create
  exact .write_bind (fun _ h => h.1) (fun t ht => ht.1.of_jobs rfl) (Keeps.pure _)

theorem keeps_lasts_createDebounced (debounceKey : String) (ttlSeconds : Int) :
    Keeps LiveLasts (createDebounced args debounceKey ttlSeconds) := by
  refine Leads.ask_bind (fun _ h => h) fun present => .ite (fun _ => .pure (fun _ h => h.1) _)
    fun hp => leads_absent present hp ?_
  refine .bind (keeps_setKeyNx (fun t _ ht => ht.of_jobs rfl) _ _) fun ok =>
    .ite keeps_steadfast_create (.bind (.ask _) fun other => ?_)
  cases other with
  | none => exact .pure _
  | some other => exact .pure _

-- A debounce keeps the status of the job that it writes over.
theorem keeps_lasts_reschedule (existing : JobId) (debounceKey : String) (ttlSeconds : Int) :
    Keeps LiveLasts (reschedule args existing debounceKey ttlSeconds) :=
  keeps_reschedule (fun _ _ _ ht => ht.of_jobs rfl) (fun _ ht => ht.hset_same (by intro; rfl))
    (fun _ ht => ht.of_jobs rfl) debounceKey ttlSeconds

theorem keeps_lasts_debounceScript (debounceKey : String) (ttlSeconds : Int) :
    Keeps LiveLasts (debounceScript args debounceKey ttlSeconds) :=
  keeps_debounceScript (fun _ _ _ ht => ht.of_jobs rfl)
    (keeps_lasts_createDebounced debounceKey ttlSeconds)
    fun existing => keeps_lasts_reschedule existing debounceKey ttlSeconds

end Producer

end Rrq.Store

namespace Rrq.Cmd

open Store

-- The command gives a live status to a job whose hash carries an expiry.
def Revives (s : Store) : Cmd → Prop
  | atomicClaimReadyJobs args => ∃ id ∈ window args s, s.Claimable id ∧ ¬ s.Undying id
  | markJobPending id _ => ¬ s.Undying id
  | updateJobStatus id status => status.Live ∧ ¬ s.Undying id
  | atomicRetryJob id _ _ _ status => status.Live ∧ ¬ s.Undying id
  | _ => False

variable {c : Cmd} {s : Store}

theorem lasts_aside (hs : s.LiveLasts) (hk : ∀ kind ∈ c.kinds, kind ≠ .hash ∧ kind ≠ .definition)
    (fault : Fault) (page : Nat × List String) : (c.exec fault page s).2.LiveLasts :=
  hs.of_jobs (frame_exec frame_sameJobs hk (fun _ _ => trivial) fault page s)

theorem keeps_script_run {α β : Type} {holds : Store → Prop} (fault : Fault) {error : RedisError}
    {body : Script Store α} {answer : α → β} (hs : holds s)
    (h : ∀ budget, holds (body.run budget s).2) : holds (script fault s error body answer).2 := by
  unfold script
  split
  · exact hs
  · exact h none
  · exact h _

-- A command that revives nothing leaves no live job that expires.
theorem lasts_exec (hs : s.LiveLasts) (h : ¬ c.Revives s) (fault : Fault)
    (page : Nat × List String) : (c.exec fault page s).2.LiveLasts := by
  cases c
  case atomicEnqueueJob id queue mapping score =>
    exact keeps_script fault _ _ (keeps_lasts_enqueue queue mapping score) hs
  case atomicClaimReadyJobs args =>
    have hwindow : ∀ id ∈ window args s, s.Claimable id → s.Undying id := fun id hid hc =>
      not_not.mp fun hu => h ⟨id, hid, hc, hu⟩
    exact keeps_script_run fault hs fun budget => lasts_claimReady hwindow hs budget
  case markJobPending id lastError =>
    have hset := hs.hset_undying (not_not.mp h) fun h => { h with
      status := some JobStatus.Pending.asStr
      lastError := lastError.or h.lastError }
    exact keeps_single fault hs (hset.hdel (by intro; rfl))
  case updateJobNextScheduledRunTime id time =>
    exact keeps_single fault hs (hs.hset_same (by intro; rfl))
  case updateJobStatus id status =>
    refine keeps_single fault hs ?_
    by_cases hl : status.Live
    · exact hs.hset_undying (not_not.mp fun hu => h ⟨hl, hu⟩) _
    · exact hs.hset_final hl (by intro; rfl)
  case atomicRetryJob id queue score message status =>
    by_cases hl : status.Live
    · have hstart : Steadfast id s := ⟨hs, not_not.mp fun hu => h ⟨hl, hu⟩⟩
      exact (keeps_script fault _ _ (keeps_steadfast_retry queue score message status) hstart).1
    · exact keeps_script fault _ _ (keeps_lasts_retry queue score message hl) hs
  case atomicMoveJobToDlq id dlq message time ttl unique =>
    exact keeps_script fault _ _ (keeps_lasts_moveToDlq dlq message time ttl unique) hs
  case moveJobToDlq id dlq message time =>
    have hset := @LiveLasts.through s id hs (fun h => { h with
      status := some JobStatus.Failed.asStr
      lastError := some message
      completionTime := some (.val time) }) .Failed (by decide) (by intro; rfl)
    have hlisted : Through id ((((s.hset id fun h => { h with
        status := some JobStatus.Failed.asStr
        lastError := some message
        completionTime := some (.val time) }).xadd id (Scripts.failedEvent id)).lpush dlq id)) :=
      hset.of_jobs (jobs_xadd _)
    exact keeps_single fault hs
      (((hlisted.expireJob _).1).of_jobs (jobs_expireEvents _))
  case atomicRequeueJob args => exact keeps_script fault _ _ (keeps_lasts_requeueJob args) hs
  case saveJobResult id result ttl time =>
    have hrecord : Through id (Pipelines.recordResult id result time s) :=
      (@LiveLasts.through s id hs _ .Completed (by decide) (by intro; rfl)).of_jobs (jobs_xadd _)
    have hsaved : (Pipelines.saveJobResult id result ttl time s).2.LiveLasts := by
      unfold Pipelines.saveJobResult
      dsimp only
      split_ifs
      · exact (hrecord.expireJob _).1.of_jobs (jobs_expireEvents _)
      · exact hrecord.1
      · exact hrecord.1.persistJob.of_jobs jobs_persistEvents
      · exact hrecord.1
    refine keeps_single fault hs ?_
    split <;> rename_i heq <;> rw [heq] at hsaved <;> exact hsaved
  case producerEnqueue args key ttl =>
    exact keeps_script fault _ _ (keeps_lasts_enqueueScript key ttl) hs
  case producerRateLimit args key ttl =>
    exact keeps_script fault _ _ (keeps_lasts_rateLimitScript key ttl) hs
  case producerDebounce args key ttl =>
    exact keeps_script fault _ _ (keeps_lasts_debounceScript key ttl) hs
  all_goals exact lasts_aside hs (by simp [kinds]) fault page

end Rrq.Cmd
