import Rrq.Worker.Poll.Rules

-- A poll accounts for every job that it claims.

namespace Rrq.RRQWorker

open Store PollSafe

variable {self : RRQWorker} {pid : Pid} {w : World} {id : JobId} {queue : QueueKey}

theorem lockOwnedByOther_safe (attempts : Nat) (hid : w.history.claimedFrom id = some queue)
    (hs : w.store.Secured self.workerId id) :
    PollSafe pid self.workerId (Guarded self.workerId id w fun answer s =>
        answer = some true → s.LockedByOther self.workerId id)
      (lockOwnedByOther self id attempts) w := by
  induction attempts generalizing w with
  | zero => exact .ret ⟨.refl _ _ w, hs, fun hl => hl, nofun⟩
  | succ attempts ih =>
      refine gentle trivial (fun _ => False.elim) hid hs ?_
      intro b fault page answer _ w' hexec hk
      cases answer with
      | error error =>
          have hid' : w'.history.claimedFrom id = some queue := by rw [hk.follows.claimed, hid]
          exact mono (ih hid' hk.secured) fun _ _ => hk.from
      | ok owner =>
          refine .ret ⟨hk.follows, hk.secured, hk.lost, fun hother => ?_⟩
          obtain ⟨name, rfl, hne⟩ : ∃ name, owner = some name ∧ name ≠ self.workerId := by
            cases owner with
            | none => simp at hother
            | some name => exact ⟨name, rfl, by simpa using hother⟩
          obtain ⟨hsame, howner⟩ := Cmd.getJobLockOwner_inv hexec
          exact ⟨name, hne, hsame ▸ howner _ rfl⟩

theorem addUnlessQueued_safe (queueName : QueueKey)
    (hid : w.history.claimedFrom id = some (normalizeQueueName queueName))
    (hs : w.store.Secured self.workerId id) :
    PollSafe pid self.workerId (Guarded self.workerId id w fun done s =>
        done = true → s.Released self.workerId (normalizeQueueName queueName) id)
      (addUnlessQueued queueName id) w := by
  refine gentle trivial (fun _ => False.elim) hid hs ?_
  intro b fault page answer _ w' hexec hk
  cases answer with
  | error error => exact .ret ⟨hk.follows, hk.secured, hk.lost, nofun⟩
  | ok queued =>
  cases queued with
  | true =>
      obtain ⟨hsame, hqueued⟩ := Cmd.isJobQueued_inv hexec
      have hmem := (hqueued true rfl).mp rfl
      exact .ret ⟨hk.follows, hk.secured, hk.lost, fun _ => .inl (hsame ▸ hmem)⟩
  | false =>
      refine still (fun _ _ => ⟨rfl, rfl⟩) fun _ _ now w'' _ hm _ => ?_
      have hk' : Guarded self.workerId id w (fun _ _ => True) now w'' :=
        ⟨hk.follows.trans hm.follows, hk.secured.meddled (hm.jobs id),
          fun hl => (hm.jobs id).lockedByOther (hk.lost hl), trivial⟩
      refine gentle trivial (fun _ ho => ho) (by rw [hk'.follows.claimed, hid]) hk'.secured ?_
      intro b' fault page answer _ w₃ hexec hk₃
      cases answer with
      | error error => exact .ret (hk'.from ⟨hk₃.follows, hk₃.secured, hk₃.lost, nofun⟩)
      | ok _ =>
          refine .ret (hk'.from ⟨hk₃.follows, hk₃.secured, hk₃.lost, fun _ => .inl ?_⟩)
          simp only [Cmd.exec] at hexec
          have hstore : w₃.store = b'.store.zadd (normalizeQueueName queueName) id
              now.timestampMillis := (congrArg Prod.snd (Cmd.single_ok hexec)).symm
          rw [hstore]
          simp [zadd]

theorem requeueClaimedJobWithoutDefinition_safe (queueName : QueueKey)
    (pendingError : Option String)
    (hid : w.history.claimedFrom id = some (normalizeQueueName queueName))
    (hs : w.store.Secured self.workerId id) :
    PollSafe pid self.workerId (Guarded self.workerId id w fun done s =>
        done = true → s.Released self.workerId (normalizeQueueName queueName) id)
      (requeueClaimedJobWithoutDefinition queueName id pendingError) w := by
  refine gentle trivial (fun _ ho => ho) hid hs ?_
  intro b fault page answer _ w' _ hk
  cases answer with
  | error error => exact .ret ⟨hk.follows, hk.secured, hk.lost, nofun⟩
  | ok _ =>
      have hid' : w'.history.claimedFrom id = some (normalizeQueueName queueName) := by
        rw [hk.follows.claimed, hid]
      exact mono (addUnlessQueued_safe queueName hid' hk.secured) fun _ _ => hk.from

-- The definition of a claimed job says what the claim has written, or the job is lost.
def Ours (me : WorkerId) (id : JobId) (job : Job) (s : Store) : Prop :=
  (job.status = .Active ∧ job.workerId = some me) ∨ s.LockedByOther me id

theorem requeueClaimedJobIfNeeded_safe (queueName : QueueKey) (job : Job)
    (pendingError : Option String)
    (hid : w.history.claimedFrom id = some (normalizeQueueName queueName))
    (hs : w.store.Secured self.workerId id) (hours : Ours self.workerId id job w.store) :
    PollSafe pid self.workerId (Guarded self.workerId id w fun done s =>
        done = true → s.Released self.workerId (normalizeQueueName queueName) id)
      (requeueClaimedJobIfNeeded queueName id job pendingError) w := by
  unfold requeueClaimedJobIfNeeded
  split_ifs with hlive hactive
  · exact requeueClaimedJobWithoutDefinition_safe queueName pendingError hid hs
  · exact addUnlessQueued_safe queueName hid hs
  · refine .ret ⟨.refl _ _ w, hs, fun hl => hl, fun _ => ?_⟩
    rcases hours with ⟨hactive, -⟩ | hother
    · exact absurd (.inl hactive) hlive
    · exact .inr (.inr (.inr hother))

theorem released_of_tracking {me : WorkerId} {s t : Store} (hr : s.Released me queue id)
    (hq : t.queues = s.queues) (hj : t.jobs = s.jobs)
    (hl : s.LockedByOther me id → t.LockedByOther me id) : t.Released me queue id := by
  refine hr.imp (fun h => hq ▸ h) (.imp (fun h => ?_) (.imp (fun h => ?_) hl))
  · obtain ⟨status, hs, hlive⟩ := h
    exact ⟨status, by simpa [Store.status, Store.hash, hj] using hs, hlive⟩
  · simpa [Store.hash, hj] using h

-- Dropping the record of a job that has been given back or taken over.
theorem cleanupClaimedJobState_safe (hid : w.history.claimedFrom id = some queue)
    (hr : w.store.Released self.workerId queue id) :
    PollSafe pid self.workerId (fun _ w' => Follows self.workerId (· = id) w w')
      (cleanupClaimedJobState self id) w := by
  unfold cleanupClaimedJobState
  refine own trivial (fun _ ho => ho) hid ?_
  intro b fault page answer store hm hb _ hexec
  have hrb := hr.meddled (hm.jobs id)
  have hr' : store.Released self.workerId queue id := by
    obtain ⟨rfl, -⟩ := Cmd.removeActiveJob_inv hexec
    split <;> exact released_of_tracking hrb rfl rfl fun hl => hl
  refine ⟨.inr hr', fun w' hw hf => ?_⟩
  refine own trivial (fun _ ho => ho) (by rw [hf.claimed, hid]) ?_
  intro b' fault' page' answer' store' hm' hb' hwhole hexec'
  have hrb' : b'.store.Released self.workerId queue id := by
    rw [← hw] at hr'
    exact hr'.meddled (hm'.jobs id)
  have hsame := Cmd.releaseJobLockIfOwner_inv hexec'
  have hother : b'.store.LockedByOther self.workerId id → store'.LockedByOther self.workerId id := by
    rintro ⟨other, hne, hlock⟩
    refine ⟨other, hne, ?_⟩
    have hkeep : store' = b'.store := by
      have hrun : ((Scripts.releaseLockIfOwner id self.workerId).run none b'.store).2 = b'.store :=
        run_releaseLockIfOwner (by simp [hlock, hne])
      have hstore := congrArg Prod.snd hexec'
      rcases hwhole with rfl | rfl
      · exact hstore.symm.trans hrun
      · exact hstore.symm
    rwa [hkeep]
  refine ⟨.inr (released_of_tracking hrb' hsame.queues hsame.jobs hother), fun w'' hw'' hf' => ?_⟩
  cases answer' with
  | ok _ => exact .ret (hf.trans hf')
  | error error =>
  cases error with
  | failed => exact .ret (hf.trans hf')
  | wrongType =>
      -- a lock that we have claimed is never a key of another type
      exfalso
      have hwell := hb'.wellLocked id queue (by rw [hm'.history, hf.claimed, hid])
      rcases hwhole with rfl | rfl
      · have hanswer := congrArg Prod.fst hexec'
        simp only [Cmd.exec, Cmd.script, Cmd.lockError, if_neg hwell] at hanswer
        generalize ((Scripts.releaseLockIfOwner id self.workerId).run none b'.store).1 = result
          at hanswer
        cases result <;> cases hanswer
      · cases hexec'

-- Once the claim can be dropped, it is.
theorem cleanup_of_guarded {α : Type} {fact : α → Store → Prop} {value : α} {w' : World}
    (hid : w.history.claimedFrom id = some queue) (hk : Guarded self.workerId id w fact value w')
    (hr : w'.store.Released self.workerId queue id) :
    PollSafe pid self.workerId (fun _ w'' => Follows self.workerId (· = id) w w'')
      (cleanupClaimedJobState self id) w' :=
  mono (cleanupClaimedJobState_safe (by rw [hk.follows.claimed, hid]) hr) fun _ _ h =>
    hk.follows.trans h

theorem releaseClaimedJob_safe (queueName : QueueKey) (job : Job) (pendingError : Option String)
    (hid : w.history.claimedFrom id = some (normalizeQueueName queueName))
    (hs : w.store.Secured self.workerId id) (hours : Ours self.workerId id job w.store) :
    PollSafe pid self.workerId (fun _ w' => Follows self.workerId (· = id) w w')
      (releaseClaimedJob self queueName id job pendingError) w := by
  refine .bind (lockOwnedByOther_safe 2 hid hs) fun answer w' hk => ?_
  have hid' : w'.history.claimedFrom id = some (normalizeQueueName queueName) := by
    rw [hk.follows.claimed, hid]
  have hours' : Ours self.workerId id job w'.store := hours.imp_right hk.lost
  dsimp only
  split_ifs with hrequeue
  · refine .bind (requeueClaimedJobIfNeeded_safe queueName job pendingError hid' hk.secured hours') ?_
    intro done w'' hk'
    cases done with
    | false => exact .ret (hk.follows.trans hk'.follows)
    | true =>
        exact cleanup_of_guarded hid (hk.from hk') (hk'.fact rfl)
  · refine cleanup_of_guarded hid hk (.inr (.inr (.inr ?_)))
    -- the lock is known to be taken, or the definition names another worker
    by_cases hanswer : answer = some true
    · exact hk.fact hanswer
    · rcases hours' with ⟨-, hworker⟩ | hlost
      · exact absurd ⟨hanswer, hworker⟩ hrequeue
      · exact hlost

theorem ended_moveJobToDlq (s : Store) (id : JobId) (dlqKey message : String) (time : DateTime) :
    (Pipelines.moveJobToDlq id dlqKey message time s).Ended id := by
  refine ⟨.Failed, ?_, by decide⟩
  have hevents : ∀ (a : Store) (seconds : Int),
      (a.expireEvents id seconds).status id = a.status id := fun a seconds =>
    (sameStatus_expireEvents a id seconds).status
  have hxadd : ∀ (a : Store) (event : Event), (a.xadd id event).status id = a.status id :=
    fun a event => (sameStatus_xadd a id event).status
  simp only [Pipelines.moveJobToDlq]
  rw [hevents, (sameStatus_expireJob _ id _).status, status_lpush, hxadd, status_hset]

theorem quarantineHash_safe (queueName : QueueKey) (errorMessage : String) (jobMap : JobHash)
    (hid : w.history.claimedFrom id = some (normalizeQueueName queueName))
    (hs : w.store.Secured self.workerId id) :
    PollSafe pid self.workerId (Guarded self.workerId id w fun done s =>
        done = true → s.Released self.workerId (normalizeQueueName queueName) id)
      (quarantineHash self queueName id errorMessage jobMap) w := by
  refine still (fun _ _ => ⟨rfl, rfl⟩) fun _ _ now w' _ hm _ => ?_
  have hk : Guarded self.workerId id w (fun _ _ => True) now w' :=
    ⟨hm.follows, hs.meddled (hm.jobs id), (hm.jobs id).lockedByOther, trivial⟩
  have hid' : w'.history.claimedFrom id = some (normalizeQueueName queueName) := by
    rw [hk.follows.claimed, hid]
  refine gentle trivial (fun _ ho => ho) hid' hk.secured ?_
  intro b fault page answer _ w₂ hexec hk₂
  have hid₂ : w₂.history.claimedFrom id = some (normalizeQueueName queueName) := by
    rw [hk₂.follows.claimed, hid']
  cases answer with
  | error error =>
      refine mono (requeueClaimedJobWithoutDefinition_safe queueName _ hid₂ hk₂.secured) ?_
      exact fun _ _ h => hk.from (hk₂.from h)
  | ok _ =>
  have hended : w₂.store.Released self.workerId (normalizeQueueName queueName) id := by
    simp only [Cmd.exec] at hexec
    have hstore := congrArg Prod.snd (Cmd.single_ok hexec)
    simp only [Cmd.reply] at hstore
    rw [← hstore]
    exact .inr (.inl (ended_moveJobToDlq _ _ _ _ _))
  have hdone : Guarded self.workerId id w (fun done s =>
      done = true → s.Released self.workerId (normalizeQueueName queueName) id) true w₂ :=
    hk.from (hk₂.from ⟨.refl _ _ w₂, hk₂.secured, fun hl => hl, fun _ => hended⟩)
  cases jobMap.jobUniqueKey.filter (· ≠ "") with
  | none => exact .ret hdone
  | some key =>
      refine gentle trivial (fun _ => False.elim) hid₂ hk₂.secured ?_
      intro b' fault page answer hm' w₃ hexec hk₃
      refine .ret (hdone.from ⟨hk₃.follows, hk₃.secured, hk₃.lost, fun _ => ?_⟩)
      have hb := hended.meddled (hm'.jobs id)
      have hstore : w₃.store = b'.store ∨ w₃.store = b'.store.setUniqueLock key none := by
        simp only [Cmd.exec, Cmd.reply] at hexec
        cases fault with
        | none => exact .inr (congrArg Prod.snd hexec).symm
        | _ => exact .inl (congrArg Prod.snd hexec).symm
      rcases hstore with hstore | hstore <;> rw [hstore]
      · exact hb
      · exact released_of_tracking hb rfl rfl fun hl => hl

theorem quarantineOwned_safe (queueName : QueueKey) (errorMessage : String)
    (hid : w.history.claimedFrom id = some (normalizeQueueName queueName))
    (hs : w.store.Secured self.workerId id) :
    PollSafe pid self.workerId (Guarded self.workerId id w fun done s =>
        done = true → s.Released self.workerId (normalizeQueueName queueName) id)
      (quarantineOwned self queueName id errorMessage) w := by
  refine gentle trivial (fun _ ho => ho) hid hs ?_
  intro b fault page _ _ w' _ hk
  have hid' : w'.history.claimedFrom id = some (normalizeQueueName queueName) := by
    rw [hk.follows.claimed, hid]
  refine gentle trivial (fun _ => False.elim) hid' hk.secured ?_
  intro b' fault page answer _ w₂ hexec hk₂
  have hid₂ : w₂.history.claimedFrom id = some (normalizeQueueName queueName) := by
    rw [hk₂.follows.claimed, hid']
  cases answer with
  | error error =>
      refine mono (requeueClaimedJobWithoutDefinition_safe queueName _ hid₂ hk₂.secured) ?_
      exact fun _ _ h => hk.from (hk₂.from h)
  | ok found =>
  cases found with
  | none =>
      refine .ret (hk.from ⟨hk₂.follows, hk₂.secured, hk₂.lost, fun _ => .inr (.inr (.inl ?_))⟩)
      obtain ⟨hsame, hanswer⟩ := Cmd.getJobDataMap_inv hexec
      rw [hsame]
      split at hanswer
      · exact (Except.ok.inj hanswer).symm
      · cases hanswer
  | some jobMap =>
      refine mono (quarantineHash_safe queueName errorMessage jobMap hid₂ hk₂.secured) ?_
      exact fun _ _ h => hk.from (hk₂.from h)

theorem quarantineClaimedJobWithoutDefinition_safe (queueName : QueueKey) (errorMessage : String)
    (hid : w.history.claimedFrom id = some (normalizeQueueName queueName))
    (hs : w.store.Secured self.workerId id) :
    PollSafe pid self.workerId (fun _ w' => Follows self.workerId (· = id) w w')
      (quarantineClaimedJobWithoutDefinition self queueName id errorMessage) w := by
  refine .bind (lockOwnedByOther_safe 2 hid hs) fun answer w' hk => ?_
  have hid' : w'.history.claimedFrom id = some (normalizeQueueName queueName) := by
    rw [hk.follows.claimed, hid]
  match answer, hk with
  | none, hk => exact .ret hk.follows
  | some true, hk => exact cleanup_of_guarded hid hk (.inr (.inr (.inr (hk.fact rfl))))
  | some false, hk =>
      refine .bind (quarantineOwned_safe queueName errorMessage hid' hk.secured) fun done w'' hk' => ?_
      cases done with
      | false => exact .ret (hk.follows.trans hk'.follows)
      | true => exact cleanup_of_guarded hid (hk.from hk') (hk'.fact rfl)

theorem releaseClaimedJobWithoutDefinition_safe (queueName : QueueKey)
    (pendingError : Option String)
    (hid : w.history.claimedFrom id = some (normalizeQueueName queueName))
    (hs : w.store.Secured self.workerId id) :
    PollSafe pid self.workerId (fun _ w' => Follows self.workerId (· = id) w w')
      (releaseClaimedJobWithoutDefinition self queueName id pendingError) w := by
  refine .bind (lockOwnedByOther_safe 2 hid hs) fun answer w' hk => ?_
  have hid' : w'.history.claimedFrom id = some (normalizeQueueName queueName) := by
    rw [hk.follows.claimed, hid]
  match answer, hk with
  | none, hk => exact .ret hk.follows
  | some true, hk => exact cleanup_of_guarded hid hk (.inr (.inr (.inr (hk.fact rfl))))
  | some false, hk =>
      refine .bind (requeueClaimedJobWithoutDefinition_safe queueName pendingError hid' hk.secured)
        fun done w'' hk' => ?_
      cases done with
      | false => exact .ret (hk.follows.trans hk'.follows)
      | true => exact cleanup_of_guarded hid (hk.from hk') (hk'.fact rfl)

-- A job of a claimed batch that has not been looked at.
structure Ready (me : WorkerId) (queue : QueueKey) (entry : JobId × Option Job) (w : World) :
    Prop where
  claimed : w.history.claimedFrom entry.1 = some queue
  secured : w.store.Secured me entry.1
  job : ∀ job, entry.2 = some job → job.id = entry.1 ∧ Ours me entry.1 job w.store

section Batch

variable {queueName : QueueKey} {entry : JobId × Option Job} {batch : List (JobId × Option Job)}
  {w' : World}

theorem Ready.later {me : WorkerId} (h : Ready me queue entry w)
    (hc : w'.history.claimedFrom = w.history.claimedFrom)
    (hm : Meddled me entry.1 w.store w'.store) : Ready me queue entry w' where
  claimed := hc ▸ h.claimed
  secured := h.secured.meddled hm
  job job hjob := ⟨(h.job job hjob).1, (h.job job hjob).2.imp_right hm.lockedByOther⟩

theorem ready_rest {me : WorkerId} (hnodup : ((entry :: batch).map Prod.fst).Nodup)
    (hready : ∀ other ∈ entry :: batch, Ready me queue other w)
    (hf : Follows me (· = entry.1) w w') : ∀ other ∈ batch, Ready me queue other w' := by
  intro other ho
  have hne : other.1 ≠ entry.1 := fun he =>
    (List.nodup_cons.mp hnodup).1 (he ▸ List.mem_map_of_mem ho)
  exact (hready other (List.mem_cons_of_mem _ ho)).later hf.claimed (hf.jobs _ hne)

theorem releaseBatchJob_safe (pendingError : Option String)
    (hready : Ready self.workerId (normalizeQueueName queueName) entry w) :
    PollSafe pid self.workerId (fun _ w' => Follows self.workerId (· = entry.1) w w')
      (releaseBatchJob self queueName pendingError entry) w := by
  obtain ⟨id, jobOpt⟩ := entry
  cases jobOpt with
  | none => exact quarantineClaimedJobWithoutDefinition_safe queueName _ hready.claimed hready.secured
  | some job =>
      exact releaseClaimedJob_safe queueName job pendingError hready.claimed hready.secured
        (hready.job job rfl).2

theorem releaseRemainingClaimedJobs_safe (pendingError : Option String)
    (hnodup : (batch.map Prod.fst).Nodup)
    (hready : ∀ entry ∈ batch, Ready self.workerId (normalizeQueueName queueName) entry w) :
    PollSafe pid self.workerId (fun _ w' => Follows self.workerId (fun _ => True) w w')
      (releaseRemainingClaimedJobs self queueName pendingError batch) w := by
  induction batch generalizing w with
  | nil => exact .ret (.refl _ _ w)
  | cons entry batch ih =>
      refine .bind (releaseBatchJob_safe pendingError (hready entry List.mem_cons_self)) ?_
      intro _ w' hf
      have hrest := ready_rest hnodup hready hf
      exact mono (ih (List.nodup_cons.mp hnodup).2 hrest) fun _ _ h => hf.all.trans h

theorem releaseClaimedJobsFromIndex_safe (pendingError : Option String)
    (hnodup : (batch.map Prod.fst).Nodup)
    (hready : ∀ entry ∈ batch, Ready self.workerId (normalizeQueueName queueName) entry w) :
    PollSafe pid self.workerId (fun _ w' => Follows self.workerId (fun _ => True) w w')
      (releaseClaimedJobsFromIndex self queueName pendingError batch) w := by
  cases batch with
  | nil => exact .ret (.refl _ _ w)
  | cons entry batch =>
      refine .bind (releaseBatchJob_safe pendingError (hready entry List.mem_cons_self)) ?_
      intro _ w' hf
      have hrest := ready_rest hnodup hready hf
      exact mono (releaseRemainingClaimedJobs_safe pendingError (List.nodup_cons.mp hnodup).2 hrest)
        fun _ _ h => hf.all.trans h

theorem releaseRemainingClaimedJobsWithoutDefinitions_safe {ids : List JobId} (hnodup : ids.Nodup)
    (hready : ∀ id ∈ ids, Ready self.workerId (normalizeQueueName queueName) (id, none) w) :
    PollSafe pid self.workerId (fun _ w' => Follows self.workerId (fun _ => True) w w')
      (releaseRemainingClaimedJobsWithoutDefinitions self queueName ids) w := by
  induction ids generalizing w with
  | nil => exact .ret (.refl _ _ w)
  | cons id ids ih =>
      have hfirst := hready id List.mem_cons_self
      refine .bind (releaseClaimedJobWithoutDefinition_safe queueName _ hfirst.claimed
        hfirst.secured) fun _ w' hf => ?_
      obtain ⟨hnew, hnodup'⟩ := List.nodup_cons.mp hnodup
      refine mono (ih hnodup' fun other ho => ?_) fun _ _ h => hf.all.trans h
      have hne : other ≠ id := fun he => hnew (he ▸ ho)
      exact (hready other (List.mem_cons_of_mem _ ho)).later hf.claimed (hf.jobs _ hne)

theorem ours_of_fresh {me : WorkerId} {s : Store} {raw : JobHash} {n : Int} {job : Job}
    (hf : s.Fresh me id) (hraw : s.hash id = some raw) (hjob : parseJobMap raw id n = .ok job) :
    Ours me id job s := by
  obtain ⟨hstatus, -, -, -, -, -, hworker⟩ := parseJobMap_ok hjob
  refine hf.imp_left fun ⟨h, heq, hactive, hours⟩ => ?_
  obtain rfl := Option.some.inj (hraw.symm.trans heq)
  rw [hstatus, Option.some.injEq] at hactive
  exact ⟨asStr_injective hactive, hworker.trans hours⟩

-- Reading the definitions of a claimed batch.
theorem getJobDefinitions_safe (defaultMaxRetries : Int) (ids : List JobId)
    (hready : ∀ id ∈ ids, Ready self.workerId queue (id, none) w)
    (hfresh : ∀ id ∈ ids, w.store.Fresh self.workerId id) :
    PollSafe pid self.workerId (fun answer w' => Follows self.workerId (fun _ => False) w w' ∧
        ∀ batch, answer = .ok batch → batch.map Prod.fst = ids ∧
          ∀ entry ∈ batch, Ready self.workerId queue entry w')
      (JobStore.getJobDefinitions defaultMaxRetries ids) w := by
  induction ids generalizing w with
  | nil =>
      refine .ret ⟨.refl _ _ w, fun batch hbatch => ?_⟩
      obtain rfl := Except.ok.inj hbatch
      exact ⟨rfl, fun _ he => absurd he List.not_mem_nil⟩
  | cons id ids ih =>
      refine read fun answer w' ha hm hread => ?_
      have hf : Follows self.workerId (fun _ => False) w w' := hm.follows
      cases answer with
      | error error => exact .ret ⟨hf, nofun⟩
      | ok map =>
      obtain rfl := hread map rfl
      have hrest : ∀ other ∈ ids, Ready self.workerId queue (other, none) w' := fun other ho =>
        (hready other (List.mem_cons_of_mem _ ho)).later hf.claimed (hm.jobs other)
      have hfresh' : ∀ other ∈ ids, w'.store.Fresh self.workerId other := fun other ho =>
        (hfresh other (List.mem_cons_of_mem _ ho)).meddled (hm.jobs other)
      refine .bind (ih hrest hfresh') fun jobs w'' hjobs => ?_
      obtain ⟨hf', hbatch⟩ := hjobs
      cases jobs with
      | error error => exact .ret ⟨hf.trans hf', nofun⟩
      | ok jobs =>
      refine .ret ⟨hf.trans hf', fun batch hall => ?_⟩
      obtain rfl := Except.ok.inj hall
      obtain ⟨hids, hjobs⟩ := hbatch jobs rfl
      refine ⟨by rw [List.map_cons, hids], fun entry he => ?_⟩
      rcases List.mem_cons.mp he with rfl | he
      · have hfirst := (hready id List.mem_cons_self).later hf.claimed (hm.jobs id)
        refine Ready.later (w := w') ⟨hfirst.claimed, hfirst.secured, fun job hjob => ?_⟩ hf'.claimed
          (hf'.jobs id not_false)
        obtain ⟨raw, hraw, hparse⟩ := Option.bind_eq_some_iff.mp hjob
        have hok : parseJobMap raw id defaultMaxRetries = .ok job := by
          cases hresult : parseJobMap raw id defaultMaxRetries with
          | error error => simp [hresult, Except.toOption] at hparse
          | ok value => simpa [hresult, Except.toOption] using hparse
        refine ⟨(parseJobMap_ok hok).2.1.trans (ha.named id raw hraw), ?_⟩
        exact ours_of_fresh ((hfresh id List.mem_cons_self).meddled (hm.jobs id)) hraw hok
      · exact hjobs entry he

-- The task that a job is handed to is one more that was dispatched.
theorem dispatch_safe (job : Job) (startTime : DateTime) :
    PollSafe pid self.workerId (fun _ w' =>
        w'.history.claimedFrom = w.history.claimedFrom ∧
          w'.history.dispatched.length = w.history.dispatched.length + 1 ∧
          ∀ id, Meddled self.workerId id w.store w'.store)
      (dispatch self queueName job startTime) w := by
  refine still (fun _ _ => ⟨rfl, rfl⟩) fun _ _ _ w₁ _ hm₁ _ => ?_
  refine spawn rfl fun task w₂ hclaimed hdispatched hm₂ => ?_
  refine still (fun _ _ => ⟨rfl, rfl⟩) fun _ _ _ w₃ _ hm₃ _ => .ret ⟨?_, ?_, fun id => ?_⟩
  · rw [hm₃.history, hclaimed, hm₁.history]
  · rw [hm₃.history, hdispatched, hm₁.history, List.length_append]
    rfl
  · exact ((hm₁.jobs id).trans (hm₂ id)).trans (hm₃.jobs id)

-- The number of jobs fetched is the number dispatched, and no more than asked for.
def Counts (count fetched : Nat) (w : World) : Prop :=
  w.history.dispatched.length = fetched ∧ fetched ≤ count

theorem Counts.follows {me : WorkerId} {own : JobId → Prop} {count fetched : Nat}
    (hc : Counts count fetched w) (hf : Follows me own w w') : Counts count fetched w' := by
  unfold Counts
  rw [hf.dispatched]
  exact hc

theorem Counts.meddles {me : WorkerId} {count fetched : Nat} (hc : Counts count fetched w)
    (hm : Meddles me w w') : Counts count fetched w' := by
  have hf : Follows me (fun _ => True) w w' := hm.follows
  exact hc.follows hf

theorem dispatchBatch_safe {count fetched : Nat} (claimStartTime : DateTime)
    (hnodup : (batch.map Prod.fst).Nodup)
    (hready : ∀ entry ∈ batch, Ready self.workerId (normalizeQueueName queueName) entry w)
    (hcount : Counts count fetched w) :
    PollSafe pid self.workerId (fun answer w' =>
        ∀ n go, answer = .ok (n, go) → Counts count n w')
      (dispatchBatch self queueName count claimStartTime batch fetched) w := by
  induction batch generalizing w fetched with
  | nil =>
      refine .ret fun n go hanswer => ?_
      obtain ⟨rfl, rfl⟩ := Prod.mk.injEq .. ▸ Except.ok.inj hanswer
      exact hcount
  | cons entry batch ih =>
      obtain ⟨id, jobOpt⟩ := entry
      refine still (fun _ _ => ⟨rfl, rfl⟩) fun _ _ shutdown w' _ hm _ => ?_
      have hready' : ∀ entry ∈ (id, jobOpt) :: batch,
          Ready self.workerId (normalizeQueueName queueName) entry w' := fun entry he =>
        (hready entry he).later (by rw [hm.history]) (hm.jobs entry.1)
      have hcount' : Counts count fetched w' := hcount.meddles hm
      obtain ⟨hclaimed, hsecured, hjob⟩ := hready' (id, jobOpt) List.mem_cons_self
      have hnodup' := (List.nodup_cons.mp hnodup).2
      -- releasing the rest of the batch ends the poll with an error
      have hfail : ∀ (error : PollError) (message : Option String) w'',
          (∀ entry ∈ (id, jobOpt) :: batch,
            Ready self.workerId (normalizeQueueName queueName) entry w'') →
          PollSafe pid self.workerId (fun (answer : Except PollError (Nat × Bool)) w' =>
              ∀ n go, answer = .ok (n, go) → Counts count n w')
            (releaseClaimedJobsFromIndex self queueName message ((id, jobOpt) :: batch) >>=
              fun _ => pure (.error error)) w'' := by
        intro error message w'' hr
        exact .bind (releaseClaimedJobsFromIndex_safe message hnodup hr) fun _ _ _ => .ret nofun
      by_cases hstop : count ≤ fetched ∨ shutdown = true
      · rw [if_pos hstop]
        refine .bind (releaseRemainingClaimedJobs_safe _ hnodup hready') fun _ w'' hf => ?_
        refine .ret fun n go hanswer => ?_
        obtain ⟨rfl, rfl⟩ := Prod.mk.injEq .. ▸ Except.ok.inj hanswer
        exact hcount'.follows hf
      rw [if_neg hstop]
      cases jobOpt with
      | none =>
          refine .bind (quarantineClaimedJobWithoutDefinition_safe queueName _ hclaimed hsecured) ?_
          intro _ w'' hf
          exact ih hnodup' (ready_rest hnodup hready' hf) (hcount'.follows hf)
      | some job =>
      obtain ⟨hid, hours⟩ := hjob job rfl
      simp only at hid
      cases htimeout : jobLockTimeoutMs self.settings job with
      | none =>
          simp only [htimeout]
          exact hfail _ _ w' hready'
      | some lockTimeoutMs =>
      by_cases hpositive : lockTimeoutMs ≤ 0
      · simp only [htimeout, if_pos hpositive]
        exact hfail _ _ w' hready'
      simp only [htimeout, if_neg hpositive]
      rw [hid]
      refine refresh lockTimeoutMs hclaimed hsecured fun answer w'' hk => ?_
      have hfirst : Ready self.workerId (normalizeQueueName queueName) (id, some job) w'' := by
        refine ⟨by rw [hk.follows.claimed]; exact hclaimed, hk.secured, ?_⟩
        rintro _ ⟨⟩
        exact ⟨hid, hours.imp_right hk.lost⟩
      have hall : ∀ entry ∈ (id, some job) :: batch,
          Ready self.workerId (normalizeQueueName queueName) entry w'' := by
        intro entry he
        rcases List.mem_cons.mp he with rfl | he
        · exact hfirst
        · exact ready_rest hnodup hready' hk.follows entry he
      have hcount'' := hcount'.follows hk.follows
      cases answer with
      | error error => exact hfail _ _ w'' hall
      | ok refreshed =>
      cases refreshed with
      | false =>
          refine .bind (releaseClaimedJob_safe queueName job _ hfirst.claimed hfirst.secured
            (hfirst.job job rfl).2) fun _ w₃ hf => ?_
          exact ih hnodup' (ready_rest hnodup hall hf) (hcount''.follows hf)
      | true =>
          refine still (fun _ _ => ⟨rfl, rfl⟩) fun _ _ permit w₃ _ hm' _ => ?_
          have hlast : ∀ entry ∈ (id, some job) :: batch,
              Ready self.workerId (normalizeQueueName queueName) entry w₃ := fun entry he =>
            (hall entry he).later (by rw [hm'.history]) (hm'.jobs entry.1)
          cases permit with
          | false => exact hfail _ _ w₃ hlast
          | true =>
              refine .bind (dispatch_safe job _) fun _ w₄ hd => ?_
              obtain ⟨hc, hlen, hjobs⟩ := hd
              refine ih hnodup' (fun entry he => ?_) ?_
              · exact (hlast entry (List.mem_cons_of_mem _ he)).later hc (hjobs entry.1)
              · have hroom : ¬ count ≤ fetched := fun h => hstop (.inl h)
                refine ⟨by rw [hlen, (hcount''.meddles hm').1], ?_⟩
                omega

end Batch

theorem pollQueue_safe (queueName : QueueKey) {count requestCount fetched : Nat}
    (hcount : Counts count fetched w) :
    PollSafe pid self.workerId (fun answer w' =>
        ∀ n go, answer = .ok (n, go) → Counts count n w')
      (pollQueue self queueName count requestCount fetched) w := by
  refine still (fun _ _ => ⟨rfl, rfl⟩) fun _ _ claimStartTime w₁ _ hm₁ _ => ?_
  refine still (fun _ _ => ⟨rfl, rfl⟩) fun _ _ now w₂ _ hm₂ _ => ?_
  have hcount₂ : Counts count fetched w₂ := (hcount.meddles hm₁).meddles hm₂
  have hclaim : PollSafe pid self.workerId (fun answer w' =>
      Counts count fetched w' ∧ ∀ ids, answer = .ok ids → ids.Nodup ∧ ∀ id ∈ ids,
        Ready self.workerId (normalizeQueueName (normalizeQueueName queueName)) (id, none) w' ∧
          w'.store.Fresh self.workerId id)
      (JobStore.atomicClaimReadyJobs {
        queueKey := normalizeQueueName queueName
        workerId := self.workerId
        nowMs := now.timestampMillis
        maxClaims := requestCount
        defaultLockTimeoutMs := self.provisionalClaimLockTimeoutMs
        lockTimeoutExtensionSeconds := self.settings.defaultLockTimeoutExtensionSeconds
        startTime := claimStartTime }) w₂ := by
    unfold JobStore.atomicClaimReadyJobs
    split_ifs
    · refine .ret ⟨hcount₂, fun ids hids => ?_⟩
      obtain rfl := Except.ok.inj hids
      exact ⟨.nil, fun _ he => absurd he List.not_mem_nil⟩
    · exact .ret ⟨hcount₂, nofun⟩
    · exact .ret ⟨hcount₂, nofun⟩
    · refine claim rfl fun answer w' hd hids => ?_
      have hcount' : Counts count fetched w' := by
        unfold Counts
        rw [hd]
        exact hcount₂
      cases answer with
      | error error => exact .ret ⟨hcount', nofun⟩
      | ok ids =>
          refine .ret ⟨hcount', fun claimed hclaimed => ?_⟩
          obtain rfl := Except.ok.inj hclaimed
          obtain ⟨hnodup, hall⟩ := hids ids rfl
          refine ⟨hnodup, fun id hid => ?_⟩
          obtain ⟨hfrom, hsecured, hfresh⟩ := hall id hid
          rw [normalizeQueueName_idem]
          exact ⟨⟨hfrom, hsecured, by intro _ h; cases h⟩, hfresh⟩
  refine .bind hclaim fun answer w₃ hpost => ?_
  obtain ⟨hcount₃, hids⟩ := hpost
  cases answer with
  | error error => exact .ret nofun
  | ok ids =>
  cases ids with
  | nil =>
      refine .ret fun n go hanswer => ?_
      obtain ⟨rfl, rfl⟩ := Prod.mk.injEq .. ▸ Except.ok.inj hanswer
      exact hcount₃
  | cons id ids =>
  obtain ⟨hnodup, hall⟩ := hids _ rfl
  rw [normalizeQueueName_idem] at hall
  refine .bind (getJobDefinitions_safe _ _ (fun other ho => (hall other ho).1)
    fun other ho => (hall other ho).2) fun answer w₄ hpost => ?_
  obtain ⟨hf, hbatch⟩ := hpost
  cases answer with
  | error error =>
      refine .bind (releaseRemainingClaimedJobsWithoutDefinitions_safe hnodup fun other ho => ?_)
        fun _ _ _ => .ret nofun
      exact (hall other ho).1.later hf.claimed (hf.jobs other not_false)
  | ok batch =>
      obtain ⟨hids, hready⟩ := hbatch batch rfl
      exact dispatchBatch_safe claimStartTime (hids ▸ hnodup) hready (hcount₃.follows hf)

theorem pollSlots_safe {count fairShare fetched : Nat} (slots : List (Nat × QueueKey))
    (hcount : Counts count fetched w) :
    PollSafe pid self.workerId (fun answer w' => ∀ n, answer = .ok n → Counts count n w')
      (pollSlots self count fairShare slots fetched) w := by
  induction slots generalizing w fetched with
  | nil =>
      refine .ret fun n hanswer => ?_
      obtain rfl := Except.ok.inj hanswer
      exact hcount
  | cons slot slots ih =>
      obtain ⟨pass, queueName⟩ := slot
      refine still (fun _ _ => ⟨rfl, rfl⟩) fun _ _ shutdown w' _ hm _ => ?_
      have hcount' : Counts count fetched w' := hcount.meddles hm
      by_cases hstop : count ≤ fetched ∨ shutdown = true
      · rw [if_pos hstop]
        refine .ret fun n hanswer => ?_
        obtain rfl := Except.ok.inj hanswer
        exact hcount'
      rw [if_neg hstop]
      dsimp only
      generalize (if pass = 0 then min (count - fetched) fairShare else count - fetched) = requestCount
      by_cases hnone : requestCount = 0
      · rw [if_pos hnone]
        exact ih hcount'
      rw [if_neg hnone]
      refine .bind (pollQueue_safe queueName hcount') fun answer w'' hpost => ?_
      cases answer with
      | error error => exact .ret nofun
      | ok result =>
      obtain ⟨n, go⟩ := result
      have hcount'' := hpost n go rfl
      cases go with
      | true => exact ih hcount''
      | false =>
          refine .ret fun m hanswer => ?_
          obtain rfl := Except.ok.inj hanswer
          exact hcount''

-- Nothing is on record before the poll.
theorem accounted_start {store : Store} {mem : WorkerId → Memory} (me : WorkerId)
    (hnamed : store.WellNamed) : Accounted me ⟨store, mem, {}⟩ := ⟨hnamed, nofun, nofun⟩

-- Whatever fails and whichever locks are taken over, a poll leaves every job that it has
-- claimed where it can be found, and counts the jobs that it has dispatched.
theorem pollForJobs_conserves (self : RRQWorker) (pid : Pid) (cursor count : Nat) (store : Store)
    (mem : WorkerId → Memory) (hnamed : store.WellNamed) {answer : Except PollError Nat}
    {w : World} (hruns : Discipline.RunsAmong (World.exec pid (.main self.workerId)) Whole
      (Meddles self.workerId) (pollForJobs self cursor count) ⟨store, mem, {}⟩ answer w) :
    (∀ id queue, w.history.claimedFrom id = some queue →
        Conserved self.workerId queue id w) ∧
      ∀ fetched, answer = .ok fetched →
        fetched = w.history.dispatched.length ∧ fetched ≤ count := by
  have hcount : Counts count 0 ⟨store, mem, {}⟩ := ⟨rfl, Nat.zero_le count⟩
  have hsafe : PollSafe pid self.workerId
      (fun answer w' => ∀ n, answer = .ok n → Counts count n w')
      (pollForJobs self cursor count) ⟨store, mem, {}⟩ := pollSlots_safe _ hcount
  obtain ⟨hinv, hpost⟩ := Discipline.safe_runs (d := pollDiscipline pid self.workerId)
    (fun _ _ ha hm => ha.meddles hm) hruns hsafe (accounted_start self.workerId hnamed)
  refine ⟨fun id queue hid => hinv.conserved hid, fun fetched hanswer => ?_⟩
  obtain ⟨hlen, hle⟩ := hpost fetched hanswer
  exact ⟨hlen.symm, hle⟩

-- One job is ready in the default queue.
def queuedStore : Store :=
  { Store.empty with
    jobs := Function.update Store.empty.jobs "j" (some { value := {
      id := some "j"
      status := some JobStatus.Pending.asStr
      enqueueTime := some (.val ⟨0⟩) } })
    queues := Function.update Store.empty.queues "rrq:queue:default" (SortedSet.empty.insert "j" 0) }

theorem wellNamed_queuedStore : queuedStore.WellNamed := by
  intro id h hhash
  by_cases hid : id = "j"
  · subst hid
    simp only [Store.hash, queuedStore, Function.update_self, Option.map_some,
      Option.some.injEq] at hhash
    subst hhash
    rfl
  · simp only [Store.hash, queuedStore, Function.update_of_ne hid] at hhash
    cases hhash

-- A poll by a worker that nothing disturbs.
def quietPoll : Except PollError Nat × Nat × World :=
  Prog.run (World.exec 0 (.main "w0")) (fun _ _ => {}) (pollForJobs (.ofDefaults "w0") 0 1) 0
    ⟨queuedStore, fun _ => {}, {}⟩

theorem meddles_refl (me : WorkerId) (w : World) : Meddles me w w :=
  ⟨rfl, id, fun id => .refl me id w.store⟩

theorem pollForJobs_conserves_default :
    (∀ id queue, quietPoll.2.2.history.claimedFrom id = some queue →
        Conserved "w0" queue id quietPoll.2.2) ∧
      ∀ fetched, quietPoll.1 = .ok fetched →
        fetched = quietPoll.2.2.history.dispatched.length ∧ fetched ≤ 1 :=
  pollForJobs_conserves (.ofDefaults "w0") 0 0 1 queuedStore (fun _ => {}) wellNamed_queuedStore
    (Discipline.runsAmong_run (meddles_refl "w0") (fun _ _ _ => .inl rfl) _ 0 _)

end Rrq.RRQWorker
