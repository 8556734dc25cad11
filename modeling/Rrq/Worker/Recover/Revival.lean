import Rrq.Store.Atomic
import Rrq.Worker.Recover.Handling

-- What the recovery of one job makes of the store when nothing disturbs it.

namespace Rrq

namespace Store

variable {s t u : Store} {id : JobId}

-- Two stores agree on the hash of a job and on its score in every queue.
structure SameRecord (id : JobId) (s t : Store) : Prop where
  cell : t.jobs id = s.jobs id
  scores : ∀ queue, (t.queues queue).score? id = (s.queues queue).score? id

namespace SameRecord

theorem refl (id : JobId) (s : Store) : SameRecord id s s := ⟨rfl, fun _ => rfl⟩

theorem symm (h : SameRecord id s t) : SameRecord id t s :=
  ⟨h.cell.symm, fun queue => (h.scores queue).symm⟩

theorem trans (hst : SameRecord id s t) (htu : SameRecord id t u) : SameRecord id s u :=
  ⟨htu.cell.trans hst.cell, fun queue => (htu.scores queue).trans (hst.scores queue)⟩

theorem hash (h : SameRecord id s t) : t.hash id = s.hash id := by
  unfold Store.hash
  rw [h.cell]

theorem status (h : SameRecord id s t) : t.status id = s.status id := by
  unfold Store.status
  rw [h.hash]

theorem live (h : SameRecord id s t) : t.Live id ↔ s.Live id := by
  unfold Store.Live
  rw [h.status]

theorem queues (h : SameRecord id s t) (queue : QueueKey) :
    id ∈ t.queues queue ↔ id ∈ s.queues queue := by
  rw [← SortedSet.isSome_score?, h.scores, SortedSet.isSome_score?]

end SameRecord

-- The text of the time that a job is scheduled for.
def schedule (s : Store) (id : JobId) : Option (Text DateTime) :=
  (s.hash id).bind JobHash.nextScheduledRunTime

theorem SameRecord.schedule (h : SameRecord id s t) : t.schedule id = s.schedule id := by
  unfold Store.schedule
  rw [h.hash]

namespace SameRest

theorem now (h : SameRest s t) : t.now = s.now := by
  rw [h]

theorem health (h : SameRest s t) : t.health = s.health := by
  rw [h]

theorem clock (h : SameRest s t) : SameClock s t := ⟨h.now, h.health⟩

end SameRest

-- A job that is marked pending has the same places and the same lock.

theorem samePlaces_markJobPending (id : JobId) (s : Store) :
    SamePlaces s (Pipelines.markJobPending id none s) :=
  (samePlaces_hset _ _ _).trans (samePlaces_hdel _ _ _)

theorem locks_markJobPending (id : JobId) (s : Store) :
    (Pipelines.markJobPending id none s).locks = s.locks := by
  unfold Pipelines.markJobPending
  rw [locks_hdel, locks_hset]

theorem sameRest_markJobPending (id : JobId) (s : Store) :
    SameRest s (Pipelines.markJobPending id none s) :=
  (sameRest_hset _ _).trans (sameRest_hdel _ _)

theorem sameJob_markJobPending {other : JobId} (hne : other ≠ id) (s : Store) :
    SameJob other s (Pipelines.markJobPending id none s) :=
  (sameJob_hset hne s _).trans (sameJob_hdel hne _ _)

theorem active_zremActive (worker : WorkerId) (id : JobId) (s : Store) :
    (s.zremActive worker id).active =
      Function.update s.active worker ((s.active worker).erase id) := rfl

-- A second removal from an active set does nothing.
theorem zremActive_twice {worker : WorkerId} {t : Store}
    (h : t.active = (s.zremActive worker id).active) :
    (t.zremActive worker id).active = (s.zremActive worker id).active := by
  rw [active_zremActive, h, active_zremActive, Function.update_idem, Function.update_self,
    SortedSet.erase_erase]

-- The requeue of a job that is missing in its queue.

section Requeue

variable {args : Scripts.RequeueArgs} {raw : JobHash}

theorem requeuing_unqueued (hraw : s.hash args.id = some raw)
    (hlock : s.lock args.id ≠ some .malformed) (hout : args.id ∉ s.queues args.queueKey) :
    Requeuing args 1 s (requeued args s) := by
  have hspec := requeuing_requeued (by rw [hraw]; rfl) hlock
  rwa [if_neg hout] at hspec

theorem run_requeueJob_unqueued (hraw : s.hash args.id = some raw)
    (hlock : s.lock args.id ≠ some .malformed) (hout : args.id ∉ s.queues args.queueKey) :
    (Scripts.requeueJob args).run none s = (some 1, requeued args s) := by
  rw [run_requeueJob_present (by rw [hraw]; rfl) hlock, if_neg hout]

theorem requeued_hash (hraw : s.hash args.id = some raw)
    (hout : args.id ∉ s.queues args.queueKey) :
    (requeued args s).hash args.id = some (requeuedHash args false raw) := by
  rw [(putBack_requeued (by rw [hraw]; rfl)).hash, hraw, decide_eq_false hout]
  rfl

end Requeue

end Store

namespace Recover

open Prog Store

-- What the clock has shown.
def Reading (oracle : Nat → Op → Chance) (time : DateTime) : Prop :=
  ∃ n, (oracle n .utcNow).now = time

-- A sweep in which no command fails, over the given pages of the scan.
structure Undisturbed (oracle : Nat → Op → Chance) (pages : Nat → Nat × List String) : Prop where
  fault : ∀ n c, (oracle n (.redis c)).fault = .none
  page : ∀ n cursor, (oracle n (.redis (.scanActiveJobKeys cursor))).page = pages cursor

def Parses (self : RRQWorker) (s : Store) (id : JobId) (job : Job) : Prop :=
  ∃ h, s.hash id = some h ∧ parseJobMap h id self.settings.defaultMaxRetries = .ok job

def homeQueue (self : RRQWorker) (job : Job) : QueueKey :=
  normalizeQueueName (job.queueName.getD self.settings.defaultQueueName)

-- The hash of the job, if there is one, names it and can be parsed, and its lock can be taken.
def Readable (self : RRQWorker) (s : Store) (id : JobId) : Prop :=
  ∀ h, s.hash id = some h → h.id = some id ∧ ∃ job ms,
    parseJobMap h id self.settings.defaultMaxRetries = .ok job ∧
    RRQWorker.jobLockTimeoutMs self.settings job = some ms ∧ s.PxOk ms

-- A job that could be executed if only it were in its queue.
def Unqueued (self : RRQWorker) (s : Store) (id : JobId) : Prop :=
  ∃ job, Parses self s id job ∧ job.status.Live ∧ id ∉ s.queues (homeQueue self job)

-- The time that a job is scheduled for, or else the present.
def Due (now : DateTime → Prop) (job : Job) (time : DateTime) : Prop :=
  job.nextScheduledRunTime = some time ∨ job.nextScheduledRunTime = none ∧ now time

-- A job that can be executed is back in its queue.
structure Revived (sweeper : RRQWorker) (now : DateTime → Prop) (id : JobId) (job : Job)
    (s t : Store) : Prop where
  parses : Parses sweeper s id job
  live : job.status.Live
  rewritten : ∃ before after, s.hash id = some before ∧ t.hash id = some after ∧
    after.definition = before.definition ∧
    (after.status = before.status ∨ after.status = some JobStatus.Pending.asStr)
  idle : t.status id ≠ some JobStatus.Active.asStr
  queued : id ∈ t.queues (homeQueue sweeper job)
  due : id ∉ s.queues (homeQueue sweeper job) → ∃ time, Due now job time ∧
    (t.queues (homeQueue sweeper job)).score? id = some (time.timestampMillis : ℚ) ∧
    t.schedule id = some (.val time)
  kept : id ∈ s.queues (homeQueue sweeper job) →
    (t.queues (homeQueue sweeper job)).score? id = (s.queues (homeQueue sweeper job)).score? id ∧
    t.schedule id = s.schedule id
  elsewhere : ∀ queue, queue ≠ homeQueue sweeper job →
    (t.queues queue).score? id = (s.queues queue).score? id

-- What becomes of an orphan: back to its queue if it can be executed, and else nothing.
inductive Resolved (self : RRQWorker) (now : DateTime → Prop) (id : JobId) (s t : Store) :
    Prop where
  | revived (job : Job) (h : Revived self now id job s t)
  | left (hdead : ¬ s.Live id) (h : SameRecord id s t)

section Records

variable {self : RRQWorker} {now : DateTime → Prop} {id : JobId} {job other : Job}
  {s t u : Store}

theorem Parses.unique (h : Parses self s id job) (ho : Parses self s id other) : job = other := by
  obtain ⟨raw, hraw, hparse⟩ := h
  obtain ⟨same, hsame, hother⟩ := ho
  obtain rfl := Option.some.inj (hraw.symm.trans hsame)
  exact Except.ok.inj (hparse.symm.trans hother)

theorem Parses.status (h : Parses self s id job) : s.status id = some job.status.asStr := by
  obtain ⟨raw, hraw, hparse⟩ := h
  unfold Store.status
  rw [hraw]
  exact (parseJobMap_ok hparse).1

theorem Parses.live (h : Parses self s id job) : s.Live id ↔ job.status.Live := by
  constructor
  · rintro ⟨status, hs, hlive⟩
    have heq := Option.some.inj (h.status.symm.trans hs)
    rwa [asStr_injective heq]
  · exact fun hlive => ⟨job.status, h.status, hlive⟩

theorem parses_congr (h : SameRecord id s t) : Parses self t id job ↔ Parses self s id job := by
  unfold Parses
  rw [h.hash]

theorem unqueued_congr (h : SameRecord id s t) : Unqueued self t id ↔ Unqueued self s id := by
  unfold Unqueued
  simp only [parses_congr h, h.queues]

theorem Readable.congr (hs : Readable self s id) (h : SameRecord id s t) (hclock : SameClock s t) :
    Readable self t id := by
  intro raw hraw
  rw [h.hash] at hraw
  obtain ⟨hid, found, ms, hparse, hms, hpx⟩ := hs raw hraw
  exact ⟨hid, found, ms, hparse, hms, (hclock.pxOk _).mpr hpx⟩

namespace Revived

theorem before (h : Revived self now id job s t) : s.Live id := h.parses.live.mpr h.live

-- What the hash of a job that is back reads as.
theorem restored (h : Revived self now id job s t) :
    ∃ restored, Parses self t id restored ∧ restored.status.Live ∧
      restored.queueName = job.queueName ∧
      restored.jobTimeoutSeconds = job.jobTimeoutSeconds := by
  obtain ⟨raw, hraw, hparse⟩ := h.parses
  obtain ⟨before, after, hbefore, hafter, hd, hs⟩ := h.rewritten
  obtain rfl := Option.some.inj (hraw.symm.trans hbefore)
  obtain ⟨restored, hrestored, hlive, hqueue, htimeout⟩ :=
    parseJobMap_restored hd hs hparse h.live
  exact ⟨restored, ⟨after, hafter, hrestored⟩, hlive, hqueue, htimeout⟩

theorem after (h : Revived self now id job s t) : t.Live id := by
  obtain ⟨restored, hparses, hlive, -⟩ := h.restored
  exact hparses.live.mpr hlive

theorem home (h : Revived self now id job s t) (ho : Parses self t id other) :
    homeQueue self other = homeQueue self job := by
  obtain ⟨restored, hparses, -, hqueue, -⟩ := h.restored
  unfold homeQueue
  rw [ho.unique hparses, hqueue]

theorem not_unqueued (h : Revived self now id job s t) : ¬ Unqueued self t id := by
  rintro ⟨found, hparses, -, hout⟩
  rw [h.home hparses] at hout
  exact hout h.queued

theorem mono (h : Revived self now id job s t) {later : DateTime → Prop}
    (hnow : ∀ time, now time → later time) : Revived self later id job s t where
  parses := h.parses
  live := h.live
  rewritten := h.rewritten
  idle := h.idle
  queued := h.queued
  due hout := by
    obtain ⟨time, hdue, hplaced⟩ := h.due hout
    exact ⟨time, hdue.imp_right fun hpresent => ⟨hpresent.1, hnow time hpresent.2⟩, hplaced⟩
  kept := h.kept
  elsewhere := h.elsewhere

theorem congr_left (hst : SameRecord id s t) (h : Revived self now id job t u) :
    Revived self now id job s u where
  parses := (parses_congr hst).mp h.parses
  live := h.live
  rewritten := by
    rw [← hst.hash]
    exact h.rewritten
  idle := h.idle
  queued := h.queued
  due hout := h.due fun hmem => hout ((hst.queues _).mp hmem)
  kept hmem := by
    rw [← hst.scores, ← hst.schedule]
    exact h.kept ((hst.queues _).mpr hmem)
  elsewhere queue hne := (h.elsewhere queue hne).trans (hst.scores queue)

theorem congr_right (h : Revived self now id job s t) (htu : SameRecord id t u) :
    Revived self now id job s u where
  parses := h.parses
  live := h.live
  rewritten := by
    rw [htu.hash]
    exact h.rewritten
  idle := by
    rw [htu.status]
    exact h.idle
  queued := (htu.queues _).mpr h.queued
  due hout := by
    rw [htu.scores, htu.schedule]
    exact h.due hout
  kept hmem := by
    rw [htu.scores, htu.schedule]
    exact h.kept hmem
  elsewhere queue hne := (htu.scores queue).trans (h.elsewhere queue hne)

-- A job that is back is only kept where it is.
theorem trans (hst : Revived self now id job s t) (htu : Revived self now id other t u) :
    Revived self now id job s u := by
  have hhome := hst.home htu.parses
  have hqueued := htu.queued
  have hkept := htu.kept
  have helsewhere := htu.elsewhere
  rw [hhome] at hqueued hkept helsewhere
  obtain ⟨hscore, hschedule⟩ := hkept hst.queued
  obtain ⟨before, middle, hbefore, hmiddle, hd, hs⟩ := hst.rewritten
  obtain ⟨same, after, hsame, hafter, hd', hs'⟩ := htu.rewritten
  obtain rfl := Option.some.inj (hmiddle.symm.trans hsame)
  refine ⟨hst.parses, hst.live, ⟨before, after, hbefore, hafter, hd'.trans hd, ?_⟩, htu.idle,
    hqueued, fun hout => ?_, fun hmem => ?_, fun queue hne => ?_⟩
  · rcases hs' with hs' | hs'
    · rwa [hs']
    · exact .inr hs'
  · rw [hscore, hschedule]
    exact hst.due hout
  · rw [hscore, hschedule]
    exact hst.kept hmem
  · exact (helsewhere queue hne).trans (hst.elsewhere queue hne)

theorem readable (h : Revived self now id job s t) (hs : Readable self s id)
    (hclock : SameClock s t) : Readable self t id := by
  intro raw hraw
  obtain ⟨before, after, hbefore, hafter, hd, -⟩ := h.rewritten
  obtain rfl := Option.some.inj (hraw.symm.trans hafter)
  obtain ⟨hid, found, ms, hparse, hms, hpx⟩ := hs before hbefore
  obtain rfl := Parses.unique ⟨before, hbefore, hparse⟩ h.parses
  obtain ⟨restored, ⟨same, hsame, hrestored⟩, -, -, htimeout⟩ := h.restored
  obtain rfl := Option.some.inj (hraw.symm.trans hsame)
  refine ⟨(congrArg JobHash.id hd).trans hid, restored, ms, hrestored, ?_,
    (hclock.pxOk _).mpr hpx⟩
  unfold RRQWorker.jobLockTimeoutMs at hms ⊢
  rwa [htimeout]

end Revived

namespace Resolved

theorem of_left (hst : SameRecord id s t) (h : Resolved self now id t u) :
    Resolved self now id s u := by
  cases h with
  | revived job h => exact .revived job (h.congr_left hst)
  | left hdead h => exact .left (mt hst.live.mpr hdead) (hst.trans h)

theorem of_right (h : Resolved self now id s t) (htu : SameRecord id t u) :
    Resolved self now id s u := by
  cases h with
  | revived job h => exact .revived job (h.congr_right htu)
  | left hdead h => exact .left hdead (h.trans htu)

theorem trans (hst : Resolved self now id s t) (htu : Resolved self now id t u) :
    Resolved self now id s u := by
  cases hst with
  | left hdead h => exact htu.of_left h
  | revived job hst =>
      cases htu with
      | revived other htu => exact .revived job (hst.trans htu)
      | left hdead _ => exact absurd hst.after hdead

theorem readable (h : Resolved self now id s t) (hs : Readable self s id)
    (hclock : SameClock s t) : Readable self t id := by
  cases h with
  | revived job h => exact h.readable hs hclock
  | left _ h => exact hs.congr h hclock

theorem not_unqueued (h : Resolved self now id s t) : ¬ Unqueued self t id := by
  cases h with
  | revived job h => exact h.not_unqueued
  | left hdead h =>
      rintro ⟨job, hparses, hlive, -⟩
      exact hdead (h.live.mp (hparses.live.mpr hlive))

end Resolved

end Records

-- The commands of an undisturbed recovery, one after another.

-- A job leaves the active set of one worker, and no other entry of the store changes but its own
-- hash and its places in queues.
structure Drops (worker : WorkerId) (id : JobId) (s t : Store) : Prop where
  rest : SameRest s t
  locks : t.locks = s.locks
  active : t.active = (s.zremActive worker id).active
  others : ∀ other, other ≠ id → SameRecord other s t

-- A recovery between the taking of the lock and its release.
structure Held (sweeper : RRQWorker) (now : DateTime → Prop) (worker : WorkerId) (id : JobId)
    (s t : Store) : Prop where
  rest : SameRest s t
  locks : ∀ other, other ≠ id → t.locks other = s.locks other
  lock : t.locks id = none ∨ t.lock id = some (.owner (lockOwner worker))
  active : (t.zremActive worker id).active = (s.zremActive worker id).active
  others : ∀ other, other ≠ id → SameRecord other s t
  resolved : Resolved sweeper now id s t

-- What the recovery of one job comes to. It counts only if the job was missing in its queue.
def Recovers (self : RRQWorker) (now : DateTime → Prop) (worker : WorkerId) (id : JobId)
    (verdict : Verdict) (s t : Store) : Prop :=
  if s.locks id = none then
    Drops worker id s t ∧ Resolved self now id s t ∧
      (verdict = .skipped ∨ verdict = .recovered ∧ Unqueued self s id)
  else t = s ∧ verdict = .skipped

section Commands

variable {self : RRQWorker} {oracle : Nat → Op → Chance} {pages : Nat → Nat × List String}
  {role : Role} {pid : Pid} {worker : WorkerId} {id : JobId} {job : Job} {n : Nat} {w : World}
  {s : Store}

theorem ends_undisturbed {α : Type} {post : α → World → Prop} (ho : Undisturbed oracle pages)
    {c : Cmd} {next : Except RedisError c.Answer → Proc α}
    (h : ∀ page answer w', c.exec .none page w.store = (answer, w'.store) → w'.mem = w.mem →
      Prog.Ends (World.exec pid role) oracle post (next answer) (n + 1) w') :
    Prog.Ends (World.exec pid role) oracle post (redis c >>= next) n w := by
  refine ends_redis fun answer store w' hexec hs hm => ?_
  rw [ho.fault, ← hs] at hexec
  exact h _ answer w' hexec hm

abbrev RecoveryEnds (self : RRQWorker) (oracle : Nat → Op → Chance) (role : Role) (pid : Pid)
    (worker : WorkerId) (id : JobId) (s : Store) (mem : WorkerId → Memory)
    (prog : Proc (Except RecoverError Verdict)) : Nat → World → Prop :=
  Prog.Ends (World.exec pid role) oracle (fun answer after => after.mem = mem ∧
    ∃ verdict, answer = .ok verdict ∧
      Recovers self (Reading oracle) worker id verdict s after.store) prog

theorem dropTracking_recovers (ho : Undisturbed oracle pages) {verdict : Verdict}
    (hfree : s.locks id = none) (hh : Held self (Reading oracle) worker id s w.store)
    (hv : verdict = .skipped ∨ verdict = .recovered ∧ Unqueued self s id) :
    RecoveryEnds self oracle role pid worker id s w.mem
      (dropTracking worker id id >>= fun _ => pure (.ok verdict)) n w := by
  unfold dropTracking
  rw [bind_assoc]
  refine ends_undisturbed ho fun page answer w₁ hremove hm₁ => ?_
  obtain ⟨hremoved, -⟩ := Cmd.removeActiveJob_inv hremove
  rw [if_pos rfl] at hremoved
  refine ends_undisturbed ho fun page released w₂ hrelease hm₂ => ?_
  have hlock : w₁.store.locks id = none ∨
      w₁.store.lock id = some (.owner (lockOwner worker)) := by
    rw [hremoved]
    exact hh.lock
  have hdeleted := releaseJobLockIfOwner_deletes hlock hrelease
  have hlocks : w₂.store.locks = s.locks := by
    funext other
    rw [hdeleted, hremoved]
    by_cases hother : other = id
    · subst hother
      simp [delLock, hfree]
    · simp [delLock, zremActive, hother, hh.locks other hother]
  have hrest : SameRest w.store w₂.store := by
    rw [hdeleted, hremoved]
    rfl
  have hsame (other : JobId) : SameRecord other w.store w₂.store := by
    rw [hdeleted, hremoved]
    exact ⟨rfl, fun _ => rfl⟩
  have hactive : w₂.store.active = (s.zremActive worker id).active := by
    rw [hdeleted, hremoved]
    exact hh.active
  refine ends_ret ⟨hm₂.trans hm₁, verdict, rfl, ?_⟩
  unfold Recovers
  rw [if_pos hfree]
  refine ⟨⟨hh.rest.trans hrest, hlocks, hactive, fun other hne => ?_⟩, ?_, hv⟩
  · exact (hh.others other hne).trans (hsame other)
  · exact hh.resolved.of_right (hsame id)

-- The store once the recovery has the lock.
def locked (worker : WorkerId) (id : JobId) (expireAt : Option Int) (s : Store) : Store :=
  s.setLock id (some { value := .owner (lockOwner worker), expireAt })

variable {expireAt : Option Int}

theorem held_locked (h : Resolved self (Reading oracle) id s s) :
    Held self (Reading oracle) worker id s (locked worker id expireAt s) where
  rest := rfl
  locks other hne := by simp [locked, hne]
  lock := .inr (by simp [locked, Store.lock])
  active := rfl
  others _ _ := ⟨rfl, fun _ => rfl⟩
  resolved := h.of_right ⟨rfl, fun _ => rfl⟩

-- A job that can be executed is left alone only where it is queued and idle.
theorem resolved_self (hparses : Parses self s id job)
    (h : job.status.Live → id ∈ s.queues (homeQueue self job) ∧ job.status ≠ .Active) :
    Resolved self (Reading oracle) id s s := by
  by_cases hlive : job.status.Live
  · obtain ⟨hqueued, hidle⟩ := h hlive
    obtain ⟨raw, hraw, hparse⟩ := hparses
    refine .revived job ⟨⟨raw, hraw, hparse⟩, hlive, ⟨raw, raw, hraw, hraw, rfl, .inl rfl⟩, ?_,
      hqueued, fun hout => absurd hqueued hout, fun _ => ⟨rfl, rfl⟩, fun _ _ => rfl⟩
    rw [Parses.status ⟨raw, hraw, hparse⟩]
    exact fun heq => hidle (asStr_injective (Option.some.inj heq))
  · exact .left (mt hparses.live.mp hlive) (.refl id s)

theorem held_pending (hparses : Parses self s id job) (hlive : job.status.Live)
    (hqueued : id ∈ s.queues (homeQueue self job)) :
    Held self (Reading oracle) worker id s
      (Pipelines.markJobPending id none (locked worker id expireAt s)) where
  rest := by
    have hlocked : SameRest s (locked worker id expireAt s) := rfl
    exact hlocked.trans (sameRest_markJobPending _ _)
  locks other hne := by
    rw [locks_markJobPending]
    simp [locked, hne]
  lock := by
    right
    rw [lock_congr (congrFun (locks_markJobPending _ _) id)]
    simp [locked, Store.lock]
  active := by
    unfold zremActive setActive
    rw [(samePlaces_markJobPending _ _).active]
    rfl
  others other hne := by
    refine ⟨(sameJob_markJobPending hne _).cell, fun queue => ?_⟩
    rw [(samePlaces_markJobPending _ _).queues]
    rfl
  resolved := by
    obtain ⟨raw, hraw, hparse⟩ := hparses
    have hqueues : (Pipelines.markJobPending id none (locked worker id expireAt s)).queues =
        s.queues := (samePlaces_markJobPending _ _).queues
    have hhash : (Pipelines.markJobPending id none (locked worker id expireAt s)).hash id =
        some { raw with
          status := some JobStatus.Pending.asStr, startTime := none, workerId := none } := by
      have hbefore : (locked worker id expireAt s).hash id = some raw := hraw
      simp [Pipelines.markJobPending, hbefore]
    have hpending : some JobStatus.Pending.asStr ≠ some JobStatus.Active.asStr := by decide
    refine .revived job ⟨⟨raw, hraw, hparse⟩, hlive, ⟨raw, _, hraw, hhash, rfl, .inr rfl⟩, ?_, ?_,
      fun hout => absurd hqueued hout, fun _ => ⟨?_, ?_⟩, fun queue _ => ?_⟩
    · unfold Store.status
      rw [hhash]
      exact hpending
    · rwa [hqueues]
    · rw [hqueues]
    · unfold Store.schedule
      rw [hhash, hraw]
      rfl
    · rw [hqueues]

theorem lockOwner_ne (worker : WorkerId) : lockOwner worker ≠ "" := by
  intro h
  have hlist := congrArg String.toList h
  simp [lockOwner] at hlist

def requeueArgs (worker : WorkerId) (job : Job) (queueName : QueueKey) (time : DateTime) :
    Scripts.RequeueArgs where
  id := job.id
  queueKey := queueName
  score := time.timestampMillis
  requeueMessage := recoverMessage job.status
  releasingOwner := lockOwner worker
  activeWorkerId := some worker
  nextScheduled := some time

theorem revived_requeued {time : DateTime} (hid : job.id = id) (hparses : Parses self s id job)
    (hlive : job.status.Live) (hout : id ∉ s.queues (homeQueue self job))
    (hdue : Due (Reading oracle) job time) :
    Revived self (Reading oracle) id job s
      (requeued (requeueArgs worker job (homeQueue self job) time)
        (locked worker id expireAt s)) := by
  obtain ⟨raw, hraw, hparse⟩ := hparses
  subst hid
  have howned : (locked worker job.id expireAt s).lock job.id ≠ some .malformed := by
    simp [locked, Store.lock]
  have hspec : Requeuing (requeueArgs worker job (homeQueue self job) time) 1
      (locked worker job.id expireAt s) (requeued _ (locked worker job.id expireAt s)) :=
    requeuing_unqueued hraw howned hout
  have hhash : (requeued (requeueArgs worker job (homeQueue self job) time)
      (locked worker job.id expireAt s)).hash job.id = some (requeuedHash _ false raw) :=
    requeued_hash hraw hout
  refine ⟨⟨raw, hraw, hparse⟩, hlive, ⟨raw, _, hraw, hhash, requeuedHash_definition _ _ _,
    requeuedHash_status _ _ _⟩, hspec.status, hspec.queued,
    fun _ => ⟨time, hdue, hspec.score, ?_⟩, fun hmem => absurd hmem hout, fun queue hne => ?_⟩
  · unfold Store.schedule
    rw [hhash]
    rfl
  · rw [hspec.queues queue hne]
    rfl

theorem held_requeued {time : DateTime} (hid : job.id = id) (hparses : Parses self s id job)
    (hlive : job.status.Live) (hout : id ∉ s.queues (homeQueue self job))
    (hdue : Due (Reading oracle) job time) :
    Held self (Reading oracle) worker id s
      (requeued (requeueArgs worker job (homeQueue self job) time)
        (locked worker id expireAt s)) := by
  have hrevived := @revived_requeued self oracle worker id job s expireAt time hid hparses hlive
    hout hdue
  obtain ⟨raw, hraw, -⟩ := hparses
  subst hid
  have howned : (locked worker job.id expireAt s).lock job.id =
      some (.owner (lockOwner worker)) := by simp [locked, Store.lock]
  have hwell : (locked worker job.id expireAt s).lock job.id ≠ some .malformed := by
    simp [howned]
  have hpresent : ((locked worker job.id expireAt s).hash job.id).isSome :=
    Option.isSome_iff_exists.mpr ⟨raw, hraw⟩
  have hspec : Requeuing (requeueArgs worker job (homeQueue self job) time) 1
      (locked worker job.id expireAt s) (requeued _ (locked worker job.id expireAt s)) :=
    requeuing_unqueued hraw hwell hout
  have hput : PutBack (requeueArgs worker job (homeQueue self job) time)
      (locked worker job.id expireAt s) (requeued _ (locked worker job.id expireAt s)) :=
    putBack_requeued hpresent
  have hlocked : SameRest s (locked worker job.id expireAt s) := rfl
  have hfree : (requeued (requeueArgs worker job (homeQueue self job) time)
      (locked worker job.id expireAt s)).locks job.id = none :=
    hput.lock.trans (if_pos ⟨lockOwner_ne worker, howned⟩)
  refine ⟨hlocked.trans sameRest_requeued, fun other hne => ?_, .inl hfree, ?_,
    fun other hne => ⟨hspec.jobs other hne, fun queue => ?_⟩, .revived job hrevived⟩
  · rw [hspec.locks other hne]
    simp [locked, hne]
  · exact zremActive_twice (s := s) requeued_active
  · by_cases hqueue : queue = homeQueue self job
    · subst hqueue
      exact hspec.members other hne
    · exact congrArg (·.score? other) (hspec.queues queue hqueue)

theorem requeueOrphan_recovers (ho : Undisturbed oracle pages) (hid : job.id = id)
    (hfree : s.locks id = none) (hstore : w.store = locked worker id expireAt s)
    (hparses : Parses self s id job) (hlive : job.status.Live)
    (hout : id ∉ s.queues (homeQueue self job)) :
    RecoveryEnds self oracle role pid worker id s w.mem
      (requeueOrphan worker job (homeQueue self job)) n w := by
  subst hid
  have hwell : w.store.lock job.id ≠ some .malformed := by
    rw [hstore]
    simp [locked, Store.lock]
  have hnot : job.id ∉ w.store.queues (homeQueue self job) := by rwa [hstore]
  obtain ⟨raw, hraw⟩ : ∃ raw, w.store.hash job.id = some raw := by
    obtain ⟨raw, hraw, -⟩ := hparses
    exact ⟨raw, by rw [hstore]; exact hraw⟩
  have hrequeue (time : DateTime) (hdue : Due (Reading oracle) job time) (k : Nat) :
      RecoveryEnds self oracle role pid worker job.id s w.mem
        (redis (.atomicRequeueJob (requeueArgs worker job (homeQueue self job) time)) >>=
          fun result => afterRequeue worker job result) k w := by
    refine ends_undisturbed ho fun page answer w₁ hexec hm₁ => ?_
    have hrun : (Scripts.requeueJob (requeueArgs worker job (homeQueue self job) time)).run none
        w.store = (some 1, requeued _ w.store) := run_requeueJob_unqueued hraw hwell hnot
    have hheld : Held self (Reading oracle) worker job.id s
        (requeued (requeueArgs worker job (homeQueue self job) time) w.store) := by
      rw [hstore]
      exact held_requeued rfl hparses hlive hout hdue
    simp only [Cmd.exec, Cmd.script, hrun, Prod.mk.injEq] at hexec
    obtain ⟨rfl, hafter⟩ := hexec
    rw [hafter] at hheld
    rw [← hm₁]
    exact dropTracking_recovers ho hfree hheld (.inr ⟨rfl, job, hparses, hlive, hout⟩)
  unfold requeueOrphan
  cases hschedule : job.nextScheduledRunTime with
  | none => exact ends_call (hrequeue _ (.inr ⟨hschedule, n, rfl⟩) _)
  | some time => exact hrequeue time (.inl hschedule) n

theorem settleOrphan_recovers (ho : Undisturbed oracle pages) (hid : job.id = id)
    (hfree : s.locks id = none) (hstore : w.store = locked worker id expireAt s)
    (hparses : Parses self s id job) :
    RecoveryEnds self oracle role pid worker id s w.mem
      (settleOrphan worker id job (homeQueue self job)) n w := by
  refine ends_undisturbed ho fun page answer w₁ hexec hm₁ => ?_
  rw [isJobQueued_exec, if_pos rfl] at hexec
  obtain ⟨rfl, hs₁⟩ := Prod.mk.injEq .. ▸ hexec
  have hstore₁ : w₁.store = locked worker id expireAt s := hs₁.symm.trans hstore
  have hqueues : w.store.queues = s.queues := by rw [hstore]; rfl
  rw [hqueues, ← hm₁]
  by_cases hqueued : id ∈ s.queues (homeQueue self job)
  · rw [decide_eq_true hqueued]
    by_cases hactive : job.status = .Active
    · simp only [hactive, if_true, hid]
      refine ends_undisturbed ho fun page answer w₂ hexec hm₂ => ?_
      have hpending : w₂.store = Pipelines.markJobPending id none w₁.store :=
        (congrArg Prod.snd hexec).symm
      have hheld : Held self (Reading oracle) worker id s w₂.store := by
        rw [hpending, hstore₁]
        exact held_pending hparses (hactive ▸ by decide) hqueued
      rw [← hm₂]
      exact dropTracking_recovers ho hfree hheld (.inl rfl)
    · simp only [hactive, if_false, hid]
      have hheld : Held self (Reading oracle) worker id s w₁.store := by
        rw [hstore₁]
        exact held_locked (resolved_self hparses fun _ => ⟨hqueued, hactive⟩)
      exact dropTracking_recovers ho hfree hheld (.inl rfl)
  · rw [decide_eq_false hqueued]
    by_cases hlive : job.status.Live
    · simp only [hlive, if_true]
      exact requeueOrphan_recovers ho hid hfree hstore₁ hparses hlive hqueued
    · simp only [hlive, if_false, hid]
      have hheld : Held self (Reading oracle) worker id s w₁.store := by
        rw [hstore₁]
        exact held_locked (resolved_self hparses fun h => absurd h hlive)
      exact dropTracking_recovers ho hfree hheld (.inl rfl)

theorem recoverFound_recovers (ho : Undisturbed oracle pages) (hid : job.id = id) {ms : Int}
    (hparses : Parses self w.store id job)
    (hms : RRQWorker.jobLockTimeoutMs self.settings job = some ms) (hpx : w.store.PxOk ms)
    (hfree : w.store.locks id = none) :
    RecoveryEnds self oracle role pid worker id w.store w.mem
      (recoverFound self.settings worker id job) n w := by
  have hpos : ¬ ms ≤ 0 := not_le.mpr (by exact_mod_cast hpx.2.1)
  simp only [recoverFound, hms, hpos, if_false]
  refine ends_undisturbed ho fun page answer w₁ hexec hm₁ => ?_
  simp only [hid, Cmd.exec, Cmd.single, setLockNx, hpx, hfree, if_true, Cmd.reply,
    Option.isSome_none, Bool.false_eq_true, if_false, Prod.mk.injEq] at hexec
  obtain ⟨rfl, hs₁⟩ := hexec
  rw [← hm₁]
  exact settleOrphan_recovers ho hid hfree hs₁.symm hparses

-- A job that is missing is only dropped.
theorem drops_missing (hfree : w.store.locks id = none) (hmissing : w.store.hash id = none) :
    Recovers self (Reading oracle) worker id .skipped w.store (w.store.zremActive worker id) := by
  have hdead : ¬ w.store.Live id := by
    rintro ⟨status, hs, -⟩
    simp [Store.status, hmissing] at hs
  unfold Recovers
  rw [if_pos hfree]
  refine ⟨⟨rfl, rfl, rfl, fun _ _ => ⟨rfl, fun _ => rfl⟩⟩, ?_, .inl rfl⟩
  exact .left hdead ⟨rfl, fun _ => rfl⟩

theorem recoverJob_recovers (ho : Undisturbed oracle pages)
    (hrunning : (w.mem self.workerId).shutdown = false) (hread : Readable self w.store id)
    (hwell : w.store.lock id ≠ some .malformed) :
    RecoveryEnds self oracle role pid worker id w.store w.mem (recoverJob self worker id) n w := by
  refine ends_call ?_
  change RecoveryEnds self oracle role pid worker id w.store w.mem
    (if (w.mem self.workerId).shutdown = true then _ else _) (n + 1) w
  rw [hrunning, if_neg Bool.false_ne_true]
  refine ends_undisturbed ho fun page answer w₁ hexec hm₁ => ?_
  rw [getJobLockOwner_exec, if_pos rfl] at hexec
  obtain ⟨rfl, hs₁⟩ := Prod.mk.injEq .. ▸ hexec
  match hlock : w.store.lock id with
  | some .malformed => exact absurd hlock hwell
  | some (.owner name) =>
      have hheld : w.store.locks id ≠ none := by
        intro hnone
        simp [Store.lock, hnone] at hlock
      refine ends_ret ⟨hm₁, .skipped, rfl, ?_⟩
      unfold Recovers
      rw [if_neg hheld]
      exact ⟨hs₁.symm, rfl⟩
  | none =>
  have hfree : w.store.locks id = none := by
    simpa [Store.lock] using hlock
  dsimp only
  unfold JobStore.getJobDefinition
  rw [bind_assoc]
  refine ends_undisturbed ho fun page answer w₂ hexec hm₂ => ?_
  rw [getJobDataMap_exec, if_pos rfl, ← hs₁] at hexec
  obtain ⟨rfl, hs₂⟩ := Prod.mk.injEq .. ▸ hexec
  cases hraw : w.store.hash id with
  | none =>
      refine ends_undisturbed ho fun page answer w₃ hexec hm₃ => ?_
      obtain ⟨hremoved, -⟩ := Cmd.removeActiveJob_inv hexec
      rw [if_pos rfl, ← hs₂] at hremoved
      refine ends_ret ⟨hm₃.trans (hm₂.trans hm₁), .skipped, rfl, ?_⟩
      rw [hremoved]
      exact drops_missing hfree hraw
  | some raw =>
      obtain ⟨hid, job, ms, hparse, hms, hpx⟩ := hread raw hraw
      have hjob : job.id = id := by rw [(parseJobMap_ok hparse).2.1, hid]; rfl
      simp only [hparse, pure_eq_ret, ret_bind]
      rw [← hm₁, ← hm₂]
      rw [hs₂] at hraw hpx hfree ⊢
      exact recoverFound_recovers ho hjob ⟨raw, hraw, hparse⟩ hms hpx hfree

end Commands

end Recover

end Rrq
