import Rrq.Store.SameJob

-- What requeue_job.lua does to the job it puts back, wherever it stops.

namespace Rrq.Store

open Script Scripts

-- The hash of a job after a write of some of its fields.

@[simp] theorem hash_setJob (s : Store) (id : JobId) (cell : Option (Volatile JobHash)) :
    (s.setJob id cell).hash id = cell.map Volatile.value := by
  simp [hash]

@[simp] theorem hash_hset (s : Store) (id : JobId) (fields : JobHash → JobHash) :
    (s.hset id fields).hash id = some (fields ((s.hash id).getD {})) := by
  unfold hset
  cases h : s.jobs id <;> simp [hash, h]

@[simp] theorem hash_hdel (s : Store) (id : JobId) (fields : JobHash → JobHash) :
    (s.hdel id fields).hash id = (s.hash id).map fields := by
  unfold hdel
  cases h : s.jobs id <;> simp [hash, h]

-- The time a hash has left is no part of it.
theorem hash_setJob_of_value {s : Store} {id : JobId} {cell later : Volatile JobHash}
    (h : s.jobs id = some cell) (hvalue : later.value = cell.value) (other : JobId) :
    (s.setJob id (some later)).hash other = s.hash other := by
  by_cases ho : other = id
  · subst ho
    simp [hash, h, hvalue]
  · simp [hash, ho]

@[simp] theorem hash_expireJob (s : Store) (id other : JobId) (seconds : Int) :
    (s.expireJob id seconds).hash other = s.hash other := by
  unfold expireJob
  cases h : s.jobs id with
  | none => rfl
  | some cell =>
      dsimp only
      exact hash_setJob_of_value h (by rfl) other

@[simp] theorem hash_persistJob (s : Store) (id other : JobId) :
    (s.persistJob id).hash other = s.hash other := by
  unfold persistJob
  cases h : s.jobs id with
  | none => rfl
  | some cell =>
      dsimp only
      exact hash_setJob_of_value h (by rfl) other

theorem status_hset (s : Store) (id : JobId) (fields : JobHash → JobHash) :
    (s.hset id fields).status id = (fields ((s.hash id).getD {})).status := by
  simp [status]

theorem status_hset_same (s : Store) (id : JobId) (fields : JobHash → JobHash)
    (hf : ∀ h, (fields h).status = h.status) : (s.hset id fields).status id = s.status id := by
  rw [status_hset, hf]
  unfold status
  cases s.hash id <;> rfl

theorem status_hdel_same (s : Store) (id : JobId) (fields : JobHash → JobHash)
    (hf : ∀ h, (fields h).status = h.status) : (s.hdel id fields).status id = s.status id := by
  simp only [status, hash_hdel]
  cases s.hash id <;> simp [hf]

-- Writes to a hash move nothing.

structure SamePlaces (s t : Store) : Prop where
  queues : t.queues = s.queues
  active : t.active = s.active

namespace SamePlaces

variable {s t u : Store}

theorem refl (s : Store) : SamePlaces s s := ⟨rfl, rfl⟩

theorem trans (hst : SamePlaces s t) (htu : SamePlaces t u) : SamePlaces s u :=
  ⟨htu.queues.trans hst.queues, htu.active.trans hst.active⟩

theorem queued (h : SamePlaces s t) (id : JobId) : t.Queued id ↔ s.Queued id := by
  unfold Queued
  rw [h.queues]

end SamePlaces

theorem samePlaces_setJob (s : Store) (id : JobId) (cell : Option (Volatile JobHash)) :
    SamePlaces s (s.setJob id cell) := ⟨by funext; simp, by funext; simp⟩

theorem samePlaces_hset (s : Store) (id : JobId) (fields : JobHash → JobHash) :
    SamePlaces s (s.hset id fields) := by
  unfold hset
  split <;> exact samePlaces_setJob s id _

theorem samePlaces_hdel (s : Store) (id : JobId) (fields : JobHash → JobHash) :
    SamePlaces s (s.hdel id fields) := by
  unfold hdel
  split
  · exact .refl s
  · exact samePlaces_setJob s id _

theorem queued_zadd (s : Store) (queue : QueueKey) (id : JobId) (score : ℚ) :
    (s.zadd queue id score).Queued id := ⟨queue, by simp [zadd]⟩

-- A status that a demotion leaves live.
theorem live_of_status {s : Store} {id : JobId} {status : JobStatus}
    (hs : s.status id = some status.asStr) (hl : status.Live) : s.Live id := ⟨status, hs, hl⟩

theorem asStr_injective {a b : JobStatus} (h : a.asStr = b.asStr) : a = b := by
  have hp := congrArg JobStatus.parse h
  simpa using hp

theorem live_iff {s : Store} {id : JobId} {status : JobStatus}
    (hs : s.status id = some status.asStr) : s.Live id ↔ status.Live := by
  constructor
  · rintro ⟨other, ho, hl⟩
    rwa [asStr_injective (Option.some.inj (ho.symm.trans hs))] at hl
  · exact live_of_status hs

theorem live_congr {s t : Store} {id : JobId} (h : t.status id = s.status id) :
    t.Live id ↔ s.Live id := by
  unfold Live
  rw [h]

-- What is known of a job after a script that puts it into a queue with a given call.
structure Requeued (id : JobId) (calls : Nat) (budget : Budget) (s t : Store) : Prop where
  queued : t.Queued id ↔ s.Queued id ∨ Reaches budget calls
  active : ∀ worker, id ∈ t.active worker → id ∈ s.active worker
  tracked : ∀ worker, id ∈ s.active worker → id ∈ t.active worker ∨ t.Queued id
  live : t.Live id ↔ s.Live id

namespace Requeued

variable {id : JobId} {calls : Nat} {budget rest : Budget} {s t u : Store}

theorem spent (h : spend budget = none) : Requeued id (calls + 1) budget s s where
  queued := by simp [not_reaches_succ h]
  active _ hw := hw
  tracked _ hw := .inl hw
  live := .rfl

theorem after (h : spend budget = some rest) (hp : SamePlaces s t) (hl : t.Live id ↔ s.Live id)
    (hr : Requeued id calls rest t u) : Requeued id (calls + 1) budget s u where
  queued := by rw [hr.queued, reaches_succ h, hp.queued]
  active worker hw := hp.active ▸ hr.active worker hw
  tracked worker hw := hr.tracked worker (hp.active ▸ hw)
  live := hr.live.trans hl

-- A call before the one that counts: it moves nothing and leaves the job live or not.
theorem step {α β : Type} {command : Store → Option (α × Store)} {next : α → Script Store β}
    {value : α} (hc : command s = some (value, t)) (hp : SamePlaces s t)
    (hl : t.Live id ↔ s.Live id)
    (hn : ∀ rest, Requeued id calls rest t ((next value).run rest t).2) :
    Requeued id (calls + 1) budget s ((call command >>= next).run budget s).2 := by
  cases hs : spend budget with
  | none =>
      rw [run_bind_spent hs]
      exact spent hs
  | some rest =>
      rw [run_bind_done hs hc]
      exact after hs hp hl (hn rest)

theorem ask_step {α β : Type} {query : Store → α} {next : α → Script Store β}
    (hn : ∀ rest, Requeued id calls rest s ((next (query s)).run rest s).2) :
    Requeued id (calls + 1) budget s ((ask query >>= next).run budget s).2 :=
  step rfl (.refl s) .rfl hn

theorem write_step {β : Type} {update : Store → Store} {next : Unit → Script Store β}
    (hp : SamePlaces s (update s)) (hl : (update s).Live id ↔ s.Live id)
    (hn : ∀ rest, Requeued id calls rest (update s) ((next ()).run rest (update s)).2) :
    Requeued id (calls + 1) budget s ((write update >>= next).run budget s).2 :=
  step rfl hp hl hn

end Requeued

-- What the rest of the script keeps once the job is in a queue.
structure Settled (id : JobId) (s t : Store) : Prop where
  queued : t.Queued id
  active : ∀ worker, id ∈ t.active worker → id ∈ s.active worker
  live : t.Live id ↔ s.Live id

section Requeue

variable {args : RequeueArgs} {s : Store}

theorem keeps_settled_untrack : Keeps (Settled args.id s) (untrack args) := by
  unfold untrack
  split
  · refine Keeps.write fun t ht => ⟨?_, fun w hw => ?_, ?_⟩
    · obtain ⟨queue, hq⟩ := ht.queued
      exact ⟨queue, by simpa [zremActive] using hq⟩
    · refine ht.active w ?_
      simp only [zremActive, setActive_active, Function.update_apply] at hw
      split at hw
      · rename_i heq
        exact heq ▸ (SortedSet.mem_erase.mp hw).2
      · exact hw
    · exact (live_congr (by simp [status, hash, zremActive])).trans ht.live
  · exact .pure _

theorem keeps_settled_releaseOwned : Keeps (Settled args.id s) (releaseOwned args) := by
  refine .ite (.pure _) (.bind ?_ fun owner => .ite ?_ (.pure _))
  · refine Keeps.call fun t value after heq ht => ?_
    unfold getLock at heq
    split at heq <;> simp_all
  · refine Keeps.write fun t ht => ⟨?_, fun w hw => ?_, ?_⟩
    · obtain ⟨queue, hq⟩ := ht.queued
      exact ⟨queue, by simpa [delLock] using hq⟩
    · exact ht.active w (by simpa [delLock] using hw)
    · exact (live_congr (by simp [status, hash, delLock])).trans ht.live

theorem keeps_settled_restoreSchedule : Keeps (Settled args.id s) (restoreSchedule args) := by
  unfold restoreSchedule
  split
  · refine Keeps.write fun t ht => ?_
    have hp := samePlaces_hset t args.id
    refine ⟨((hp _).queued _).mpr ht.queued, fun w hw => ht.active w ?_, ?_⟩
    · rwa [(hp _).active] at hw
    · exact (live_congr (status_hset_same t _ _ (by intro; rfl))).trans ht.live
  · exact .pure _

theorem Settled.requeued {id : JobId} {calls : Nat} {budget : Budget} {t : Store}
    (h : Settled id s t) (hq : s.Queued id ∨ Reaches budget calls) :
    Requeued id calls budget s t where
  queued := iff_of_true h.queued hq
  active := h.active
  tracked _ _ := .inr h.queued
  live := h.live

-- The script from its queue test on.
def enterQueue (args : RequeueArgs) : Script Store Int := do
  let queued ← ask fun s => decide (args.id ∈ s.queues args.queueKey)
  if queued then
    untrack args
    releaseOwned args
    pure 2
  else
    write fun s => s.zadd args.queueKey args.id args.score
    untrack args
    restoreSchedule args
    releaseOwned args
    pure 1

theorem requeueJobBody_eq (args : RequeueArgs) :
    requeueJobBody args = (ask (fun s => (s.jobs args.id).isSome) >>= fun present =>
      if present then demote args >>= fun _ => enterQueue args else pure 0) := rfl

theorem requeued_enterQueue (budget : Budget) :
    Requeued args.id 2 budget s ((enterQueue args).run budget s).2 := by
  refine Requeued.ask_step fun rest => ?_
  by_cases hq : args.id ∈ s.queues args.queueKey
  · have hk : Keeps (Settled args.id s)
        (untrack args >>= fun _ => releaseOwned args >>= fun _ => Script.pure (2 : Int)) :=
      .bind keeps_settled_untrack fun _ => .bind keeps_settled_releaseOwned fun _ => .pure _
    simp only [hq, decide_true, if_true, pure_eq]
    exact (hk.run rest ⟨⟨_, hq⟩, fun _ => id, .rfl⟩).requeued (.inl ⟨_, hq⟩)
  · simp only [hq, decide_false, Bool.false_eq_true, if_false, pure_eq]
    have hk : Keeps (Settled args.id s) (untrack args >>= fun _ => restoreSchedule args >>= fun _ =>
        releaseOwned args >>= fun _ => Script.pure (1 : Int)) :=
      .bind keeps_settled_untrack fun _ => .bind keeps_settled_restoreSchedule fun _ =>
        .bind keeps_settled_releaseOwned fun _ => .pure _
    cases hs : spend rest with
    | none =>
        rw [run_write_spent hs]
        exact .spent hs
    | some rest' =>
        rw [run_write_next hs]
        refine (hk.run rest' ⟨queued_zadd s _ _ _, fun w hw => ?_, ?_⟩).requeued (.inr ?_)
        · simpa [zadd] using hw
        · exact live_congr (by simp [status, hash, zadd])
        · simp [reaches_succ hs]

-- The number of calls up to the one that puts the job into the queue.
def requeueCalls (args : RequeueArgs) (s : Store) : Nat :=
  if s.status args.id = some JobStatus.Active.asStr then 6
  else if args.requeueMessage = "" then 4
  else 5

-- A demoted job is still one that can be executed.
theorem live_demoted (hs : s.status args.id = some JobStatus.Active.asStr)
    (fields : JobHash → JobHash)
    (hf : ∀ h, (fields h).status = some JobStatus.Pending.asStr) :
    (s.hset args.id fields).Live args.id ↔ s.Live args.id :=
  iff_of_true ⟨.Pending, by rw [status_hset, hf], by decide⟩ ⟨.Active, hs, by decide⟩

theorem requeued_demote (budget : Budget) :
    Requeued args.id (requeueCalls args s - 1) budget s
      ((demote args >>= fun _ => enterQueue args).run budget s).2 := by
  unfold demote
  rw [bind_assoc]
  by_cases hactive : s.status args.id = some JobStatus.Active.asStr
  · have hcalls : requeueCalls args s = 6 := if_pos hactive
    rw [hcalls]
    refine Requeued.ask_step fun rest => ?_
    simp only [hactive, if_true, bind_assoc]
    refine Requeued.write_step (samePlaces_hset s _ _)
      (live_demoted hactive _ (by intro; rfl)) fun rest => ?_
    refine Requeued.write_step (samePlaces_hdel _ _ _) ?_ fun rest => requeued_enterQueue rest
    exact live_congr (status_hdel_same _ _ _ (by intro; rfl))
  by_cases hmessage : args.requeueMessage = ""
  · have hcalls : requeueCalls args s = 4 := by simp only [requeueCalls, hactive, hmessage, if_true,
      if_false]
    rw [hcalls]
    refine Requeued.ask_step fun rest => ?_
    simp only [hactive, if_false, hmessage, if_true, pure_eq, pure_bind]
    exact requeued_enterQueue rest
  · have hcalls : requeueCalls args s = 5 := by simp only [requeueCalls, hactive, hmessage, if_false]
    rw [hcalls]
    refine Requeued.ask_step fun rest => ?_
    simp only [hactive, if_false, hmessage]
    refine Requeued.write_step (samePlaces_hset s _ _) ?_ fun rest => requeued_enterQueue rest
    exact live_congr (status_hset_same s _ _ (by intro; rfl))

theorem run_requeueJob (args : RequeueArgs) (budget : Budget) (s : Store) :
    (requeueJob args).run budget s =
      (some (((requeueJobBody args).run budget s).1.getD (-1)),
        ((requeueJobBody args).run budget s).2) := run_pcall_bind _ _ _ _

-- The script about a job that exists.
theorem requeued_requeueJob (budget : Budget) (hpresent : (s.hash args.id).isSome) :
    Requeued args.id (requeueCalls args s) budget s ((requeueJob args).run budget s).2 := by
  have hcalls : requeueCalls args s = requeueCalls args s - 1 + 1 := by
    unfold requeueCalls
    split_ifs <;> rfl
  have hjob : (s.jobs args.id).isSome := by simpa [hash] using hpresent
  rw [run_requeueJob, requeueJobBody_eq, hcalls]
  refine Requeued.ask_step fun rest => ?_
  simp only [hjob, if_true]
  exact requeued_demote rest

theorem requeueJob_missing (budget : Budget) (hmissing : s.hash args.id = none) :
    ((requeueJob args).run budget s).2 = s := by
  have hjob : (s.jobs args.id).isSome = false := by simpa [hash] using hmissing
  rw [run_requeueJob, requeueJobBody_eq]
  cases hs : spend budget with
  | none => rw [run_ask_spent hs]
  | some rest =>
      rw [run_ask_next hs]
      simp only [hjob, Bool.false_eq_true, if_false]
      rfl

end Requeue

end Rrq.Store
