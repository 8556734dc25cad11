import Rrq.Store.Ownership
import Rrq.Store.Outcome
import Rrq.Concurrent.Safe
import Rrq.Worker.Poll

-- What a poll owes to the jobs that it has claimed, while other workers may take over their
-- locks.

namespace Rrq

namespace Store

def Ended (s : Store) (id : JobId) : Prop :=
  ∃ status : JobStatus, s.status id = some status.asStr ∧ ¬ status.Live

def LockedByOther (me : WorkerId) (s : Store) (id : JobId) : Prop :=
  ∃ other, other ≠ me ∧ s.lock id = some (.owner other)

-- The lock or the hash of the job names another worker.
def TakenOver (me : WorkerId) (s : Store) (id : JobId) : Prop :=
  s.LockedByOther me id ∨ ∃ other, other ≠ me ∧ (s.hash id).bind JobHash.workerId = some other

-- The job is as it was, except that a lock of ours may have run out.
structure Spared (me : WorkerId) (id : JobId) (s t : Store) : Prop where
  cell : t.jobs id = s.jobs id
  queues : ∀ queue, id ∈ t.queues queue ↔ id ∈ s.queues queue
  active : ∀ worker, id ∈ t.active worker ↔ id ∈ s.active worker
  lock : t.locks id = s.locks id ∨ s.lock id = some (.owner me) ∧ t.locks id = none

-- What the others may do to a job: take it over for good, or let it be.
def Meddled (me : WorkerId) (id : JobId) (s t : Store) : Prop :=
  Spared me id s t ∨ t.LockedByOther me id

section Stability

variable {me : WorkerId} {id : JobId} {s t u : Store}

namespace Spared

theorem refl (me : WorkerId) (id : JobId) (s : Store) : Spared me id s s :=
  ⟨rfl, fun _ => .rfl, fun _ => .rfl, .inl rfl⟩

theorem of_sameJob (h : SameJob id s t) : Spared me id s t :=
  ⟨h.cell, h.queues, h.active, .inl h.lock⟩

theorem hash (h : Spared me id s t) : t.hash id = s.hash id := by
  unfold Store.hash
  rw [h.cell]

theorem status (h : Spared me id s t) : t.status id = s.status id := by
  unfold Store.status
  rw [h.hash]

theorem lockedByOther (h : Spared me id s t) (hl : s.LockedByOther me id) :
    t.LockedByOther me id := by
  obtain ⟨other, hne, hlock⟩ := hl
  rcases h.lock with hsame | ⟨hmine, -⟩
  · refine ⟨other, hne, ?_⟩
    unfold Store.lock at hlock ⊢
    rw [hsame, hlock]
  · rw [hlock] at hmine
    cases hmine
    exact absurd rfl hne

theorem trans (hst : Spared me id s t) (htu : Spared me id t u) : Spared me id s u where
  cell := htu.cell.trans hst.cell
  queues queue := (htu.queues queue).trans (hst.queues queue)
  active worker := (htu.active worker).trans (hst.active worker)
  lock := by
    rcases hst.lock with hsame | ⟨hmine, hgone⟩
    · rcases htu.lock with hsame' | ⟨hmine, hgone⟩
      · exact .inl (hsame'.trans hsame)
      · refine .inr ⟨?_, hgone⟩
        unfold Store.lock at hmine ⊢
        rw [← hsame, hmine]
    · rcases htu.lock with hsame' | ⟨-, hgone'⟩
      · exact .inr ⟨hmine, hsame'.trans hgone⟩
      · exact .inr ⟨hmine, hgone'⟩

theorem malformed (h : Spared me id s t) (hl : s.lock id ≠ some .malformed) :
    t.lock id ≠ some .malformed := by
  rcases h.lock with hsame | ⟨-, hgone⟩
  · unfold Store.lock at hl ⊢
    rwa [hsame]
  · simp [Store.lock, hgone]

end Spared

namespace Meddled

theorem refl (me : WorkerId) (id : JobId) (s : Store) : Meddled me id s s := .inl (.refl me id s)

theorem of_sameJob (h : SameJob id s t) : Meddled me id s t := .inl (.of_sameJob h)

theorem lockedByOther (h : Meddled me id s t) (hl : s.LockedByOther me id) :
    t.LockedByOther me id := h.elim (·.lockedByOther hl) fun hother => hother

theorem trans (hst : Meddled me id s t) (htu : Meddled me id t u) : Meddled me id s u := by
  rcases hst with hspared | hother
  · exact htu.imp hspared.trans fun hother => hother
  · exact .inr (htu.lockedByOther hother)

theorem malformed (h : Meddled me id s t) (hl : s.lock id ≠ some .malformed) :
    t.lock id ≠ some .malformed := by
  rcases h with hspared | ⟨other, -, hlock⟩
  · exact hspared.malformed hl
  · rw [hlock]
    simp

end Meddled

-- The claim is still on record, or lost to another worker.
def Secured (me : WorkerId) (s : Store) (id : JobId) : Prop :=
  id ∈ s.active me ∨ s.LockedByOther me id

-- The claim can be dropped from the record.
def Released (me : WorkerId) (queue : QueueKey) (s : Store) (id : JobId) : Prop :=
  id ∈ s.queues queue ∨ s.Ended id ∨ s.hash id = none ∨ s.LockedByOther me id

-- The hash is as the claim has left it.
def Fresh (me : WorkerId) (s : Store) (id : JobId) : Prop :=
  (∃ h, s.hash id = some h ∧ h.status = some JobStatus.Active.asStr ∧ h.workerId = some me) ∨
    s.LockedByOther me id

theorem Secured.meddled (hs : s.Secured me id) (h : Meddled me id s t) : t.Secured me id := by
  rcases h with hspared | hother
  · exact hs.imp (hspared.active me).mpr hspared.lockedByOther
  · exact .inr hother

theorem Released.meddled {queue : QueueKey} (hr : s.Released me queue id)
    (h : Meddled me id s t) : t.Released me queue id := by
  rcases h with hspared | hother
  · refine hr.imp (hspared.queues queue).mpr (.imp (fun hend => ?_) (.imp (fun hnone => ?_) ?_))
    · obtain ⟨status, hstatus, hlive⟩ := hend
      exact ⟨status, hspared.status.trans hstatus, hlive⟩
    · exact hspared.hash.trans hnone
    · exact hspared.lockedByOther
  · exact .inr (.inr (.inr hother))

theorem Fresh.meddled (hf : s.Fresh me id) (h : Meddled me id s t) : t.Fresh me id := by
  rcases h with hspared | hother
  · refine hf.imp (fun ⟨hash, heq, hrest⟩ => ?_) hspared.lockedByOther
    exact ⟨hash, hspared.hash.trans heq, hrest⟩
  · exact .inr hother

end Stability

end Store

open Store

-- The moves of the others during a poll.
structure Meddles (me : WorkerId) (w w' : World) : Prop where
  history : w'.history = w.history
  named : w.store.WellNamed → w'.store.WellNamed
  jobs : ∀ id, Meddled me id w.store w'.store

-- A command that fails has no effect.
def Whole (_ : Op) (chance : Chance) (_ : World) : Prop :=
  chance.fault = .none ∨ chance.fault = .refused

-- Where a job that was claimed from a queue can be found.
def Conserved (me : WorkerId) (queue : QueueKey) (id : JobId) (w : World) : Prop :=
  (me, id) ∈ w.history.dispatched ∨
  id ∈ w.store.queues queue ∨
  (w.store.status id = some JobStatus.Failed.asStr ∧ w.store.InDlq id) ∨
  id ∈ w.store.active me ∨
  w.store.Ended id ∨
  w.store.hash id = none ∨
  w.store.TakenOver me id

-- Every claim is accounted for.
structure Accounted (me : WorkerId) (w : World) : Prop where
  named : w.store.WellNamed
  kept : ∀ id queue, w.history.claimedFrom id = some queue →
    (me, id) ∈ w.history.dispatched ∨ w.store.Secured me id ∨ w.store.Released me queue id
  wellLocked : ∀ id queue, w.history.claimedFrom id = some queue →
    w.store.lock id ≠ some .malformed

theorem Accounted.conserved {me : WorkerId} {w : World} {id : JobId} {queue : QueueKey}
    (h : Accounted me w) (hid : w.history.claimedFrom id = some queue) :
    Conserved me queue id w := by
  rcases h.kept id queue hid with hd | (ha | hl) | hq | he | hn | hl
  · exact .inl hd
  · exact .inr (.inr (.inr (.inl ha)))
  · exact .inr (.inr (.inr (.inr (.inr (.inr (.inl hl))))))
  · exact .inr (.inl hq)
  · exact .inr (.inr (.inr (.inr (.inl he))))
  · exact .inr (.inr (.inr (.inr (.inr (.inl hn)))))
  · exact .inr (.inr (.inr (.inr (.inr (.inr (.inl hl))))))

-- From one world to a later one only these jobs have been worked on, and none was dispatched.
structure Follows (me : WorkerId) (own : JobId → Prop) (w w' : World) : Prop where
  claimed : w'.history.claimedFrom = w.history.claimedFrom
  dispatched : w'.history.dispatched = w.history.dispatched
  jobs : ∀ id, ¬ own id → Meddled me id w.store w'.store

section Follow

variable {me : WorkerId} {own : JobId → Prop} {w w' w'' : World}

theorem Follows.refl (me : WorkerId) (own : JobId → Prop) (w : World) : Follows me own w w :=
  ⟨rfl, rfl, fun id _ => .refl me id _⟩

theorem Follows.trans (h : Follows me own w w') (h' : Follows me own w' w'') :
    Follows me own w w'' :=
  ⟨h'.claimed.trans h.claimed, h'.dispatched.trans h.dispatched,
    fun id hid => (h.jobs id hid).trans (h'.jobs id hid)⟩

theorem Follows.all (h : Follows me own w w') : Follows me (fun _ => True) w w' :=
  ⟨h.claimed, h.dispatched, fun _ hn => absurd trivial hn⟩

theorem Meddles.follows (h : Meddles me w w') : Follows me own w w' :=
  ⟨by rw [h.history], by rw [h.history], fun id _ => h.jobs id⟩

theorem Accounted.meddles (ha : Accounted me w) (h : Meddles me w w') : Accounted me w' where
  named := h.named ha.named
  kept id queue hid := by
    rw [h.history] at hid ⊢
    exact (ha.kept id queue hid).imp_right
      (.imp (·.meddled (h.jobs id)) (·.meddled (h.jobs id)))
  wellLocked id queue hid := by
    rw [h.history] at hid
    exact (h.jobs id).malformed (ha.wellLocked id queue hid)

-- After a step on one claimed job there is only this job to account for.
theorem Accounted.follows {id : JobId} {queue : QueueKey} (ha : Accounted me w)
    (h : Follows me (· = id) w w') (hn : w'.store.WellNamed)
    (hid : w.history.claimedFrom id = some queue)
    (hk : w'.store.Secured me id ∨ w'.store.Released me queue id)
    (hl : w'.store.lock id ≠ some .malformed) : Accounted me w' where
  named := hn
  kept other from' ho := by
    rw [h.claimed] at ho
    rw [h.dispatched]
    by_cases heq : other = id
    · subst heq
      obtain rfl := Option.some.inj (hid.symm.trans ho)
      exact .inr hk
    · exact (ha.kept other from' ho).imp_right
        (.imp (·.meddled (h.jobs other heq)) (·.meddled (h.jobs other heq)))
  wellLocked other from' ho := by
    rw [h.claimed] at ho
    by_cases heq : other = id
    · exact heq ▸ hl
    · exact (h.jobs other heq).malformed (ha.wellLocked other from' ho)

end Follow

end Rrq
