import Rrq.Store.Requeue

-- What recording the outcome of an execution does to its job, wherever it stops.

namespace Rrq.Store

open Script Scripts

-- The job has an entry in a dead letter queue.
def InDlq (s : Store) (id : JobId) : Prop := ∃ name, id ∈ s.dlq name

theorem hincrby_eq_some {s t : Store} {id : JobId} {n : Int} (h : s.hincrby id = some (n, t)) :
    s.nextRetries id = some n ∧
      t = s.hset id fun h => { h with currentRetries := some (.int n) } := by
  obtain ⟨m, hm, hn⟩ := Option.map_eq_some_iff.mp h
  obtain ⟨rfl, rfl⟩ := Prod.mk.injEq .. ▸ hn
  exact ⟨hm, rfl⟩

@[simp] theorem dlq_setJob (s : Store) (id : JobId) (cell : Option (Volatile JobHash)) :
    (s.setJob id cell).dlq = s.dlq := by
  funext name
  simp

@[simp] theorem dlq_hset (s : Store) (id : JobId) (fields : JobHash → JobHash) :
    (s.hset id fields).dlq = s.dlq := by
  unfold hset
  split <;> simp

def result (s : Store) (id : JobId) : Option (Text Json) := (s.hash id).bind JobHash.result

-- The status of a job, its result, its places and the lists are as they were.
structure SameStatus (id : JobId) (s t : Store) : Prop where
  places : SamePlaces s t
  dlq : t.dlq = s.dlq
  status : t.status id = s.status id
  result : t.result id = s.result id

namespace SameStatus

variable {id : JobId} {s t u : Store}

theorem refl (id : JobId) (s : Store) : SameStatus id s s := ⟨.refl s, rfl, rfl, rfl⟩

theorem trans (hst : SameStatus id s t) (htu : SameStatus id t u) : SameStatus id s u :=
  ⟨hst.places.trans htu.places, htu.dlq.trans hst.dlq, htu.status.trans hst.status,
    htu.result.trans hst.result⟩

end SameStatus

theorem sameStatus_hset (s : Store) (id : JobId) (fields : JobHash → JobHash)
    (hf : ∀ h, (fields h).status = h.status) (hr : ∀ h, (fields h).result = h.result) :
    SameStatus id s (s.hset id fields) := by
  refine ⟨samePlaces_hset s id fields, dlq_hset s id fields, status_hset_same s id fields hf, ?_⟩
  simp only [result, hash_hset, Option.bind_some, hr]
  cases s.hash id <;> rfl

-- Nothing is said of the hash, but the keys that decide the fate of the job are the same.
theorem sameStatus_of_eq {id : JobId} {s t : Store} (hh : t.hash id = s.hash id)
    (hq : t.queues = s.queues) (ha : t.active = s.active) (hd : t.dlq = s.dlq) :
    SameStatus id s t := ⟨⟨hq, ha⟩, hd, by simp only [status, hh], by simp only [result, hh]⟩

@[simp] theorem status_zadd (s : Store) (queue : QueueKey) (id other : JobId) (score : ℚ) :
    (s.zadd queue id score).status other = s.status other := by
  simp [status, hash, zadd]

-- The retry script: the job is queued with its last call.
structure Retried (id : JobId) (done : Prop) (s t : Store) : Prop where
  active : t.active = s.active
  queued : t.Queued id ↔ s.Queued id ∨ done
  status : t.status id = s.status id ∨ t.status id = some JobStatus.Retrying.asStr

theorem retried_retry (id : JobId) (queueKey : QueueKey) (score : ℚ) (errorMessage : String)
    (budget : Budget) (s : Store) :
    Retried id ((s.nextRetries id).isSome ∧ Reaches budget 3) s
      ((retry id queueKey score errorMessage .Retrying).run budget s).2 := by
  unfold retry
  have hnothing : ∀ {done : Prop} {t : Store}, ¬ done → SamePlaces s t →
      (t.status id = s.status id ∨ t.status id = some JobStatus.Retrying.asStr) →
      Retried id done s t := fun hn hp hs => ⟨hp.active, by rw [hp.queued]; tauto, hs⟩
  cases h₁ : spend budget with
  | none =>
      rw [run_bind_spent h₁]
      exact hnothing (by simp [not_reaches_succ h₁]) (.refl s) (.inl rfl)
  | some rest₁ =>
  cases hcount : s.hincrby id with
  | none =>
      rw [run_bind_refused hcount]
      have hn : s.nextRetries id = none := by simpa [hincrby] using hcount
      exact hnothing (by simp [hn]) (.refl s) (.inl rfl)
  | some result =>
  obtain ⟨count, s₁⟩ := result
  rw [run_bind_done h₁ hcount]
  obtain ⟨hn, rfl⟩ := hincrby_eq_some hcount
  have hs₁ := sameStatus_hset s id (fun h => { h with currentRetries := some (.int count) })
    (by intro; rfl) (by intro; rfl)
  cases h₂ : spend rest₁ with
  | none =>
      rw [run_write_spent h₂]
      exact hnothing (by simp [reaches_succ h₁, not_reaches_succ h₂]) hs₁.places (.inl hs₁.status)
  | some rest₂ =>
  rw [run_write_next h₂]
  cases h₃ : spend rest₂ with
  | none =>
      rw [run_write_spent h₃]
      dsimp only
      refine hnothing (by simp [reaches_succ h₁, reaches_succ h₂, not_reaches_succ h₃])
        (hs₁.places.trans (samePlaces_hset _ _ _)) (.inr ?_)
      rw [status_hset]
  | some rest₃ =>
  rw [run_write_next h₃]
  simp only [pure_eq, run_pure]
  refine ⟨?_, iff_of_true (queued_zadd _ _ _ _) (.inr ⟨by simp [hn], ?_⟩), .inr ?_⟩
  · funext worker
    rw [zadd, setQueue_active, (samePlaces_hset _ _ _).active, hs₁.places.active]
  · simp [reaches_succ h₁, reaches_succ h₂, reaches_succ h₃]
  · rw [status_zadd, status_hset]

-- The DLQ script: the job fails with its second call and has its entry with the fourth.
structure Dead (id : JobId) (done : Nat → Prop) (s t : Store) : Prop where
  active : t.active = s.active
  queues : t.queues = s.queues
  failed : done 2 → t.status id = some JobStatus.Failed.asStr
  untouched : ¬ done 2 → t.status id = s.status id
  entry : t.InDlq id ↔ s.InDlq id ∨ done 4

theorem sameStatus_expireJob (s : Store) (id : JobId) (seconds : Int) :
    SameStatus id s (s.expireJob id seconds) := by
  refine sameStatus_of_eq (hash_expireJob s id id seconds) ?_ ?_ ?_ <;> unfold expireJob <;>
    split <;> rfl

theorem sameStatus_persistJob (s : Store) (id : JobId) : SameStatus id s (s.persistJob id) := by
  refine sameStatus_of_eq (hash_persistJob s id id) ?_ ?_ ?_ <;> unfold persistJob <;>
    split <;> rfl

theorem sameStatus_setEvents (s : Store) (id other : JobId)
    (cell : Option (Volatile (List Event))) : SameStatus id s (s.setEvents other cell) :=
  sameStatus_of_eq (by simp [hash]) (by funext; simp) (by funext; simp) (by funext; simp)

theorem sameStatus_expireEvents (s : Store) (id : JobId) (seconds : Int) :
    SameStatus id s (s.expireEvents id seconds) := by
  unfold expireEvents
  split
  · exact .refl id s
  · exact sameStatus_setEvents s id id _

theorem sameStatus_persistEvents (s : Store) (id : JobId) :
    SameStatus id s (s.persistEvents id) := by
  unfold persistEvents
  split
  · exact .refl id s
  · exact sameStatus_setEvents s id id _

theorem sameStatus_xadd (s : Store) (id : JobId) (event : Event) :
    SameStatus id s (s.xadd id event) := by
  unfold xadd
  split <;> exact sameStatus_setEvents s id id _

theorem sameStatus_setUniqueLock (s : Store) (id : JobId) (key : String)
    (cell : Option (Volatile JobId)) : SameStatus id s (s.setUniqueLock key cell) :=
  sameStatus_of_eq (by simp [hash]) (by funext; simp) (by funext; simp) (by funext; simp)

theorem keeps_sameStatus_tail (id : JobId) (s : Store) (dlqTtl : Int)
    (uniqueLockKey : Option String) (n : Int) :
    Keeps (SameStatus id s)
      (expireDlq id dlqTtl >>= fun _ => releaseUnique uniqueLockKey >>= fun _ => pure n) := by
  refine .bind (.ite ?_ (.pure _)) fun _ => .bind ?_ fun _ => .pure _
  · exact .bind (.write fun t ht => ht.trans (sameStatus_expireJob t id dlqTtl)) fun _ =>
      .write fun t ht => ht.trans (sameStatus_expireEvents t id dlqTtl)
  · cases uniqueLockKey with
    | none => exact .pure _
    | some key => exact .write fun t ht => ht.trans (sameStatus_setUniqueLock t id key none)

theorem samePlaces_lpush (s : Store) (name : String) (id : JobId) :
    SamePlaces s (s.lpush name id) := ⟨by funext; simp [lpush], by funext; simp [lpush]⟩

@[simp] theorem status_lpush (s : Store) (name : String) (id other : JobId) :
    (s.lpush name id).status other = s.status other := by
  simp [status, hash, lpush]

theorem inDlq_lpush (s : Store) (name : String) (id : JobId) : (s.lpush name id).InDlq id :=
  ⟨name, by simp [lpush]⟩

theorem inDlq_congr {s t : Store} (h : t.dlq = s.dlq) (id : JobId) : t.InDlq id ↔ s.InDlq id := by
  simp only [InDlq, h]

-- Before the second call nothing of it shows.
theorem Dead.of_sameStatus {id : JobId} {done : Nat → Prop} {s t : Store}
    (h : SameStatus id s t) (h₂ : ¬ done 2) (h₄ : ¬ done 4) : Dead id done s t where
  active := h.places.active
  queues := h.places.queues
  failed hd := absurd hd h₂
  untouched _ := h.status
  entry := by
    rw [inDlq_congr h.dlq]
    tauto

theorem dead_moveToDlq (id : JobId) (dlqKey errorMessage : String) (completionTime : DateTime)
    (dlqTtl : Int) (uniqueLockKey : Option String) (budget : Budget) (s : Store) :
    Dead id (fun n => (s.nextRetries id).isSome ∧ Reaches budget n) s
      ((moveToDlq id dlqKey errorMessage completionTime dlqTtl uniqueLockKey).run budget s).2 := by
  have hrun := run_pcall_bind
    (moveToDlqBody id dlqKey errorMessage completionTime dlqTtl uniqueLockKey)
    (fun result => result.getD (-1)) budget s
  rw [show (moveToDlq id dlqKey errorMessage completionTime dlqTtl uniqueLockKey).run budget s = _
    from hrun]
  unfold moveToDlqBody
  cases h₁ : spend budget with
  | none =>
      rw [run_bind_spent h₁]
      exact .of_sameStatus (.refl id s) (by simp [not_reaches_succ h₁])
        (by simp [not_reaches_succ h₁])
  | some rest₁ =>
  cases hcount : s.hincrby id with
  | none =>
      rw [run_bind_refused hcount]
      have hn : s.nextRetries id = none := by simpa [hincrby] using hcount
      exact .of_sameStatus (.refl id s) (by simp [hn]) (by simp [hn])
  | some result =>
  obtain ⟨count, s₁⟩ := result
  rw [run_bind_done h₁ hcount]
  obtain ⟨hn, rfl⟩ := hincrby_eq_some hcount
  have hs₁ := sameStatus_hset s id (fun h => { h with currentRetries := some (.int count) })
    (by intro; rfl) (by intro; rfl)
  generalize (s.hset id fun h => { h with currentRetries := some (.int count) }) = t₁ at hs₁ ⊢
  cases h₂ : spend rest₁ with
  | none =>
      rw [run_write_spent h₂]
      exact .of_sameStatus hs₁ (by simp [reaches_succ h₁, not_reaches_succ h₂])
        (by simp [reaches_succ h₁, not_reaches_succ h₂])
  | some rest₂ =>
  rw [run_write_next h₂]
  -- From here on the job has failed, and what is left to decide is its entry.
  have hr₂ : ∀ n, Reaches budget (n + 2) ↔ Reaches rest₂ n := fun n => by
    rw [reaches_succ h₁, reaches_succ h₂]
  have hdone : (s.nextRetries id).isSome ∧ Reaches budget 2 := ⟨by simp [hn], (hr₂ 0).mpr (by simp)⟩
  have hpart : ∀ {t : Store}, SamePlaces s t → t.dlq = s.dlq →
      t.status id = some JobStatus.Failed.asStr → ¬ Reaches budget 4 →
      Dead id (fun n => (s.nextRetries id).isSome ∧ Reaches budget n) s t :=
    fun hp hd hs hno => ⟨hp.active, hp.queues, fun _ => hs, fun h => absurd hdone h, by
      rw [inDlq_congr hd]
      tauto⟩
  obtain ⟨t₂, ht₂⟩ : ∃ t₂, (t₁.hset id fun h => { h with
      status := some JobStatus.Failed.asStr
      lastError := some errorMessage
      completionTime := some (.val completionTime) }) = t₂ := ⟨_, rfl⟩
  have hp₂ : SamePlaces s t₂ := ht₂ ▸ hs₁.places.trans (samePlaces_hset t₁ id _)
  have hd₂ : t₂.dlq = s.dlq := ht₂ ▸ (dlq_hset t₁ id _).trans hs₁.dlq
  have hf₂ : t₂.status id = some JobStatus.Failed.asStr := by rw [← ht₂, status_hset]
  rw [ht₂]
  cases h₃ : spend rest₂ with
  | none =>
      rw [run_write_spent h₃]
      exact hpart hp₂ hd₂ hf₂ (by simp [hr₂, not_reaches_succ h₃])
  | some rest₃ =>
  rw [run_write_next h₃]
  have hevent := sameStatus_xadd t₂ id (failedEvent id)
  have hp₃ := hp₂.trans hevent.places
  have hd₃ := hevent.dlq.trans hd₂
  have hf₃ := hevent.status.trans hf₂
  cases h₄ : spend rest₃ with
  | none =>
      rw [run_write_spent h₄]
      exact hpart hp₃ hd₃ hf₃ (by simp [hr₂, reaches_succ h₃, not_reaches_succ h₄])
  | some rest₄ =>
  rw [run_write_next h₄]
  have htail := (keeps_sameStatus_tail id ((t₂.xadd id (failedEvent id)).lpush dlqKey id) dlqTtl
    uniqueLockKey count).run rest₄ (.refl id _)
  have hp₅ := (hp₃.trans (samePlaces_lpush _ dlqKey id)).trans htail.places
  refine ⟨hp₅.active, hp₅.queues, fun _ => ?_, fun h => absurd hdone h, ?_⟩
  · rw [htail.status, status_lpush, hf₃]
  · rw [inDlq_congr htail.dlq]
    refine iff_of_true (inDlq_lpush _ _ _) (.inr ⟨by simp [hn], ?_⟩)
    simp [hr₂, reaches_succ h₃, reaches_succ h₄]

-- Saving a result completes the job, whether or not its expiry is taken.
structure Completed (id : JobId) (s t : Store) : Prop where
  active : t.active = s.active
  status : t.status id = some JobStatus.Completed.asStr
  result : (t.result id).isSome

theorem Completed.trans {id : JobId} {s t u : Store} (h : Completed id s t)
    (hs : SameStatus id t u) : Completed id s u :=
  ⟨hs.places.active.trans h.active, hs.status.trans h.status, hs.result ▸ h.result⟩

theorem completed_recordResult (id : JobId) (value : Json) (completionTime : DateTime)
    (s : Store) : Completed id s (Pipelines.recordResult id value completionTime s) := by
  refine Completed.trans (t := s.hset id _) ⟨(samePlaces_hset s id _).active, ?_, ?_⟩
    (sameStatus_xadd _ id _)
  · rw [status_hset]
  · simp [Store.result]

theorem completed_saveJobResult (id : JobId) (value : Json) (ttlSeconds : Int)
    (completionTime : DateTime) (s : Store) :
    Completed id s (Pipelines.saveJobResult id value ttlSeconds completionTime s).2 := by
  have hrecord := completed_recordResult id value completionTime s
  simp only [Pipelines.saveJobResult]
  split_ifs
  · exact (hrecord.trans (sameStatus_expireJob _ id _)).trans (sameStatus_expireEvents _ id _)
  · exact hrecord
  · exact (hrecord.trans (sameStatus_persistJob _ id)).trans (sameStatus_persistEvents _ id)
  · exact hrecord

end Rrq.Store
