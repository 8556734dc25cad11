import Rrq.Store.Requeue

-- What no command after the creation of a job changes.

namespace Rrq.Store

-- Every hash keeps its definition, and none disappears.
structure SameDefinitions (s t : Store) : Prop where
  definition : ∀ id, ((t.hash id).getD {}).definition = ((s.hash id).getD {}).definition
  present : ∀ id, (s.hash id).isSome → (t.hash id).isSome

section Jobs

variable {s t u : Store}

namespace SameDefinitions

theorem refl (s : Store) : SameDefinitions s s := ⟨fun _ => rfl, fun _ => id⟩

theorem trans (hst : SameDefinitions s t) (htu : SameDefinitions t u) : SameDefinitions s u :=
  ⟨fun id => (htu.definition id).trans (hst.definition id),
    fun id h => htu.present id (hst.present id h)⟩

theorem of_jobs (h : t.jobs = s.jobs) : SameDefinitions s t := by
  constructor <;> intro id <;> simp [hash, h]

-- One hash is written, and keeps its definition.
theorem of_hash {id : JobId} (hothers : ∀ other, other ≠ id → t.hash other = s.hash other)
    (hd : ((t.hash id).getD {}).definition = ((s.hash id).getD {}).definition)
    (hp : (s.hash id).isSome → (t.hash id).isSome) : SameDefinitions s t := by
  constructor
  · intro other
    by_cases ho : other = id
    · exact ho ▸ hd
    · rw [hothers other ho]
  · intro other h
    by_cases ho : other = id
    · exact ho ▸ hp (ho ▸ h)
    · rwa [hothers other ho]

end SameDefinitions

variable (s) (id : JobId)

theorem sameDefinitions_hset {fields : JobHash → JobHash}
    (hf : ∀ h, (fields h).definition = h.definition) : SameDefinitions s (s.hset id fields) := by
  refine .of_hash (fun other ho => (sameJob_hset ho s fields).hash) ?_ ?_
  · rw [hash_hset, Option.getD_some, hf]
  · simp

theorem sameDefinitions_hdel {fields : JobHash → JobHash}
    (hf : ∀ h, (fields h).definition = h.definition) : SameDefinitions s (s.hdel id fields) := by
  refine .of_hash (fun other ho => (sameJob_hdel ho s fields).hash) ?_ ?_
  · rw [hash_hdel]
    cases s.hash id <;> simp [hf]
  · simp

theorem frame_sameDefinitions : Frame (· ≠ .definition) (fun _ => True) SameDefinitions where
  refl := .refl
  trans _ _ _ := SameDefinitions.trans
  define h := absurd rfl h
  hset _ s id _ _ hf := sameDefinitions_hset s id hf
  hdel _ s id _ _ hf := sameDefinitions_hdel s id hf
  expireJob _ s id seconds _ := by constructor <;> intro other <;> simp
  persistJob _ s id _ := by constructor <;> intro other <;> simp
  zadd _ s _ _ _ _ := .of_jobs rfl
  zrem _ s _ _ _ := .of_jobs rfl
  zaddActive _ s _ _ _ _ := .of_jobs rfl
  zremActive _ s _ _ _ := .of_jobs rfl
  setLock _ s _ _ _ _ := .of_jobs rfl
  lpush _ s _ _ _ := .of_jobs rfl
  setHealth _ s _ _ := .of_jobs rfl
  setEvents s _ _ := .of_jobs rfl
  setUniqueLock _ s _ _ := .of_jobs rfl
  setIdempotency s _ _ := .of_jobs rfl
  setRateLimit s _ _ := .of_jobs rfl
  setDebounce s _ _ := .of_jobs rfl

end Jobs

-- Every hash that names a job names its own.
def WellNamed (s : Store) : Prop := ∀ id h, s.hash id = some h → h.id.getD id = id

theorem SameDefinitions.wellNamed {s t : Store} (h : SameDefinitions s t) (hs : s.WellNamed) :
    t.WellNamed := by
  intro id after hafter
  have hd := congrArg JobHash.id (h.definition id)
  simp only [hafter, Option.getD_some, JobHash.definition] at hd
  rw [hd]
  cases hbefore : s.hash id with
  | none => rfl
  | some before => exact hs id before hbefore

-- Writes to a hash leave the locks alone.

section Locks

variable (s : Store) (id : JobId)

theorem locks_hset (fields : JobHash → JobHash) : (s.hset id fields).locks = s.locks := by
  unfold hset
  split <;> rfl

theorem locks_hdel (fields : JobHash → JobHash) : (s.hdel id fields).locks = s.locks := by
  unfold hdel
  split <;> rfl

theorem locks_expireJob (seconds : Int) : (s.expireJob id seconds).locks = s.locks := by
  unfold expireJob
  split <;> rfl

theorem locks_persistJob : (s.persistJob id).locks = s.locks := by
  unfold persistJob
  split <;> rfl

end Locks

-- No lock becomes a key of another type.
def WellLocked (s t : Store) : Prop := ∀ id, s.lock id ≠ some .malformed → t.lock id ≠ some .malformed

theorem WellLocked.of_locks {s t : Store} (h : t.locks = s.locks) : WellLocked s t := by
  intro id hid
  unfold lock at hid ⊢
  rwa [h]

-- Writes that are not to a lock leave the locks alone.
theorem frame_sameLocks : Frame (· ≠ .lock) (fun _ => True) fun s t => t.locks = s.locks where
  refl _ := rfl
  trans _ _ _ hst htu := htu.trans hst
  define _ s id _ _ := locks_hset s id _
  hset _ s id _ _ _ := locks_hset s id _
  hdel _ s id _ _ _ := locks_hdel s id _
  expireJob _ s id _ _ := locks_expireJob s id _
  persistJob _ s id _ := locks_persistJob s id
  zadd _ _ _ _ _ _ := rfl
  zrem _ _ _ _ _ := rfl
  zaddActive _ _ _ _ _ _ := rfl
  zremActive _ _ _ _ _ := rfl
  setLock h := absurd rfl h
  lpush _ _ _ _ _ := rfl
  setHealth _ _ _ _ := rfl
  setEvents _ _ _ := rfl
  setUniqueLock _ _ _ _ := rfl
  setIdempotency _ _ _ := rfl
  setRateLimit _ _ _ := rfl
  setDebounce _ _ _ := rfl

theorem wellLocked_setLock {s : Store} {id : JobId} {cell : Option (Volatile LockCell)}
    (hcell : cell.map Volatile.value ≠ some LockCell.malformed) :
    WellLocked s (s.setLock id cell) := by
  intro other ho
  by_cases heq : other = id
  · subst heq
    simpa [lock] using hcell
  · simpa [lock, heq] using ho

theorem frame_wellLocked : Frame (fun _ => True) (fun _ => True) WellLocked where
  refl _ _ h := h
  trans _ _ _ hst htu id h := htu id (hst id h)
  define _ s id _ _ := .of_locks (locks_hset s id _)
  hset _ s id _ _ _ := .of_locks (locks_hset s id _)
  hdel _ s id _ _ _ := .of_locks (locks_hdel s id _)
  expireJob _ s id _ _ := .of_locks (locks_expireJob s id _)
  persistJob _ s id _ := .of_locks (locks_persistJob s id)
  zadd _ _ _ _ _ _ := .of_locks rfl
  zrem _ _ _ _ _ := .of_locks rfl
  zaddActive _ _ _ _ _ _ := .of_locks rfl
  zremActive _ _ _ _ _ := .of_locks rfl
  setLock _ _ _ _ _ hcell := wellLocked_setLock hcell
  lpush _ _ _ _ _ := .of_locks rfl
  setHealth _ _ _ _ := .of_locks rfl
  setEvents _ _ _ := .of_locks rfl
  setUniqueLock _ _ _ _ := .of_locks rfl
  setIdempotency _ _ _ := .of_locks rfl
  setRateLimit _ _ _ := .of_locks rfl
  setDebounce _ _ _ := .of_locks rfl

end Rrq.Store
