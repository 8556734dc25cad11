import Rrq.Store.Definition

-- The unique locks: which job each of them names, and what becomes of that when jobs move on.

namespace Rrq

-- A job that has come to its end.
def JobHash.Terminal (h : JobHash) : Prop :=
  h.status = some JobStatus.Completed.asStr ∨ h.status = some JobStatus.Failed.asStr ∨
    h.status = some JobStatus.Cancelled.asStr

instance (h : JobHash) : Decidable h.Terminal := inferInstanceAs (Decidable (_ ∨ _ ∨ _))

namespace Store

open Script Scripts

def Names (s : Store) (key : String) (id : JobId) : Prop :=
  (s.uniqueLocks key).map Volatile.value = some id

instance (s : Store) (key : String) (id : JobId) : Decidable (s.Names key id) :=
  inferInstanceAs (Decidable (_ = _))

def Terminal (s : Store) (id : JobId) : Prop := ∃ h ∈ s.hash id, h.Terminal

instance (s : Store) (id : JobId) : Decidable (s.Terminal id) :=
  inferInstanceAs (Decidable (∃ h ∈ s.hash id, h.Terminal))

-- The job is on its way under this unique key, and its hash does not expire.
def Open (s : Store) (key : String) (id : JobId) : Prop :=
  ∃ cell, s.jobs id = some cell ∧ cell.expireAt = none ∧ cell.value.jobUniqueKey = some key ∧
    ¬ cell.value.Terminal

-- The unique locks of the job are those of a job on its way.
def LocksOpen (s : Store) (id : JobId) : Prop := ∀ key, s.Names key id → s.Open key id

def Unnamed (s : Store) (id : JobId) : Prop := ∀ key, ¬ s.Names key id

section Names

variable {s t u : Store} {id : JobId}

theorem Names.unique {key : String} {other : JobId} (h : s.Names key id) (ho : s.Names key other) :
    id = other := Option.some.inj (h.symm.trans ho)

theorem Unnamed.locksOpen (h : s.Unnamed id) : s.LocksOpen id :=
  fun key hkey => absurd hkey (h key)

theorem LocksOpen.unnamed (h : s.LocksOpen id) (ht : s.Terminal id) : s.Unnamed id := by
  intro key hkey
  obtain ⟨cell, hcell, -, -, hopen⟩ := h key hkey
  obtain ⟨raw, hraw, hterminal⟩ := ht
  have hvalue : cell.value = raw := by simpa [hash, hcell] using hraw
  exact hopen (hvalue ▸ hterminal)

theorem names_congr (h : t.uniqueLocks = s.uniqueLocks) (key : String) :
    t.Names key id ↔ s.Names key id := by
  unfold Names
  rw [h]

theorem open_congr (h : t.jobs id = s.jobs id) (key : String) : t.Open key id ↔ s.Open key id := by
  unfold Open
  rw [h]

-- A lock that is deleted names nobody, and the others name whom they named.
theorem names_release {key other : String} :
    (s.setUniqueLock key none).Names other id ↔ other ≠ key ∧ s.Names other id := by
  unfold Names
  by_cases hk : other = key
  · subst hk
    simp
  · simp [hk]

end Names

-- The job gains no unique lock, and if it is on its way it stays so.
structure Tame (id : JobId) (s t : Store) : Prop where
  names : ∀ key, t.Names key id → s.Names key id
  open' : ∀ key, s.Open key id → t.Open key id

namespace Tame

variable {id : JobId} {s t u : Store}

theorem refl (id : JobId) (s : Store) : Tame id s s := ⟨fun _ h => h, fun _ h => h⟩

theorem trans (hst : Tame id s t) (htu : Tame id t u) : Tame id s u where
  names key h := hst.names key (htu.names key h)
  open' key h := htu.open' key (hst.open' key h)

theorem locksOpen (h : Tame id s t) (hs : s.LocksOpen id) : t.LocksOpen id :=
  fun key hkey => h.open' key (hs key (h.names key hkey))

theorem unnamed (h : Tame id s t) (hs : s.Unnamed id) : t.Unnamed id :=
  fun key hkey => hs key (h.names key hkey)

theorem of_same (hj : t.jobs id = s.jobs id) (hu : t.uniqueLocks = s.uniqueLocks) :
    Tame id s t where
  names key := (names_congr hu key).mp
  open' key := (open_congr hj key).mpr

end Tame

-- Writes that are not to a unique lock leave the unique locks alone.
section Unique

variable (s : Store) (id : JobId)

theorem uniqueLocks_hset (fields : JobHash → JobHash) :
    (s.hset id fields).uniqueLocks = s.uniqueLocks := by
  unfold hset
  split <;> rfl

theorem uniqueLocks_hdel (fields : JobHash → JobHash) :
    (s.hdel id fields).uniqueLocks = s.uniqueLocks := by
  unfold hdel
  split <;> rfl

theorem uniqueLocks_expireJob (seconds : Int) :
    (s.expireJob id seconds).uniqueLocks = s.uniqueLocks := by
  unfold expireJob
  split <;> rfl

theorem uniqueLocks_persistJob : (s.persistJob id).uniqueLocks = s.uniqueLocks := by
  unfold persistJob
  split <;> rfl

end Unique

theorem frame_sameUnique :
    Frame (· ≠ .unique) (fun _ => True) fun s t => t.uniqueLocks = s.uniqueLocks where
  refl _ := rfl
  trans _ _ _ hst htu := htu.trans hst
  define _ s id _ _ := uniqueLocks_hset s id _
  hset _ s id _ _ _ := uniqueLocks_hset s id _
  hdel _ s id _ _ _ := uniqueLocks_hdel s id _
  expireJob _ s id _ _ := uniqueLocks_expireJob s id _
  persistJob _ s id _ := uniqueLocks_persistJob s id
  zadd _ _ _ _ _ _ := rfl
  zrem _ _ _ _ _ := rfl
  zaddActive _ _ _ _ _ _ := rfl
  zremActive _ _ _ _ _ := rfl
  setLock _ _ _ _ _ _ := rfl
  lpush _ _ _ _ _ := rfl
  setHealth _ _ _ _ := rfl
  setEvents _ _ _ := rfl
  setUniqueLock h := absurd rfl h
  setIdempotency _ _ _ := rfl
  setRateLimit _ _ _ := rfl
  setDebounce _ _ _ := rfl

-- No write moves the clock.
theorem frame_sameNow : Frame (fun _ => True) (fun _ => True) fun s t => t.now = s.now where
  refl _ := rfl
  trans _ _ _ hst htu := htu.trans hst
  define _ s id _ _ := by
    unfold hset
    split <;> rfl
  hset _ s id _ _ _ := by
    unfold hset
    split <;> rfl
  hdel _ s id _ _ _ := by
    unfold hdel
    split <;> rfl
  expireJob _ s id _ _ := by
    unfold expireJob
    split <;> rfl
  persistJob _ s id _ := by
    unfold persistJob
    split <;> rfl
  zadd _ _ _ _ _ _ := rfl
  zrem _ _ _ _ _ := rfl
  zaddActive _ _ _ _ _ _ := rfl
  zremActive _ _ _ _ _ := rfl
  setLock _ _ _ _ _ _ := rfl
  lpush _ _ _ _ _ := rfl
  setHealth _ _ _ _ := rfl
  setEvents _ _ _ := rfl
  setUniqueLock _ _ _ _ := rfl
  setIdempotency _ _ _ := rfl
  setRateLimit _ _ _ := rfl
  setDebounce _ _ _ := rfl

-- Writes that are not to a hash leave the hashes alone.
theorem frame_sameJobs :
    Frame (fun kind => kind ≠ .hash ∧ kind ≠ .definition) (fun _ => True)
      fun s t => t.jobs = s.jobs where
  refl _ := rfl
  trans _ _ _ hst htu := htu.trans hst
  define h := absurd rfl h.2
  hset h := absurd rfl h.1
  hdel h := absurd rfl h.1
  expireJob h := absurd rfl h.1
  persistJob h := absurd rfl h.1
  zadd _ _ _ _ _ _ := rfl
  zrem _ _ _ _ _ := rfl
  zaddActive _ _ _ _ _ _ := rfl
  zremActive _ _ _ _ _ := rfl
  setLock _ _ _ _ _ _ := rfl
  lpush _ _ _ _ _ := rfl
  setHealth _ _ _ _ := rfl
  setEvents _ _ _ := rfl
  setUniqueLock _ _ _ _ := rfl
  setIdempotency _ _ _ := rfl
  setRateLimit _ _ _ := rfl
  setDebounce _ _ _ := rfl

-- A field that is set keeps a job on its way if it keeps the definition and ends nothing.
theorem tame_hset (id other : JobId) (s : Store) {fields : JobHash → JobHash}
    (hd : ∀ h, (fields h).definition = h.definition)
    (ht : ∀ h, ¬ h.Terminal → ¬ (fields h).Terminal) : Tame id s (s.hset other fields) where
  names key := (names_congr (uniqueLocks_hset s other fields) key).mp
  open' key hopen := by
    by_cases ho : id = other
    · subst ho
      obtain ⟨cell, hcell, hexpire, hkey, hopen⟩ := hopen
      refine ⟨{ cell with value := fields cell.value }, ?_, hexpire, ?_, ht _ hopen⟩
      · simp [hset, hcell]
      · have hsame := congrArg JobHash.jobUniqueKey (hd cell.value)
        simp only [JobHash.definition] at hsame
        rw [hsame, hkey]
    · exact (open_congr (sameJob_hset ho s fields).cell key).mpr hopen

-- The scripts that move a job on.

theorem tame_claimOne (id : JobId) (s : Store) (args : ClaimArgs) (other : JobId) :
    Keeps (Tame id s) (claimOne args other) := by
  refine .bind (.ask _) fun present => .ite ?_ ?_
  · refine .bind (.ask _) fun seconds => .bind ?_ fun lockOk => .ite (.bind ?_ ?_) (.pure _)
    · refine Keeps.call fun t taken after heq ht => ht.trans ?_
      unfold setLockNx at heq
      split_ifs at heq
      · obtain ⟨-, rfl⟩ := Prod.mk.injEq .. ▸ Option.some.inj heq
        exact .refl id t
      · obtain ⟨-, rfl⟩ := Prod.mk.injEq .. ▸ Option.some.inj heq
        exact .of_same rfl rfl
    · refine Keeps.call fun t removed after heq ht => ht.trans ?_
      obtain ⟨-, rfl⟩ := Prod.mk.injEq .. ▸ Option.some.inj heq
      exact .of_same rfl rfl
    · refine fun removed => .ite ?_ ?_
      · refine .bind (.write fun t ht => ht.trans ?_) fun _ =>
          .bind (.write fun t ht => ht.trans (.of_same rfl rfl)) fun _ => .pure _
        apply tame_hset
        · intro h
          rfl
        · intro h _
          simp [JobHash.Terminal, JobStatus.asStr]
      · exact .bind (.write fun t ht => ht.trans (.of_same rfl rfl)) fun _ => .pure _
  · exact .bind (.write fun t ht => ht.trans (.of_same rfl rfl)) fun _ => .pure _

theorem tame_claimReady (id : JobId) (s : Store) (args : ClaimArgs) :
    Keeps (Tame id s) (claimReady args) := by
  have heach : ∀ candidates claimed, Keeps (Tame id s) (claimEach args candidates claimed) := by
    intro candidates
    induction candidates with
    | nil => exact fun claimed => .pure _
    | cons other candidates ih =>
        intro claimed
        exact .ite (.pure _) (.bind (tame_claimOne id s args other) fun taken => ih _)
  exact .ite (.pure _) (.ite (.pure _) (.bind (.ask _) fun candidates => heach candidates []))

theorem tame_retry (id other : JobId) (s : Store) (queueKey : QueueKey) (score : ℚ)
    (errorMessage : String) : Keeps (Tame id s) (retry other queueKey score errorMessage .Retrying) := by
  refine .bind (Keeps.call fun t count after heq ht => ht.trans ?_) fun count => ?_
  · obtain ⟨n, -, hn⟩ := Option.map_eq_some_iff.mp heq
    obtain ⟨-, rfl⟩ := Prod.mk.injEq .. ▸ hn
    apply tame_hset
    · intro h
      rfl
    · exact fun h hopen => hopen
  · refine .bind (.write fun t ht => ht.trans ?_) fun _ =>
      .bind (.write fun t ht => ht.trans (.of_same rfl rfl)) fun _ => .pure _
    apply tame_hset
    · intro h
      rfl
    · intro h _
      simp [JobHash.Terminal, JobStatus.asStr]

-- A hash that is created was not there before.
theorem run_enqueue (id : JobId) (s : Store) (queueKey : QueueKey) (mapping : JobHash) (score : ℚ) :
    (enqueue id queueKey mapping score).run none s =
      if (s.jobs id).isSome then (some 0, s)
      else (some 1, (s.setJob id (some { value := mapping })).zadd queueKey id score) := by
  unfold enqueue
  rw [run_ask_bind]
  by_cases hp : (s.jobs id).isSome
  · rw [if_pos hp, if_pos hp]
    rfl
  · rw [if_neg hp, if_neg hp, run_write_bind, run_write_bind]
    have hnone : s.jobs id = none := by simpa using hp
    have hcreate : (s.hset id fun _ => mapping) = s.setJob id (some { value := mapping }) := by
      simp [hset, hnone]
    rw [hcreate]
    rfl

theorem tame_create (id other : JobId) {s : Store} (hnone : s.jobs other = none)
    (queueKey : QueueKey) (mapping : JobHash) (score : ℚ) :
    Tame id s ((s.setJob other (some { value := mapping })).zadd queueKey other score) where
  names _ h := h
  open' key hopen := by
    have hne : id ≠ other := by
      rintro rfl
      obtain ⟨cell, hcell, -⟩ := hopen
      rw [hnone] at hcell
      cases hcell
    refine (open_congr ?_ key).mpr hopen
    simp [zadd, hne]

-- The DLQ script deletes the unique lock that it is given with its last call.

def withoutUnique (s : Store) : Option String → String → Option (Volatile JobId)
  | some key => Function.update s.uniqueLocks key none
  | none => s.uniqueLocks

-- Whether the script has come so far.
def uniqueLocksAfter (s : Store) (uniqueLockKey : Option String) (done : Prop) [Decidable done] :
    String → Option (Volatile JobId) :=
  if done then s.withoutUnique uniqueLockKey else s.uniqueLocks

section MoveToDlq

variable {uniqueLockKey : Option String} {calls : Nat} {budget : Budget} {s : Store}

theorem withoutUnique_congr {t : Store} (h : t.uniqueLocks = s.uniqueLocks) :
    t.withoutUnique uniqueLockKey = s.withoutUnique uniqueLockKey := by
  cases uniqueLockKey with
  | none => exact h
  | some key => exact congrArg (Function.update · key none) h

-- A call before the last one.
theorem uniqueLocks_step {α : Type} (command : Store → Option (α × Store))
    {next : α → Script Store Int} {value : α} {t : Store} (hc : command s = some (value, t))
    (hu : t.uniqueLocks = s.uniqueLocks)
    (hn : ∀ rest, ((next value).run rest t).2.uniqueLocks =
      t.uniqueLocksAfter uniqueLockKey (Reaches rest calls)) :
    ((call command >>= next).run budget s).2.uniqueLocks =
      s.uniqueLocksAfter uniqueLockKey (Reaches budget (calls + 1)) := by
  unfold uniqueLocksAfter
  cases hs : spend budget with
  | none =>
      rw [run_bind_spent hs, if_neg (not_reaches_succ hs calls)]
  | some rest =>
      rw [run_bind_done hs hc, hn rest]
      unfold uniqueLocksAfter
      simp only [reaches_succ hs, hu, withoutUnique_congr hu]

theorem uniqueLocks_release (count : Int) :
    ((releaseUnique uniqueLockKey >>= fun _ => pure count).run budget s).2.uniqueLocks =
      s.uniqueLocksAfter uniqueLockKey (Reaches budget 1) := by
  unfold uniqueLocksAfter
  cases uniqueLockKey with
  | none => simp [releaseUnique, withoutUnique]
  | some key =>
      cases hs : spend budget with
      | none =>
          rw [if_neg (not_reaches_succ hs 0)]
          exact congrArg (fun r : Option Int × Store => r.2.uniqueLocks) (run_write_spent hs)
      | some rest =>
          rw [if_pos ((reaches_succ hs 0).mpr (reaches_zero rest))]
          exact congrArg (fun r : Option Int × Store => r.2.uniqueLocks) (run_write_next hs)

-- The calls of the DLQ script up to the last one.
def dlqCalls (dlqTtl : Int) : Nat := if 0 < dlqTtl then 7 else 5

theorem moveToDlq_refused {id : JobId} (h : s.nextRetries id = none) (dlqKey message : String)
    (completionTime : DateTime) (dlqTtl : Int) (uniqueLockKey : Option String) (budget : Budget) :
    ((moveToDlq id dlqKey message completionTime dlqTtl uniqueLockKey).run budget s).2 = s := by
  rw [show (moveToDlq id dlqKey message completionTime dlqTtl uniqueLockKey).run budget s = _
    from run_pcall_bind _ _ budget s]
  have hrefused : s.hincrby id = none := by simp [hincrby, h]
  unfold moveToDlqBody
  rw [run_bind_refused hrefused]

theorem uniqueLocks_moveToDlq (id : JobId) (dlqKey message : String) (completionTime : DateTime)
    (dlqTtl : Int) (uniqueLockKey : Option String) (budget : Budget) (s : Store)
    (hcount : (s.nextRetries id).isSome) :
    ((moveToDlq id dlqKey message completionTime dlqTtl uniqueLockKey).run budget s).2.uniqueLocks =
      s.uniqueLocksAfter uniqueLockKey (Reaches budget (dlqCalls dlqTtl)) := by
  rw [show (moveToDlq id dlqKey message completionTime dlqTtl uniqueLockKey).run budget s = _
    from run_pcall_bind _ _ budget s]
  obtain ⟨count, hcount⟩ := Option.isSome_iff_exists.mp hcount
  have hincr : s.hincrby id =
      some (count, s.hset id fun h => { h with currentRetries := some (.int count) }) := by
    simp [hincrby, hcount]
  show ((moveToDlqBody id dlqKey message completionTime dlqTtl uniqueLockKey).run budget
    s).2.uniqueLocks = _
  unfold moveToDlqBody expireDlq
  by_cases httl : 0 < dlqTtl
  · have hcalls : dlqCalls dlqTtl = 7 := if_pos httl
    rw [hcalls, if_pos httl]
    refine uniqueLocks_step (fun s => s.hincrby id) hincr (uniqueLocks_hset s id _) fun _ => ?_
    refine uniqueLocks_step _ rfl (uniqueLocks_hset _ id _) fun _ => ?_
    refine uniqueLocks_step _ rfl (frame_sameUnique.xadd _ _) fun _ => ?_
    refine uniqueLocks_step _ rfl rfl fun _ => ?_
    rw [bind_assoc]
    refine uniqueLocks_step _ rfl (uniqueLocks_expireJob _ id dlqTtl) fun _ => ?_
    refine uniqueLocks_step _ rfl (frame_sameUnique.expireEvents _ dlqTtl) fun _ => ?_
    exact uniqueLocks_release count
  · have hcalls : dlqCalls dlqTtl = 5 := if_neg httl
    rw [hcalls, if_neg httl]
    refine uniqueLocks_step (fun s => s.hincrby id) hincr (uniqueLocks_hset s id _) fun _ => ?_
    refine uniqueLocks_step _ rfl (uniqueLocks_hset _ id _) fun _ => ?_
    refine uniqueLocks_step _ rfl (frame_sameUnique.xadd _ _) fun _ => ?_
    refine uniqueLocks_step _ rfl rfl fun _ => ?_
    exact uniqueLocks_release count

end MoveToDlq

end Store

namespace Cmd

open Store Script Scripts

-- The commands that neither end the job nor take a unique lock for it.
def Calm (id : JobId) : Cmd → Prop
  | atomicMoveJobToDlq other _ _ _ _ _ => other ≠ id
  | moveJobToDlq other _ _ _ => other ≠ id
  | saveJobResult other _ _ _ => other ≠ id
  | updateJobStatus other _ => other ≠ id
  | acquireUniqueJobLock _ other _ => other ≠ id
  | atomicRetryJob _ _ _ _ status => status = .Retrying
  | markJobPending _ _ => False
  | atomicRequeueJob _ => False
  | producerEnqueue _ _ _ => False
  | producerRateLimit _ _ _ => False
  | producerDebounce _ _ _ => False
  | _ => True

-- Commands that write to no hash and to no unique lock.
theorem tame_aside {c : Cmd} (id : JobId) (hk : ∀ kind ∈ c.kinds, kind ≠ .hash ∧ kind ≠ .definition)
    (hu : ∀ kind ∈ c.kinds, kind ≠ .unique) (page : Nat × List String) (s : Store) :
    Tame id s (c.exec .none page s).2 := by
  apply Tame.of_same
  · exact congrFun (frame_exec frame_sameJobs hk (fun _ _ => trivial) .none page s) id
  · exact frame_exec frame_sameUnique hu (fun _ _ => trivial) .none page s

-- Commands about another job that write to no unique lock.
theorem tame_other {c : Cmd} {id other : JobId} (hc : c.concerns = (· = other)) (ho : other ≠ id)
    (hu : ∀ kind ∈ c.kinds, kind ≠ .unique) (page : Nat × List String) (s : Store) :
    Tame id s (c.exec .none page s).2 := by
  have hconcerns : ∀ found, c.concerns found → id ≠ found := by
    intro found hfound heq
    rw [hc] at hfound
    exact ho (heq.trans hfound).symm
  apply Tame.of_same
  · exact (frame_exec (frame_sameJob id) (fun _ _ => trivial) hconcerns .none page s).cell
  · exact frame_exec frame_sameUnique hu (fun _ _ => trivial) .none page s

-- The locks that the job has after the commands that write to a unique lock.

theorem names_withoutUnique {s : Store} {id : JobId} {uniqueLockKey : Option String} {t : Store}
    (ht : t.uniqueLocks = s.withoutUnique uniqueLockKey) {key : String} :
    t.Names key id ↔ uniqueLockKey ≠ some key ∧ s.Names key id := by
  cases uniqueLockKey with
  | none =>
      rw [names_congr (s := s) ht]
      simp
  | some released =>
      rw [names_congr (s := s.setUniqueLock released none) ht, names_release]
      simp [eq_comm]

-- A job that fails gives up the one unique lock that may name it.
theorem unnamed_withoutUnique {s : Store} {id : JobId} {uniqueLockKey : Option String}
    (hnamed : ∀ key, s.Names key id → uniqueLockKey = some key) {t : Store}
    (ht : t.uniqueLocks = s.withoutUnique uniqueLockKey) : t.Unnamed id := by
  intro key hkey
  obtain ⟨hne, hbefore⟩ := (names_withoutUnique ht).mp hkey
  exact hne (hnamed key hbefore)

-- Without a fault the DLQ script does all or nothing.
theorem moveToDlq_all {other : JobId} {page : Nat × List String} {dlqKey message : String}
    {time : DateTime} {ttl : Int} {uniqueLockKey : Option String} {s t : Store}
    {answer : Except RedisError Int}
    (h : (atomicMoveJobToDlq other dlqKey message time ttl uniqueLockKey).exec .none page s =
      (answer, t)) : t = s ∨ t.uniqueLocks = s.withoutUnique uniqueLockKey := by
  have ht : t = ((moveToDlq other dlqKey message time ttl uniqueLockKey).run none s).2 :=
    (congrArg Prod.snd h).symm
  rw [ht]
  cases hcount : s.nextRetries other with
  | none => exact .inl (moveToDlq_refused hcount dlqKey message time ttl uniqueLockKey none)
  | some count =>
      have hlocks := uniqueLocks_moveToDlq other dlqKey message time ttl uniqueLockKey none s
        (Option.isSome_iff_exists.mpr ⟨count, hcount⟩)
      rw [uniqueLocksAfter, if_pos (reaches_none _)] at hlocks
      exact .inr hlocks

theorem tame_release (id : JobId) (key : String) (s : Store) :
    Tame id s (s.setUniqueLock key none) :=
  ⟨fun _ h => (names_release.mp h).2, fun _ h => h⟩

-- A unique lock is taken only when it is free.
theorem acquireUniqueJobLock_inv {key : String} {id : JobId} {ttlSeconds : Int} {fault : Fault}
    {page : Nat × List String} {s t : Store} {taken : Bool}
    (h : (acquireUniqueJobLock key id ttlSeconds).exec fault page s = (.ok taken, t)) :
    (taken = false ∧ (s.uniqueLocks key).isSome ∧ t = s) ∨
      (taken = true ∧ s.uniqueLocks key = none ∧ t = s.setUniqueLock key
        (some { value := id, expireAt := some (s.now + ttlSeconds * 1000) })) := by
  cases fault with
  | none =>
      simp only [exec, single] at h
      split_ifs at h with httl htaken
      · obtain ⟨hanswer, rfl⟩ := Prod.mk.injEq .. ▸ h
        obtain rfl := Except.ok.inj hanswer
        exact .inl ⟨rfl, htaken, rfl⟩
      · obtain ⟨hanswer, rfl⟩ := Prod.mk.injEq .. ▸ h
        obtain rfl := Except.ok.inj hanswer
        exact .inr ⟨rfl, by simpa using htaken, rfl⟩
      · cases h
  | refused => cases h
  | stops calls => cases h

theorem acquireUniqueJobLock_pos {key : String} {id : JobId} {ttlSeconds : Int} {fault : Fault}
    {page : Nat × List String} {s t : Store}
    (h : (acquireUniqueJobLock key id ttlSeconds).exec fault page s = (.ok true, t)) :
    0 < ttlSeconds := by
  cases fault with
  | none =>
      by_contra httl
      simp only [exec, single, httl, false_and, if_false] at h
      cases h
  | refused => cases h
  | stops calls => cases h

theorem acquireUniqueJobLock_error {key : String} {id : JobId} {ttlSeconds : Int} {fault : Fault}
    {page : Nat × List String} {s t : Store} {error : RedisError}
    (h : (acquireUniqueJobLock key id ttlSeconds).exec fault page s = (.error error, t)) : t = s := by
  cases fault with
  | none =>
      simp only [exec, single] at h
      split_ifs at h
      · cases h
      · cases h
      · exact (congrArg Prod.snd h).symm
  | refused => exact (congrArg Prod.snd h).symm
  | stops calls => exact (congrArg Prod.snd h).symm

theorem releaseUniqueJobLock_other {key released : String} (hne : key ≠ released) (fault : Fault)
    (page : Nat × List String) (s : Store) :
    ((releaseUniqueJobLock released).exec fault page s).2.uniqueLocks key = s.uniqueLocks key := by
  cases fault with
  | none => exact Function.update_of_ne hne _ _
  | refused => rfl
  | stops calls => rfl

theorem getLockTtl_free {key : String} {s t : Store} (hfree : s.uniqueLocks key = none) {fault : Fault}
    {page : Nat × List String} {remaining : Int}
    (h : (getLockTtl key).exec fault page s = (.ok remaining, t)) : remaining = 0 := by
  cases fault with
  | none =>
      obtain ⟨hanswer, -⟩ := Prod.mk.injEq .. ▸ h
      rw [← Except.ok.inj hanswer, hfree]
      rfl
  | refused => cases h
  | stops calls => cases h

-- A job is created only where there is none.
theorem atomicEnqueueJob_inv {id : JobId} {queue : QueueKey} {mapping : JobHash} {score : ℚ}
    {page : Nat × List String} {s t : Store} {created : Bool}
    (h : (atomicEnqueueJob id queue mapping score).exec .none page s = (.ok created, t)) :
    (created = false ∧ t = s) ∨ (created = true ∧ s.jobs id = none ∧
      t = (s.setJob id (some { value := mapping })).zadd queue id score) := by
  simp only [exec, script] at h
  rw [run_enqueue] at h
  split_ifs at h with hp
  · obtain ⟨hanswer, rfl⟩ := Prod.mk.injEq .. ▸ h
    obtain rfl := Except.ok.inj hanswer
    exact .inl ⟨rfl, rfl⟩
  · obtain ⟨hanswer, rfl⟩ := Prod.mk.injEq .. ▸ h
    obtain rfl := Except.ok.inj hanswer
    exact .inr ⟨rfl, by simpa using hp, rfl⟩

theorem tame_acquire {id other : JobId} (ho : other ≠ id) (key : String) (ttlSeconds : Int)
    (page : Nat × List String) (s : Store) :
    Tame id s ((acquireUniqueJobLock key other ttlSeconds).exec .none page s).2 := by
  simp only [exec, single]
  split_ifs with httl htaken
  · exact .refl id s
  · refine ⟨fun found h => ?_, fun _ h => h⟩
    by_cases hk : found = key
    · subst hk
      have heq : other = id := by simpa [reply, Names] using h
      exact absurd heq ho
    · simpa [reply, Names, hk] using h
  · exact .refl id s

theorem tame_enqueue (id other : JobId) (queue : QueueKey) (mapping : JobHash) (score : ℚ)
    (page : Nat × List String) (s : Store) :
    Tame id s ((atomicEnqueueJob other queue mapping score).exec .none page s).2 := by
  simp only [exec, script]
  rw [run_enqueue]
  split_ifs with hp
  · exact .refl id s
  · exact tame_create id other (by simpa using hp) queue mapping score

theorem tame_exec {c : Cmd} {id : JobId} (hc : c.Calm id) (page : Nat × List String) (s : Store) :
    Tame id s (c.exec .none page s).2 := by
  cases c
  case atomicClaimReadyJobs args => exact (tame_claimReady id s args).run none (.refl id s)
  case atomicRetryJob other queue score message status =>
    obtain rfl : status = .Retrying := hc
    exact (tame_retry id other s queue score message).run none (.refl id s)
  case updateJobNextScheduledRunTime other time =>
    simp only [exec, single, reply]
    apply tame_hset
    · intro h
      rfl
    · exact fun h hopen => hopen
  case atomicMoveJobToDlq other dlqKey message time ttl unique =>
    refine ⟨fun key h => ?_, fun key hopen => (open_congr ?_ key).mpr hopen⟩
    · obtain hsame | hunique := moveToDlq_all (Prod.mk.eta (p := exec .none page _ s)).symm
      · rwa [hsame] at h
      · exact ((names_withoutUnique hunique).mp h).2
    have hother : ∀ found, (atomicMoveJobToDlq other dlqKey message time ttl unique).concerns found →
        id ≠ found := fun found hfound heq => hc (heq.trans hfound).symm
    exact (frame_exec (frame_sameJob id) (fun _ _ => trivial) hother .none page s).cell
  case moveJobToDlq other dlqKey message time =>
    exact tame_other rfl hc (by simp [kinds]) page s
  case saveJobResult other result ttl time =>
    exact tame_other rfl hc (by simp [kinds]) page s
  case updateJobStatus other status =>
    exact tame_other rfl hc (by simp [kinds]) page s
  case acquireUniqueJobLock key other ttl => exact tame_acquire hc key ttl page s
  case releaseUniqueJobLock key => exact tame_release id key s
  case atomicEnqueueJob other queue mapping score =>
    exact tame_enqueue id other queue mapping score page s
  case markJobPending => exact hc.elim
  case atomicRequeueJob => exact hc.elim
  case producerEnqueue => exact hc.elim
  case producerRateLimit => exact hc.elim
  case producerDebounce => exact hc.elim
  all_goals exact tame_aside id (by simp [kinds]) (by simp [kinds]) page s

theorem tame_of_exec {c : Cmd} {id : JobId} (hc : c.Calm id) {page : Nat × List String}
    {s t : Store} {answer : Except RedisError c.Answer} (h : c.exec .none page s = (answer, t)) :
    Tame id s t := by
  have htame := tame_exec hc page s
  rwa [h] at htame

-- Whatever job the DLQ script is about.
theorem locksOpen_moveToDlq {id other : JobId} {page : Nat × List String} {dlqKey message : String}
    {time : DateTime} {ttl : Int} {uniqueLockKey : Option String} {s t : Store}
    {answer : Except RedisError Int} (hs : s.LocksOpen id)
    (hnamed : other = id → ∀ key, s.Names key id → uniqueLockKey = some key)
    (hexec : (atomicMoveJobToDlq other dlqKey message time ttl uniqueLockKey).exec .none page s =
      (answer, t)) : t.LocksOpen id := by
  by_cases ho : other = id
  · obtain rfl | hunique := moveToDlq_all hexec
    · exact hs
    · exact (unnamed_withoutUnique (hnamed ho) hunique).locksOpen
  · exact (tame_of_exec (c := atomicMoveJobToDlq _ _ _ _ _ _) ho hexec).locksOpen hs

theorem uniqueLocks_exec {c : Cmd} (hu : ∀ kind ∈ c.kinds, kind ≠ .unique) {fault : Fault}
    {page : Nat × List String} {s : Store} :
    (c.exec fault page s).2.uniqueLocks = s.uniqueLocks :=
  frame_exec frame_sameUnique hu (fun _ _ => trivial) fault page s

-- Under this fault the command comes to delete the unique lock.
def Deletes (fault : Fault) (s : Store) (key : String) : Cmd → Prop
  | releaseUniqueJobLock released => released = key ∧ fault = .none
  | atomicMoveJobToDlq id _ _ _ dlqTtl released =>
      released = some key ∧ (s.nextRetries id).isSome ∧ fault.Reaches (dlqCalls dlqTtl)
  | _ => False

section Names

variable {fault : Fault} {page : Nat × List String} {s : Store} {key : String} {id : JobId}

theorem names_script {budget : Budget} {other : JobId} {dlqKey message : String}
    {time : DateTime} {dlqTtl : Int} {released : Option String} :
    ((moveToDlq other dlqKey message time dlqTtl released).run budget s).2.Names key id ↔
      s.Names key id ∧
        ¬ (released = some key ∧ (s.nextRetries other).isSome ∧ Reaches budget (dlqCalls dlqTtl)) := by
  by_cases hcount : (s.nextRetries other).isSome
  · have hlocks := uniqueLocks_moveToDlq other dlqKey message time dlqTtl released budget s hcount
    unfold uniqueLocksAfter at hlocks
    by_cases hreaches : Reaches budget (dlqCalls dlqTtl)
    · rw [if_pos hreaches] at hlocks
      rw [names_withoutUnique hlocks]
      simp [hcount, hreaches, and_comm]
    · rw [if_neg hreaches] at hlocks
      rw [names_congr hlocks]
      simp [hreaches]
  · have hnone : s.nextRetries other = none := by simpa using hcount
    rw [moveToDlq_refused hnone]
    simp [hcount]

theorem uniqueLocks_withoutUnique {t : Store} {released : Option String} {cell : Volatile JobId}
    (ht : t.uniqueLocks = s.withoutUnique released) (h : t.uniqueLocks key = some cell) :
    s.uniqueLocks key = some cell := by
  rw [ht] at h
  cases released with
  | none => exact h
  | some name =>
      by_cases hk : key = name
      · subst hk
        simp [withoutUnique] at h
      · simpa [withoutUnique, hk] using h

theorem uniqueLocks_of_moveToDlq {budget : Budget} {other : JobId} {dlqKey message : String}
    {time : DateTime} {dlqTtl : Int} {released : Option String} {cell : Volatile JobId}
    (h : ((moveToDlq other dlqKey message time dlqTtl released).run budget s).2.uniqueLocks key =
      some cell) : s.uniqueLocks key = some cell := by
  by_cases hcount : (s.nextRetries other).isSome
  · have hlocks := uniqueLocks_moveToDlq other dlqKey message time dlqTtl released budget s hcount
    unfold uniqueLocksAfter at hlocks
    by_cases hreaches : Reaches budget (dlqCalls dlqTtl)
    · rw [if_pos hreaches] at hlocks
      exact uniqueLocks_withoutUnique hlocks h
    · rw [if_neg hreaches] at hlocks
      rwa [hlocks] at h
  · rwa [moveToDlq_refused (by simpa using hcount)] at h

-- A unique lock that names a job goes on doing so unless it is deleted.
theorem names_exec (c : Cmd) (h : s.Names key id) :
    (c.exec fault page s).2.Names key id ↔ ¬ c.Deletes fault s key := by
  cases c
  case releaseUniqueJobLock released =>
    cases fault with
    | none =>
        show (s.setUniqueLock released none).Names key id ↔ _
        rw [names_release]
        simp [Deletes, h, eq_comm]
    | refused => simpa [exec, single, Deletes] using h
    | stops calls => simpa [exec, single, Deletes] using h
  case atomicMoveJobToDlq other dlqKey message time dlqTtl released =>
    cases fault with
    | none => exact names_script.trans (and_iff_right h)
    | refused => simpa [exec, script, Deletes, Fault.Reaches] using h
    | stops calls => exact names_script.trans (and_iff_right h)
  case acquireUniqueJobLock taken other ttl =>
    refine iff_of_true ?_ fun h => h
    cases fault with
    | none =>
        simp only [exec, single]
        split_ifs with httl hheld
        · exact h
        · have hne : key ≠ taken := by
            rintro rfl
            obtain ⟨cell, hcell, -⟩ := Option.map_eq_some_iff.mp h
            simp [hcell] at hheld
          simpa [reply, Names, hne] using h
        · exact h
    | refused => exact h
    | stops calls => exact h
  all_goals
    refine iff_of_true ((names_congr (uniqueLocks_exec ?_) key).mpr h) fun h => h
    simp [kinds]

-- A command other than the taking of a lock may only delete unique locks.
theorem uniqueLocks_of_exec {c : Cmd}
    (hc : ∀ taken other ttl, c ≠ acquireUniqueJobLock taken other ttl) {cell : Volatile JobId}
    (h : (c.exec fault page s).2.uniqueLocks key = some cell) : s.uniqueLocks key = some cell := by
  cases c
  case releaseUniqueJobLock released =>
    cases fault with
    | none =>
        have ht : ((releaseUniqueJobLock released).exec .none page s).2.uniqueLocks =
            s.withoutUnique (some released) := rfl
        exact uniqueLocks_withoutUnique ht h
    | refused => exact h
    | stops calls => exact h
  case atomicMoveJobToDlq other dlqKey message time dlqTtl released =>
    cases fault with
    | none => exact uniqueLocks_of_moveToDlq h
    | refused => exact h
    | stops calls => exact uniqueLocks_of_moveToDlq h
  case acquireUniqueJobLock taken other ttl => exact absurd rfl (hc taken other ttl)
  all_goals
    rwa [uniqueLocks_exec] at h
    simp [kinds]

end Names

end Cmd

end Rrq
