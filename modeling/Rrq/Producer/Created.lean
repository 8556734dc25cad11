import Rrq.Producer.Scripts

-- What the scripts of the producer do when nothing stops them.

namespace Rrq

namespace Store

-- The key stands for a job that is still there.
def Hits (s : Store) (cell : Option (Volatile JobId)) (id : JobId) : Prop :=
  cell.map Volatile.value = some id ∧ (s.jobs id).isSome

variable {s : Store}

theorem Hits.unique {cell : Option (Volatile JobId)} {id other : JobId} (h : s.Hits cell id)
    (ho : s.Hits cell other) : id = other :=
  Option.some.inj (h.1.symm.trans ho.1)

@[simp] theorem setIdempotency_none {key : String} (h : s.idempotency key = none) :
    s.setIdempotency key none = s := by
  unfold setIdempotency
  rw [← h, Function.update_eq_self]

@[simp] theorem setDebounce_none {key : String} (h : s.debounces key = none) :
    s.setDebounce key none = s := by
  unfold setDebounce
  rw [← h, Function.update_eq_self]

-- A free key is taken, unless its expiry is one that Redis refuses.
theorem setKeyNx_cases (cell : Option (Volatile JobId)) (put : Option (Volatile JobId) → Store)
    (id : JobId) (seconds : Option Int) :
    s.setKeyNx cell put id seconds = none ∨
      (cell.isSome ∧ s.setKeyNx cell put id seconds = some (false, s)) ∨
      (cell = none ∧ ∃ expireAt,
        s.setKeyNx cell put id seconds = some (true, put (some ⟨id, expireAt⟩))) := by
  unfold setKeyNx
  cases seconds with
  | none =>
      cases cell with
      | none => exact .inr (.inr ⟨rfl, none, rfl⟩)
      | some cell => exact .inr (.inl ⟨rfl, rfl⟩)
  | some seconds =>
      by_cases hok : 0 < seconds ∧ s.ExpiryOk (seconds * 1000)
      · simp only [hok, and_self, if_true]
        cases cell with
        | none => exact .inr (.inr ⟨rfl, some (s.now + seconds * 1000), rfl⟩)
        | some cell => exact .inr (.inl ⟨rfl, rfl⟩)
      · exact .inl (by simp [hok])

theorem setKeyNx_free (put : Option (Volatile JobId) → Store) (id : JobId)
    (seconds : Option Int) :
    s.setKeyNx none put id seconds = none ∨
      ∃ expireAt, s.setKeyNx none put id seconds = some (true, put (some ⟨id, expireAt⟩)) := by
  rcases setKeyNx_cases none put id seconds with h | ⟨hsome, -⟩ | ⟨-, h⟩
  · exact .inl h
  · cases hsome
  · exact .inr h

end Store

namespace Producer

open Script

variable {args : JobArgs} {s : Store}

def created (args : JobArgs) (s : Store) : Store :=
  (s.hset args.id fun _ => args.mapping).zadd args.queueName args.id args.score

theorem created_jobs (h : s.jobs args.id = none) :
    (created args s).jobs = Function.update s.jobs args.id (some { value := args.mapping }) := by
  unfold created Store.hset
  rw [h]
  rfl

theorem created_queues (h : s.jobs args.id = none) :
    (created args s).queues =
      Function.update s.queues args.queueName
        ((s.queues args.queueName).insert args.id args.score) := by
  unfold created Store.hset
  rw [h]
  rfl

theorem created_idempotency : (created args s).idempotency = s.idempotency := by
  unfold created Store.hset
  cases s.jobs args.id <;> rfl

theorem run_create : (create args).run none s = (some (1, args.id), created args s) := rfl

section Enqueue

variable {idemKey : String} {ttlSeconds : Int} {id : JobId}

theorem run_findExisting_hit {β : Type} {next : Option JobId → Script Store β}
    (h : s.Hits (s.idempotency idemKey) id) :
    (findExisting idemKey >>= next).run none s = (next (some id)).run none s := by
  unfold findExisting
  simp only [Script.bind_assoc, run_ask_bind, h.1, h.2, if_true]
  rfl

-- A key that hits no job is gone afterwards.
theorem run_findExisting_miss {β : Type} {next : Option JobId → Script Store β}
    (h : ∀ id, ¬ s.Hits (s.idempotency idemKey) id) :
    (findExisting idemKey >>= next).run none s =
      (next none).run none (s.setIdempotency idemKey none) := by
  unfold findExisting
  simp only [Script.bind_assoc, run_ask_bind]
  cases hcell : s.idempotency idemKey with
  | none =>
      rw [Store.setIdempotency_none hcell]
      rfl
  | some cell =>
      have hgone : (s.jobs cell.value).isSome = false := by
        by_contra hsome
        exact h cell.value ⟨by rw [hcell]; rfl, Bool.of_not_eq_false hsome⟩
      simp only [Option.map_some, Script.bind_assoc, run_ask_bind, hgone, Bool.false_eq_true, if_false]
      rfl

theorem run_createWithKey (hfree : s.idempotency idemKey = none) :
    (createWithKey args idemKey ttlSeconds).run none s = (none, s) ∨
      ∃ expireAt, (createWithKey args idemKey ttlSeconds).run none s =
        (some (1, args.id), created args (s.setIdempotency idemKey (some ⟨args.id, expireAt⟩))) := by
  unfold createWithKey
  rw [run_call_bind, hfree]
  rcases Store.setKeyNx_free (s := s) (s.setIdempotency idemKey) args.id
    (if 0 < ttlSeconds then some (luaSeconds ttlSeconds) else none) with h | ⟨expireAt, h⟩
  · exact .inl (by rw [h])
  · refine .inr ⟨expireAt, ?_⟩
    simp only [h, if_true]
    exact run_create

theorem run_enqueueScript_hit (h : s.Hits (s.idempotency idemKey) id) :
    (enqueueScript args (some idemKey) ttlSeconds).run none s = (some (0, id), s) := by
  unfold enqueueScript findKeyed
  rw [run_findExisting_hit h]
  rfl

theorem run_enqueueScript_taken (h : ∀ id, ¬ s.Hits (s.idempotency idemKey) id)
    (htaken : (s.jobs args.id).isSome) :
    (enqueueScript args (some idemKey) ttlSeconds).run none s =
      (some (-1, args.id), s.setIdempotency idemKey none) := by
  unfold enqueueScript findKeyed
  rw [run_findExisting_miss h]
  simp only [run_ask_bind, Store.setIdempotency_jobs, htaken, if_true]
  rfl

theorem run_enqueueScript_free (ttlSeconds : Int) (h : ∀ id, ¬ s.Hits (s.idempotency idemKey) id)
    (hfree : s.jobs args.id = none) :
    (enqueueScript args (some idemKey) ttlSeconds).run none s =
        (none, s.setIdempotency idemKey none) ∨
      ∃ expireAt, (enqueueScript args (some idemKey) ttlSeconds).run none s =
        (some (1, args.id),
          created args (s.setIdempotency idemKey (some ⟨args.id, expireAt⟩))) := by
  unfold enqueueScript findKeyed
  rw [run_findExisting_miss h]
  simp only [run_ask_bind, Store.setIdempotency_jobs, hfree, Option.isSome_none,
    Bool.false_eq_true, if_false]
  have hgone : (s.setIdempotency idemKey none).idempotency idemKey = none := by simp
  have hput : ∀ cell, (s.setIdempotency idemKey none).setIdempotency idemKey cell =
      s.setIdempotency idemKey cell := by
    intro cell
    simp [Store.setIdempotency]
  simpa only [hput] using run_createWithKey hgone

end Enqueue

-- The job of the arguments was not there, and was stored and queued.
def Made (args : JobArgs) (s t : Store) : Prop :=
  s.jobs args.id = none ∧
    ∃ mid : Store, mid.jobs = s.jobs ∧ mid.queues = s.queues ∧ t = created args mid

theorem Made.hash {t : Store} (h : Made args s t) : t.hash args.id = some args.mapping := by
  obtain ⟨hnone, mid, hjobs, -, rfl⟩ := h
  simp [Store.hash, created_jobs (s := mid) (hjobs ▸ hnone)]

theorem Made.queues {t : Store} (h : Made args s t) :
    t.queues = Function.update s.queues args.queueName
      ((s.queues args.queueName).insert args.id args.score) := by
  obtain ⟨hnone, mid, hjobs, hqueues, rfl⟩ := h
  rw [created_queues (hjobs ▸ hnone), hqueues]

section Made

variable {ttlSeconds status : Int} {id : JobId} {t : Store}

-- A call that comes back with a job that was not there has made it.

theorem enqueueScript_made {idempotencyKey : Option String}
    (h : (enqueueScript args idempotencyKey ttlSeconds).run none s = (some (status, id), t))
    (hstatus : status = 1 ∨ status = 0) (hnew : s.jobs id = none) :
    id = args.id ∧ Made args s t := by
  cases idempotencyKey with
  | none =>
      unfold enqueueScript findKeyed at h
      simp only [pure_eq, Script.pure_bind, run_ask_bind] at h
      cases hjob : s.jobs args.id with
      | some cell =>
          simp only [hjob, Option.isSome_some, if_true, run_pure, Prod.mk.injEq,
            Option.some.injEq] at h
          omega
      | none =>
          simp only [hjob, Option.isSome_none, Bool.false_eq_true, if_false, run_create,
            Prod.mk.injEq, Option.some.injEq] at h
          exact ⟨h.1.2.symm, hjob, s, rfl, rfl, h.2.symm⟩
  | some idemKey =>
      by_cases hhit : ∃ found, s.Hits (s.idempotency idemKey) found
      · obtain ⟨found, hfound⟩ := hhit
        rw [run_enqueueScript_hit hfound] at h
        obtain ⟨⟨-, rfl⟩, -⟩ := by simpa using h
        have hsome := hfound.2
        rw [hnew] at hsome
        cases hsome
      · have hmiss := not_exists.mp hhit
        cases hjob : s.jobs args.id with
        | some cell =>
            rw [run_enqueueScript_taken hmiss (by rw [hjob]; rfl)] at h
            simp only [Prod.mk.injEq, Option.some.injEq] at h
            omega
        | none =>
            rcases run_enqueueScript_free ttlSeconds hmiss hjob with hrun | ⟨expireAt, hrun⟩
            · rw [hrun] at h
              cases h
            · rw [hrun] at h
              simp only [Prod.mk.injEq, Option.some.injEq] at h
              exact ⟨h.1.2.symm, hjob, s.setIdempotency idemKey (some ⟨args.id, expireAt⟩), rfl, rfl,
                h.2.symm⟩

theorem rateLimitScript_made {rateKey : String}
    (h : (rateLimitScript args rateKey ttlSeconds).run none s = (some (1, id), t)) :
    id = args.id ∧ Made args s t := by
  unfold rateLimitScript at h
  by_cases httl : ttlSeconds ≤ 0
  · simp only [httl, if_true, pure_eq, run_pure, Prod.mk.injEq, Option.some.injEq] at h
    omega
  · rw [if_neg httl, run_call_bind] at h
    rcases Store.setKeyNx_cases (s := s) (s.rateLimits rateKey) (s.setRateLimit rateKey) args.id
      (some (luaSeconds ttlSeconds)) with hset | ⟨-, hset⟩ | ⟨-, expireAt, hset⟩
    · rw [hset] at h
      cases h
    · simp only [hset, Bool.false_eq_true, if_false, pure_eq, run_pure, Prod.mk.injEq,
        Option.some.injEq] at h
      omega
    · cases hjob : s.jobs args.id with
      | some cell =>
          simp only [hset, if_true, run_ask_bind, Store.setRateLimit_jobs, hjob,
            Option.isSome_some, run_write_bind, pure_eq, run_pure, Prod.mk.injEq,
            Option.some.injEq] at h
          omega
      | none =>
          simp only [hset, if_true, run_ask_bind, Store.setRateLimit_jobs, hjob,
            Option.isSome_none, Bool.false_eq_true, if_false, run_create, Prod.mk.injEq,
            Option.some.injEq] at h
          exact ⟨h.1.2.symm, hjob, s.setRateLimit rateKey (some ⟨args.id, expireAt⟩), rfl, rfl,
            h.2.symm⟩

theorem createDebounced_made {debounceKey : String} (hfree : s.debounces debounceKey = none)
    (h : (createDebounced args debounceKey ttlSeconds).run none s = (some (status, id), t))
    (hstatus : status = 1 ∨ status = 0) : id = args.id ∧ Made args s t := by
  unfold createDebounced at h
  cases hjob : s.jobs args.id with
  | some cell =>
      simp only [run_ask_bind, hjob, Option.isSome_some, if_true, pure_eq, run_pure,
        Prod.mk.injEq, Option.some.injEq] at h
      omega
  | none =>
      simp only [run_ask_bind, hjob, Option.isSome_none, Bool.false_eq_true, if_false,
        run_call_bind, hfree] at h
      rcases Store.setKeyNx_free (s := s) (s.setDebounce debounceKey) args.id
        (if 0 < ttlSeconds then some (luaSeconds ttlSeconds) else none) with
        hset | ⟨expireAt, hset⟩
      · rw [hset] at h
        cases h
      · simp only [hset, true_or, if_true, run_create, Prod.mk.injEq, Option.some.injEq] at h
        exact ⟨h.1.2.symm, hjob, s.setDebounce debounceKey (some ⟨args.id, expireAt⟩), rfl, rfl,
          h.2.symm⟩

theorem debounceScript_made {debounceKey : String}
    (h : (debounceScript args debounceKey ttlSeconds).run none s = (some (status, id), t))
    (hstatus : status = 1 ∨ status = 0) (hnew : s.jobs id = none) :
    id = args.id ∧ Made args s t := by
  unfold debounceScript at h
  rw [run_ask_bind] at h
  cases hcell : s.debounces debounceKey with
  | none =>
      rw [hcell] at h
      exact createDebounced_made hcell h hstatus
  | some cell =>
      simp only [hcell, Option.map_some, run_ask_bind] at h
      split_ifs at h with hpending
      · have hid : cell.value = id := by
          unfold reschedule extendDebounce at h
          rw [run_write_bind, run_write_bind] at h
          split_ifs at h
          · rw [run_call_bind] at h
            split at h
            · cases h
            · obtain ⟨⟨-, hid⟩, -⟩ := by simpa using h
              exact hid
          · obtain ⟨⟨-, hid⟩, -⟩ := by simpa using h
            exact hid
        rw [hid, hnew] at hpending
        cases hpending.1
      · rw [run_write_bind] at h
        obtain ⟨hid, hnone, mid, hjobs, hqueues, rfl⟩ :=
          createDebounced_made (s := s.setDebounce debounceKey none) (by simp) h hstatus
        exact ⟨hid, hnone, mid, hjobs, hqueues, rfl⟩

end Made

-- The scripts come to the same end whether or not a failure lies beyond it.

section Lenient

theorem lenient_create (args : JobArgs) : Lenient (create args) :=
  .bind (.call _) fun _ => .bind (.call _) fun _ => .pure _

theorem lenient_enqueueScript (args : JobArgs) (idempotencyKey : Option String)
    (ttlSeconds : Int) : Lenient (enqueueScript args idempotencyKey ttlSeconds) := by
  have hcreate := lenient_create args
  have hkeyed : Lenient (findKeyed idempotencyKey) := by
    cases idempotencyKey with
    | none => exact .pure _
    | some idemKey =>
        refine .bind (.call _) fun existing => ?_
        cases existing with
        | none => exact .pure _
        | some existing =>
            refine .bind (.call _) fun present => ?_
            exact .ite (.pure _) (.bind (.call _) fun _ => .pure _)
  refine .bind hkeyed fun existing => ?_
  cases existing with
  | some existing => exact .pure _
  | none =>
      refine .bind (.call _) fun present => .ite (.pure _) ?_
      cases idempotencyKey with
      | none => exact hcreate
      | some idemKey =>
          refine .bind (.call _) fun setOk => .ite hcreate (.bind (.call _) fun winner => ?_)
          cases winner with
          | none => exact hcreate
          | some winner => exact .pure _

theorem lenient_rateLimitScript (args : JobArgs) (rateKey : String) (ttlSeconds : Int) :
    Lenient (rateLimitScript args rateKey ttlSeconds) := by
  refine .ite (.pure _) (.bind (.call _) fun ok => .ite (.bind (.call _) fun present => ?_)
    (.pure _))
  exact .ite (.bind (.call _) fun _ => .pure _) (lenient_create args)

theorem lenient_createDebounced (args : JobArgs) (debounceKey : String) (ttlSeconds : Int) :
    Lenient (createDebounced args debounceKey ttlSeconds) := by
  refine .bind (.call _) fun present => .ite (.pure _) (.bind (.call _) fun ok => ?_)
  refine .ite (lenient_create args) (.bind (.call _) fun other => ?_)
  cases other with
  | none => exact .pure _
  | some other => exact .pure _

theorem lenient_debounceScript (args : JobArgs) (debounceKey : String) (ttlSeconds : Int) :
    Lenient (debounceScript args debounceKey ttlSeconds) := by
  have hextend : Lenient (extendDebounce debounceKey ttlSeconds) := .ite (.call _) (.pure _)
  have hcreate := lenient_createDebounced args debounceKey ttlSeconds
  refine .bind (.call _) fun existing => ?_
  cases existing with
  | none => exact hcreate
  | some existing =>
      refine .bind (.call _) fun present => .bind (.call _) fun status => .ite ?_ ?_
      · exact .bind (.call _) fun _ => .bind (.call _) fun _ => .bind hextend fun _ => .pure _
      · exact .bind (.call _) fun _ => hcreate

end Lenient

end Producer

end Rrq
