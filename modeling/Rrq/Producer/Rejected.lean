import Rrq.Producer.Calls

-- What a call leaves behind that is turned down because its job id is taken.

namespace Rrq.Producer

open Script

variable {args : JobArgs} {ttlSeconds : Int} {found : JobId} {s t : Store}

-- The scripts find the id taken after they have let go of a key that is of no use to them.

theorem enqueueScript_rejected {idempotencyKey : Option String}
    (h : (enqueueScript args idempotencyKey ttlSeconds).run none s = (some (-1, found), t)) :
    (∀ idemKey ∈ idempotencyKey, ∀ id, ¬ s.Hits (s.idempotency idemKey) id) ∧
      t = idempotencyKey.elim s fun idemKey => s.setIdempotency idemKey none := by
  cases idempotencyKey with
  | none =>
      unfold enqueueScript findKeyed at h
      simp only [pure_eq, Script.pure_bind, run_ask_bind] at h
      split_ifs at h with hjob
      · simp only [run_pure, Prod.mk.injEq, Option.some.injEq] at h
        exact ⟨nofun, h.2.symm⟩
      · simp [run_create] at h
  | some idemKey =>
      by_cases hhit : ∃ id, s.Hits (s.idempotency idemKey) id
      · obtain ⟨id, hid⟩ := hhit
        simp [run_enqueueScript_hit hid] at h
      · have hmiss := not_exists.mp hhit
        refine ⟨fun key hkey => Option.some.inj hkey ▸ hmiss, ?_⟩
        cases hjob : s.jobs args.id with
        | some cell =>
            rw [run_enqueueScript_taken hmiss (by rw [hjob]; rfl)] at h
            exact (Prod.mk.inj h).2.symm
        | none =>
            rcases run_enqueueScript_free ttlSeconds hmiss hjob with hrun | ⟨expireAt, hrun⟩ <;>
              simp [hrun] at h

theorem rateLimitScript_rejected {rateKey : String}
    (h : (rateLimitScript args rateKey ttlSeconds).run none s = (some (-1, found), t)) :
    s.rateLimits rateKey = none ∧ t = s := by
  unfold rateLimitScript at h
  split_ifs at h
  · simp at h
  · rw [run_call_bind] at h
    rcases Store.setKeyNx_cases (s := s) (s.rateLimits rateKey) (s.setRateLimit rateKey) args.id
      (some (luaSeconds ttlSeconds)) with hset | ⟨-, hset⟩ | ⟨hfree, expireAt, hset⟩
    · simp [hset] at h
    · simp [hset] at h
    · simp only [hset, if_true, run_ask_bind] at h
      split_ifs at h
      · simp only [run_write_bind, pure_eq, run_pure, Prod.mk.injEq, Option.some.injEq] at h
        refine ⟨hfree, h.2.symm.trans ?_⟩
        simp [Store.setRateLimit, ← hfree]
      · simp [run_create] at h

theorem createDebounced_rejected {debounceKey : String}
    (h : (createDebounced args debounceKey ttlSeconds).run none s = (some (-1, found), t)) :
    t = s := by
  unfold createDebounced at h
  rw [run_ask_bind] at h
  by_cases htaken : (s.jobs args.id).isSome
  · rw [if_pos htaken] at h
    exact (Prod.mk.inj h).2.symm
  · rw [if_neg htaken, run_call_bind] at h
    split at h
    · cases h
    · split_ifs at h
      · simp [run_create] at h
      · rw [run_ask_bind] at h
        split at h <;> simp at h

theorem debounceScript_rejected {debounceKey : String}
    (h : (debounceScript args debounceKey ttlSeconds).run none s = (some (-1, found), t)) :
    (∀ cell ∈ s.debounces debounceKey, ¬ ((s.jobs cell.value).isSome ∧
      s.status cell.value = some JobStatus.Pending.asStr)) ∧
      t = s.setDebounce debounceKey none := by
  unfold debounceScript at h
  rw [run_ask_bind] at h
  cases hcell : s.debounces debounceKey with
  | none =>
      rw [hcell] at h
      rw [Store.setDebounce_none hcell]
      exact ⟨nofun, createDebounced_rejected h⟩
  | some cell =>
      simp only [hcell, Option.map_some, run_ask_bind] at h
      split_ifs at h with hpending
      · unfold reschedule extendDebounce at h
        rw [run_write_bind, run_write_bind] at h
        split_ifs at h
        · rw [run_call_bind] at h
          split at h <;> simp at h
        · simp at h
      · rw [run_write_bind] at h
        refine ⟨fun held hheld => ?_, createDebounced_rejected h⟩
        exact Option.some.inj hheld ▸ hpending

-- The key that a call reserves, and the jobs that a held key makes the call answer with.

def Submission.reservation (options : EnqueueOptions) (s : Store) :
    Submission → Option (Volatile JobId)
  | enqueue => options.idempotencyKey.bind fun key => s.idempotency (IDEMPOTENCY_KEY_PREFIX ++ key)
  | rateLimited key _ => s.rateLimits (withPrefix RATE_LIMIT_KEY_PREFIX key)
  | debounced key _ => s.debounces (withPrefix DEBOUNCE_KEY_PREFIX key)

def Submission.Answers (s : Store) (id : JobId) : Submission → Prop
  | enqueue => (s.jobs id).isSome
  | rateLimited _ _ => True
  | debounced _ _ => (s.jobs id).isSome ∧ s.status id = some JobStatus.Pending.asStr

-- The store without that key.
def Submission.unreserved (options : EnqueueOptions) (s : Store) : Submission → Store
  | enqueue => options.idempotencyKey.elim s fun key =>
      s.setIdempotency (IDEMPOTENCY_KEY_PREFIX ++ key) none
  | rateLimited key _ => s.setRateLimit (withPrefix RATE_LIMIT_KEY_PREFIX key) none
  | debounced key _ => s.setDebounce (withPrefix DEBOUNCE_KEY_PREFIX key) none

theorem Submission.unreserved_eq_self {options : EnqueueOptions} (call : Submission) :
    call.unreserved options s = s ↔ call.reservation options s = none := by
  cases call with
  | enqueue =>
      cases hkey : options.idempotencyKey with
      | none => simp [unreserved, reservation, hkey]
      | some key =>
          simp only [unreserved, reservation, hkey, Option.elim_some, Option.bind_some]
          constructor
          · intro h
            have hcell := congrArg (fun t => t.idempotency (IDEMPOTENCY_KEY_PREFIX ++ key)) h
            simpa using hcell.symm
          · exact fun h => Store.setIdempotency_none h
  | rateLimited key window =>
      simp only [unreserved, reservation]
      constructor
      · intro h
        have hcell := congrArg (fun t => t.rateLimits (withPrefix RATE_LIMIT_KEY_PREFIX key)) h
        simpa using hcell.symm
      · intro h
        simp [Store.setRateLimit, ← h]
  | debounced key window =>
      simp only [unreserved, reservation]
      constructor
      · intro h
        have hcell := congrArg (fun t => t.debounces (withPrefix DEBOUNCE_KEY_PREFIX key)) h
        simpa using hcell.symm
      · exact fun h => Store.setDebounce_none h

theorem answered_rejected {body : Script Store Reply} (hb : Lenient body) {fault : Fault}
    (h : answered (Cmd.script fault s .failed body id).1 = .error .jobIdExists) :
    ∃ found, body.run none s = (some (-1, found), (Cmd.script fault s .failed body id).2) := by
  cases hanswer : (Cmd.script fault s .failed body id).1 with
  | error error => simp [hanswer, answered] at h
  | ok reply =>
      obtain ⟨⟨status, found⟩, hrun, rfl⟩ := script_ok hb (Prod.ext hanswer rfl)
      rw [hanswer] at h
      simp only [answered] at h
      split_ifs at h with hstatus hminus
      · obtain rfl : status = -1 := hminus
        exact ⟨found, hrun⟩
      · cases h

theorem limited_rejected {body : Script Store Reply} (hb : Lenient body) {fault : Fault}
    (h : limited (Cmd.script fault s .failed body id).1 = .error .jobIdExists) :
    ∃ found, body.run none s = (some (-1, found), (Cmd.script fault s .failed body id).2) := by
  cases hanswer : (Cmd.script fault s .failed body id).1 with
  | error error => simp [hanswer, limited] at h
  | ok reply =>
      obtain ⟨⟨status, found⟩, hrun, rfl⟩ := script_ok hb (Prod.ext hanswer rfl)
      rw [hanswer] at h
      simp only [limited] at h
      split_ifs at h with hcreated hheld hminus
      · obtain rfl : status = -1 := hminus
        exact ⟨found, hrun⟩
      · cases h

theorem error_of_map_some {answer : Except EnqueueError JobId} {error : EnqueueError}
    (h : answer.map some = .error error) : answer = .error error := by
  cases answer with
  | error other => exact congrArg _ (Except.error.inj h)
  | ok id => cases h

section Calls

variable (config : Config) (functionName : String) (params : Params) (options : EnqueueOptions)
  (pid : Pid) (oracle : Nat → Op → Chance) (n : Nat)

-- The call run alone.
abbrev Submission.run (call : Submission) (w : World) :
    Except EnqueueError (Option JobId) × Nat × World :=
  Prog.run (World.exec pid .client) oracle (call.program config functionName params options) n w

-- Nothing is different after a call that found its job id taken, but that the key of the call
-- is gone if it was held for a job that the call could not answer with.
theorem submission_rejected (call : Submission) (w : World)
    (h : (call.run config functionName params options pid oracle n w).1 = .error .jobIdExists) :
    let after := (call.run config functionName params options pid oracle n w).2.2.store
    after = call.unreserved options w.store ∧
      (∀ cell ∈ call.reservation options w.store, ¬ call.Answers w.store cell.value) ∧
      (after = w.store ↔ call.reservation options w.store = none) := by
  suffices hafter :
      (call.run config functionName params options pid oracle n w).2.2.store =
        call.unreserved options w.store ∧
      ∀ cell ∈ call.reservation options w.store, ¬ call.Answers w.store cell.value from
    ⟨hafter.1, hafter.2, hafter.1 ▸ call.unreserved_eq_self⟩
  cases call with
  | enqueue =>
      rw [Submission.run, Submission.program, Prog.run_bind] at h ⊢
      obtain ⟨_, k, ⟨args, ttlSeconds, -, rfl⟩, hsame⟩ :=
        enqueue_prepares.run_script pid .client oracle n (error_of_map_some h)
      rw [hsame] at h ⊢
      obtain ⟨found, hrun⟩ := answered_rejected (lenient_enqueueScript _ _ _) (error_of_map_some h)
      obtain ⟨hmiss, hafter⟩ := enqueueScript_rejected hrun
      cases hkey : options.idempotencyKey with
      | none =>
          rw [hkey] at hafter
          refine ⟨hafter.trans (by rw [Submission.unreserved, hkey]; rfl), fun cell hcell => ?_⟩
          rw [Submission.reservation, hkey] at hcell
          cases hcell
      | some key =>
          rw [hkey] at hafter hmiss
          refine ⟨hafter.trans (by rw [Submission.unreserved, hkey]; rfl), fun cell hcell => ?_⟩
          rw [Submission.reservation, hkey] at hcell
          exact fun hjob => hmiss _ rfl cell.value ⟨congrArg (Option.map Volatile.value) hcell, hjob⟩
  | rateLimited key window =>
      rw [Submission.run, Submission.program] at h ⊢
      obtain ⟨_, k, ⟨args, -, -, rfl⟩, hrest⟩ :=
        enqueueWithRateLimit_prepares.run_script pid .client oracle n h
      rw [hrest] at h ⊢
      obtain ⟨found, hrun⟩ := limited_rejected (lenient_rateLimitScript _ _ _) h
      obtain ⟨hfree, hsame⟩ := rateLimitScript_rejected hrun
      refine ⟨hsame.trans ?_, fun cell hcell => ?_⟩
      · exact (Submission.unreserved_eq_self (.rateLimited key window)).mpr hfree |>.symm
      · rw [Submission.reservation, hfree] at hcell
        cases hcell
  | debounced key window =>
      rw [Submission.run, Submission.program, Prog.run_bind] at h ⊢
      obtain ⟨_, k, ⟨args, -, rfl⟩, hsame⟩ :=
        enqueueWithDebounce_prepares.run_script pid .client oracle n (error_of_map_some h)
      rw [hsame] at h ⊢
      obtain ⟨found, hrun⟩ := answered_rejected (lenient_debounceScript _ _ _) (error_of_map_some h)
      obtain ⟨hmiss, hafter⟩ := debounceScript_rejected hrun
      exact ⟨hafter, hmiss⟩

end Calls

-- The id of the call is taken, and the idempotency key is held for a job that is gone.

def takenStore : Store :=
  (Store.empty.hset "taken" fun h => { h with id := some "taken" }).setIdempotency
    "rrq:idempotency:k" (some ⟨"gone", some 60000⟩)

abbrev takenRun (key : Option String) : Except EnqueueError (Option JobId) × Nat × World :=
  Submission.enqueue.run {} "f" []
    { jobId := some "taken", idempotencyKey := key, enqueueTime := some ⟨0⟩ } 0 (fun _ _ => {}) 0
    (.ofStore takenStore)

theorem submission_rejected_changes :
    (takenRun (some "k")).1 = .error .jobIdExists ∧
      (takenStore.idempotency "rrq:idempotency:k").isSome ∧
      ((takenRun (some "k")).2.2.store.idempotency "rrq:idempotency:k").isNone := by
  decide +kernel

theorem submission_rejected_keyless : (takenRun none).2.2.store = takenStore :=
  (submission_rejected {} "f" [] { jobId := some "taken", enqueueTime := some ⟨0⟩ } 0
    (fun _ _ => {}) 0 .enqueue (.ofStore takenStore) (by decide +kernel)).2.2.mpr rfl

end Rrq.Producer
