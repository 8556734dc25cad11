import Rrq.Store.PutBack
import Rrq.Store.Claim

-- What the commands do to the lock of a job that someone owns.

namespace Rrq.Store

open Script Scripts

variable {s : Store} {id : JobId} {owner : String}

-- A script that checks the owner first does nothing in the name of another.
theorem run_ifOwner {α : Type} (body : Script Store α) (value : α)
    (h : s.lock id ≠ some (.owner owner)) :
    ((call (fun s => s.getLock id) >>= fun name =>
      if name = some owner then body else pure value).run none s).2 = s := by
  rw [run_call_bind]
  unfold getLock
  cases hlock : s.lock id with
  | none => simp
  | some cell =>
      cases cell with
      | malformed => rfl
      | owner name =>
          have hne : name ≠ owner := fun he => h (he ▸ hlock)
          simp [hne]

theorem run_refreshLock (ms : Int) (h : s.lock id ≠ some (.owner owner)) :
    ((refreshLock id owner ms).run none s).2 = s := run_ifOwner _ _ h

theorem run_releaseLockIfOwner (h : s.lock id ≠ some (.owner owner)) :
    ((releaseLockIfOwner id owner).run none s).2 = s := run_ifOwner _ _ h

-- In the name of the owner it deletes the lock.
theorem run_releaseLockIfOwner_owned (h : s.lock id = some (.owner owner)) :
    (releaseLockIfOwner id owner).run none s = (some 1, s.delLock id) := by
  unfold releaseLockIfOwner
  rw [run_call_bind]
  simp [getLock, h]

-- A refresh moves the expiry of a lock, and nothing else of any lock.
theorem lock_refreshLock (ms : Int) (other : JobId) :
    ((refreshLock id owner ms).run none s).2.lock other = s.lock other := by
  by_cases h : s.lock id = some (.owner owner)
  · unfold refreshLock
    rw [run_call_bind]
    simp only [getLock, h, if_true]
    rw [run_call]
    by_cases hexpiry : s.ExpiryOk ms
    · rw [if_pos hexpiry]
      by_cases ho : other = id
      · subst ho
        rw [h]
        simp [lock]
      · simp [lock, ho]
    · rw [if_neg hexpiry]
  · rw [run_refreshLock ms h]

end Rrq.Store

namespace Rrq.Cmd

open Store

-- The names in which a command may change a lock that is owned.
def ActsAs : Cmd → String → Prop
  | refreshJobLockTimeout _ worker _ => (· = worker)
  | releaseJobLock _ => fun _ => True
  | releaseJobLockIfOwner _ owner => (· = owner)
  | atomicRequeueJob args => (· = args.releasingOwner)
  | _ => fun _ => False

variable {fault : Fault} {page : Nat × List String} {s t : Store} {id : JobId} {owner : String}

-- Whatever is done in other names leaves a lock to its owner.
theorem locks_exec {c : Cmd} {answer : Except RedisError c.Answer}
    (howner : s.lock id = some (.owner owner)) (hwell : ∀ other, s.lock other ≠ some .malformed)
    (ha : ¬ c.ActsAs owner) (hf : fault = .none ∨ fault = .refused)
    (h : c.exec fault page s = (answer, t)) : t.locks id = s.locks id := by
  have ht : (c.exec fault page s).2 = t := congrArg Prod.snd h
  by_cases hk : Kind.lock ∈ c.kinds
  case neg =>
    have hframe := frame_exec frame_sameLocks (c := c) (fun kind hkind he => hk (he ▸ hkind))
      (fun _ _ => trivial) fault page s
    rw [← ht, hframe]
  have hsome : (s.locks id).isSome := by
    unfold lock at howner
    cases hcell : s.locks id with
    | none => simp [hcell] at howner
    | some cell => rfl
  cases c <;> simp only [Cmd.kinds, List.mem_cons, List.not_mem_nil, reduceCtorEq, or_self,
    or_false, or_true] at hk
  case atomicClaimReadyJobs args =>
    obtain ⟨ids, -, -, hclaims, -⟩ := atomicClaimReadyJobs_inv hf h
    by_cases hid : id ∈ ids
    · have hfree := (hclaims.taken id hid).free
      simp [hfree] at hsome
    · exact (hclaims.others id hid).elim (·.lock) (·.lock)
  case refreshJobLockTimeout other worker ms =>
    by_cases ho : id = other
    · subst ho
      rcases hf with rfl | rfl
      · have hrun : ((Scripts.refreshLock id worker ms).run none s).2 = s :=
          run_refreshLock ms (by rw [howner]; simpa [ActsAs] using ha)
        exact ht ▸ congrArg (·.locks id) hrun
      · exact ht ▸ rfl
    · have hsame := sameJob_exec (c := .refreshJobLockTimeout other worker ms) id
        (by rintro _ rfl; exact ho) fault page s
      exact ht ▸ hsame.lock
  case releaseJobLock => exact absurd trivial ha
  case releaseJobLockIfOwner other worker =>
    by_cases ho : id = other
    · subst ho
      rcases hf with rfl | rfl
      · have hrun : ((Scripts.releaseLockIfOwner id worker).run none s).2 = s :=
          run_releaseLockIfOwner (by rw [howner]; simpa [ActsAs] using ha)
        exact ht ▸ congrArg (·.locks id) hrun
      · exact ht ▸ rfl
    · have hsame := sameJob_exec (c := .releaseJobLockIfOwner other worker) id
        (by rintro _ rfl; exact ho) fault page s
      exact ht ▸ hsame.lock
  case tryLockJob other worker ms =>
    by_cases ho : id = other
    · subst ho
      rw [← ht]
      simp only [exec, single]
      split <;> try rfl
      split
      · rename_i taken after heq
        have hset := setLockNx_eq_some heq
        cases taken with
        | false => exact hset.2 ▸ rfl
        | true => simp [hset.1] at hsome
      · rfl
    · have hsame := sameJob_exec (c := .tryLockJob other worker ms) id
        (by rintro _ rfl; exact ho) fault page s
      exact ht ▸ hsame.lock
  case atomicRequeueJob args =>
    by_cases ho : id = args.id
    · subst ho
      rcases atomicRequeueJob_inv (hwell _) hf h with ⟨hput, -⟩ | ⟨rfl, -⟩
      · have hne : args.releasingOwner ≠ owner := fun he => ha he.symm
        rw [hput.lock, if_neg]
        rw [howner]
        rintro ⟨-, he⟩
        exact hne (by simpa using he.symm)
      · rfl
    · have hsame := sameJob_exec (c := .atomicRequeueJob args) id
        (by rintro _ rfl; exact ho) fault page s
      exact ht ▸ hsame.lock

-- A refresh leaves every lock to its owner.
theorem lock_refreshJobLockTimeout {other : JobId} {worker : WorkerId} {ms : Int}
    {answer : Except RedisError Bool} (hf : fault = .none ∨ fault = .refused)
    (h : (refreshJobLockTimeout other worker ms).exec fault page s = (answer, t)) :
    t.lock id = s.lock id := by
  have ht : ((refreshJobLockTimeout other worker ms).exec fault page s).2 = t :=
    congrArg Prod.snd h
  rw [← ht]
  rcases hf with rfl | rfl
  · exact lock_refreshLock ms id
  · rfl

-- A release that has not answered has not happened.
theorem releaseJobLockIfOwner_error {error : RedisError}
    (hwell : s.lock id ≠ some .malformed) (hf : fault = .none ∨ fault = .refused)
    (h : (releaseJobLockIfOwner id owner).exec fault page s = (.error error, t)) :
    t = s ∧ error = .failed := by
  rcases hf with rfl | rfl
  · by_cases howner : s.lock id = some (.owner owner)
    · simp [exec, script, run_releaseLockIfOwner_owned howner] at h
    · have ht : ((Scripts.releaseLockIfOwner id owner).run none s).2 = t := congrArg Prod.snd h
      rw [run_releaseLockIfOwner howner] at ht
      refine ⟨ht.symm, ?_⟩
      have he := congrArg Prod.fst h
      simp only [exec, script, lockError, if_neg hwell] at he
      cases hrun : ((Scripts.releaseLockIfOwner id owner).run none s).1 with
      | none =>
          rw [hrun] at he
          exact (Except.error.inj he).symm
      | some value =>
          rw [hrun] at he
          cases he
  · obtain ⟨he, rfl⟩ := Prod.mk.injEq .. ▸ h
    exact ⟨rfl, (Except.error.inj he).symm⟩

end Rrq.Cmd
