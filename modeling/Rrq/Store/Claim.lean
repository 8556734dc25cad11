import Rrq.Store.Requeue

-- What claim_ready.lua does to the jobs it looks at.

namespace Rrq.Store

open Script Scripts

def claimHash (args : ClaimArgs) (h : JobHash) : JobHash :=
  { h with
    status := some JobStatus.Active.asStr
    startTime := some (.val args.startTime)
    workerId := some args.workerId }

-- The job has been claimed.
structure Taken (args : ClaimArgs) (id : JobId) (s t : Store) : Prop where
  queued : id ∈ s.queues args.queueKey
  free : s.locks id = none
  lock : t.lock id = some (.owner args.workerId)
  hash : ∃ h, s.hash id = some h ∧ t.hash id = some (claimHash args h)
  queues : ∀ queue, id ∈ t.queues queue ↔ queue ≠ args.queueKey ∧ id ∈ s.queues queue
  active : ∀ worker, id ∈ t.active worker ↔ worker = args.workerId ∨ id ∈ s.active worker

-- The job has no hash, and has left the queue for that.
structure Dropped (args : ClaimArgs) (id : JobId) (s t : Store) : Prop where
  missing : s.hash id = none
  cell : t.jobs id = s.jobs id
  lock : t.locks id = s.locks id
  queues : ∀ queue, id ∈ t.queues queue ↔ queue ≠ args.queueKey ∧ id ∈ s.queues queue
  active : ∀ worker, id ∈ t.active worker ↔ id ∈ s.active worker

-- What a claim has done when it took these jobs.
structure Claims (args : ClaimArgs) (ids : List JobId) (s t : Store) : Prop where
  taken : ∀ id ∈ ids, Taken args id s t
  others : ∀ id, id ∉ ids → SameJob id s t ∨ Dropped args id s t

section Frames

variable {args : ClaimArgs} {id : JobId} {s t u : Store}

theorem Taken.before (h : SameJob id s t) (ht : Taken args id t u) : Taken args id s u where
  queued := (h.queues _).mp ht.queued
  free := h.lock ▸ ht.free
  lock := ht.lock
  hash := h.hash ▸ ht.hash
  queues queue := by rw [ht.queues, h.queues]
  active worker := by rw [ht.active, h.active]

theorem Taken.after (ht : Taken args id s t) (h : SameJob id t u) : Taken args id s u where
  queued := ht.queued
  free := ht.free
  lock := by
    have hlock := ht.lock
    unfold Store.lock at hlock ⊢
    rw [h.lock, hlock]
  hash := h.hash ▸ ht.hash
  queues queue := by rw [h.queues, ht.queues]
  active worker := by rw [h.active, ht.active]

theorem Dropped.before (h : SameJob id s t) (hd : Dropped args id t u) : Dropped args id s u where
  missing := h.hash ▸ hd.missing
  cell := hd.cell.trans h.cell
  lock := hd.lock.trans h.lock
  queues queue := by rw [hd.queues, h.queues]
  active worker := by rw [hd.active, h.active]

theorem Dropped.after (hd : Dropped args id s t) (h : SameJob id t u) : Dropped args id s u where
  missing := hd.missing
  cell := h.cell.trans hd.cell
  lock := h.lock.trans hd.lock
  queues queue := by rw [h.queues, hd.queues]
  active worker := by rw [h.active, hd.active]

end Frames

section One

variable {args : ClaimArgs} {id other : JobId} {s t : Store}

theorem setLockNx_eq_some {owner : String} {px : ℚ} {taken : Bool}
    (h : s.setLockNx id owner px = some (taken, t)) :
    if taken then s.locks id = none ∧ t = s.setLock id (some
        { value := .owner owner, expireAt := some (s.now + px.num) })
    else (s.locks id).isSome ∧ t = s := by
  unfold setLockNx at h
  split_ifs at h with hpx hheld
  · obtain ⟨rfl, rfl⟩ := Prod.mk.injEq .. ▸ Option.some.inj h
    exact ⟨hheld, rfl⟩
  · obtain ⟨rfl, rfl⟩ := Prod.mk.injEq .. ▸ Option.some.inj h
    exact ⟨by simpa using hheld, rfl⟩

theorem dropped_zrem (args : ClaimArgs) (h : s.jobs id = none) :
    Dropped args id s (s.zrem args.queueKey id) where
  missing := by simp [hash, h]
  cell := by simp [zrem]
  lock := by simp [zrem]
  queues queue := by
    by_cases hq : queue = args.queueKey
    · subst hq
      simp [zrem]
    · simp [zrem, hq]
  active worker := by simp [zrem]

-- The lock is taken and given back when the job turns out not to be in the queue.
theorem sameJob_unlocked {cell : Option (Volatile LockCell)} {queue : QueueKey}
    (hfree : s.locks id = none) (hq : id ∉ s.queues queue) :
    SameJob id s (((s.setLock id cell).zrem queue id).delLock id) where
  cell := by simp [delLock, zrem]
  queues other := by
    by_cases ho : other = queue
    · subst ho
      simp [delLock, zrem, hq]
    · simp [delLock, zrem, ho]
  active worker := by simp [delLock, zrem]
  lock := by simp [delLock, hfree]

theorem taken_claim {time : Int} {h : JobHash} (hhash : s.hash id = some h)
    (hfree : s.locks id = none) (hq : id ∈ s.queues args.queueKey) (score : ℚ) :
    Taken args id s (((((s.setLock id (some
      { value := .owner args.workerId, expireAt := some time })).zrem args.queueKey id).hset id
        (claimHash args)).zaddActive args.workerId id score)) where
  queued := hq
  free := hfree
  lock := by
    unfold hset
    split <;> simp [lock, zaddActive, zrem]
  hash := by
    refine ⟨h, hhash, ?_⟩
    unfold hash zaddActive
    rw [setActive_jobs]
    change (hset _ id _).hash id = _
    rw [hash_hset]
    have hsame : (((s.setLock id (some
        { value := .owner args.workerId, expireAt := some time })).zrem args.queueKey id).hash id) =
          s.hash id := by simp [hash, zrem]
    rw [hsame, hhash]
    rfl
  queues queue := by
    rw [zaddActive, setActive_queues, (samePlaces_hset _ _ _).queues]
    by_cases hq : queue = args.queueKey
    · subst hq
      simp [zrem]
    · simp [zrem, hq]
  active worker := by
    rw [zaddActive, setActive_active, (samePlaces_hset _ _ _).active]
    by_cases hw : worker = args.workerId
    · subst hw
      simp
    · simp [zrem, hw]

-- One candidate: it is claimed, dropped or left alone.
theorem claimOne_cases (args : ClaimArgs) (id : JobId) (s : Store) :
    ((claimOne args id).run none s).1 = some true ∧
        Taken args id s ((claimOne args id).run none s).2 ∨
      ((claimOne args id).run none s).1 ≠ some true ∧
        (SameJob id s ((claimOne args id).run none s).2 ∨
          Dropped args id s ((claimOne args id).run none s).2) := by
  unfold claimOne
  rw [run_ask_bind]
  cases hjob : s.jobs id with
  | none => exact .inr ⟨by simp, .inr (by simpa using dropped_zrem args hjob)⟩
  | some cell =>
  simp only [Option.isSome_some, if_true, run_ask_bind, run_call_bind]
  generalize lockTimeoutMs args.defaultLockTimeoutMs args.lockTimeoutExtensionSeconds _ = px
  cases hlock : s.setLockNx id args.workerId px with
  | none => exact .inr ⟨by simp, .inl (.refl id s)⟩
  | some result =>
  obtain ⟨lockOk, after⟩ := result
  have hset := setLockNx_eq_some hlock
  cases lockOk with
  | false =>
      obtain ⟨-, rfl⟩ := by simpa using hset
      exact .inr ⟨by simp, .inl (.refl id _)⟩
  | true =>
  obtain ⟨hfree, rfl⟩ := by simpa using hset
  simp only [if_true, run_call_bind, setLock_queues]
  have hhash : s.hash id = some cell.value := by simp [hash, hjob]
  by_cases hq : id ∈ s.queues args.queueKey
  · simp only [hq, decide_true, if_true, run_write_bind, pure_eq, run_pure]
    exact .inl ⟨trivial, taken_claim hhash hfree hq _⟩
  · simp only [hq, decide_false, Bool.false_eq_true, if_false, run_write_bind, pure_eq, run_pure]
    exact .inr ⟨by simp, .inl (sameJob_unlocked hfree hq)⟩

theorem steady_claimOne (args : ClaimArgs) (id : JobId) : Steady (claimOne args id) := by
  refine .bind (.call _) fun present => .ite (.bind (.call _) fun seconds => ?_) ?_
  · refine .bind (.call _) fun lockOk => .ite (.bind (.call _) fun removed => .ite ?_ ?_) (.pure _)
    · exact .bind (.call _) fun _ => .bind (.call _) fun _ => .pure _
    · exact .bind (.call _) fun _ => .pure _
  · exact .bind (.call _) fun _ => .pure _

end One

section Each

variable {args : ClaimArgs} {s t : Store}

theorem Claims.nil (args : ClaimArgs) (s : Store) : Claims args [] s s where
  taken _ h := absurd h List.not_mem_nil
  others id _ := .inl (.refl id s)

-- One more candidate, that was not looked at before.

theorem Claims.snoc {ids : List JobId} {id : JobId} {u : Store} (hc : Claims args ids s t)
    (hnew : id ∉ ids) (hsame : SameJob id s t) (hothers : ∀ other, other ≠ id → SameJob other t u)
    (h : Taken args id t u) : Claims args (ids ++ [id]) s u where
  taken other ho := by
    rcases List.mem_append.mp ho with ho | ho
    · have hne : other ≠ id := fun he => hnew (he ▸ ho)
      exact (hc.taken other ho).after (hothers other hne)
    · rw [List.mem_singleton.mp ho]
      exact h.before hsame
  others other ho := by
    have hne : other ≠ id := fun he => ho (by simp [he])
    have hold : other ∉ ids := fun hm => ho (by simp [hm])
    rcases hc.others other hold with hs | hd
    · exact .inl (hs.trans (hothers other hne))
    · exact .inr (hd.after (hothers other hne))

theorem Claims.skip {ids : List JobId} {id : JobId} {u : Store} (hc : Claims args ids s t)
    (hnew : id ∉ ids) (hsame : SameJob id s t) (hothers : ∀ other, other ≠ id → SameJob other t u)
    (h : SameJob id t u ∨ Dropped args id t u) : Claims args ids s u where
  taken other ho := (hc.taken other ho).after (hothers other fun he => hnew (he ▸ ho))
  others other ho := by
    by_cases hne : other = id
    · subst hne
      exact h.imp hsame.trans (Dropped.before hsame)
    · exact (hc.others other ho).imp (·.trans (hothers other hne)) (·.after (hothers other hne))

-- The loop over the candidates. It may stop at a lock that Redis refuses to set.
theorem claimEach_claims (candidates claimed : List JobId)
    (hnodup : (claimed ++ candidates).Nodup) (hc : Claims args claimed s t)
    (hrest : ∀ id ∈ candidates, SameJob id s t) :
    ∃ ids, ids.Nodup ∧ (∀ id ∈ ids, id ∈ claimed ++ candidates) ∧
      Claims args ids s ((claimEach args candidates claimed).run none t).2 ∧
      ∀ answer, ((claimEach args candidates claimed).run none t).1 = some answer →
        answer = ids := by
  induction candidates generalizing claimed t with
  | nil =>
      refine ⟨claimed, by simpa using hnodup, by simp, hc, fun answer h => ?_⟩
      exact (Option.some.inj h).symm
  | cons id candidates ih =>
      have hclaimed : claimed.Nodup := (List.nodup_append.mp hnodup).1
      have hnew : id ∉ claimed := fun hm =>
        (List.nodup_append.mp hnodup).2.2 id hm id List.mem_cons_self rfl
      have hsame := hrest id List.mem_cons_self
      unfold claimEach
      by_cases hfull : args.maxClaims ≤ claimed.length
      · rw [if_pos hfull]
        refine ⟨claimed, hclaimed, fun other ho => List.mem_append_left _ ho, hc, fun answer h => ?_⟩
        exact (Option.some.inj h).symm
      rw [if_neg hfull, run_bind (steady_claimOne args id)]
      have hothers : ∀ other, other ≠ id → SameJob other t ((claimOne args id).run none t).2 :=
        fun other hne =>
          ((frame_sameJob other).keeps_claimOne hne t trivial trivial trivial trivial args).run none
            (.refl other t)
      have hcases := claimOne_cases args id t
      have hlater : ∀ other ∈ candidates,
          SameJob other s ((claimOne args id).run none t).2 := by
        intro other ho
        have hne : other ≠ id := fun he =>
          (List.nodup_cons.mp (List.nodup_append.mp hnodup).2.1).1 (he ▸ ho)
        exact (hrest other (List.mem_cons_of_mem _ ho)).trans (hothers other hne)
      generalize (claimOne args id).run none t = result at hothers hcases hlater ⊢
      obtain ⟨answer, u⟩ := result
      rcases hcases with ⟨rfl, htaken⟩ | ⟨hnot, hleft⟩
      · obtain ⟨ids, hids, hsub, hdone, hanswer⟩ := ih (claimed ++ [id]) (by simpa using hnodup)
          (hc.snoc hnew hsame hothers htaken) hlater
        refine ⟨ids, hids, fun other ho => ?_, hdone, hanswer⟩
        simpa using hsub other ho
      · have hskip := hc.skip hnew hsame hothers hleft
        cases answer with
        | none => exact ⟨claimed, hclaimed, fun other ho => List.mem_append_left _ ho, hskip, nofun⟩
        | some taken =>
            obtain rfl : taken = false := by simpa using hnot
            have hsub' : (claimed ++ candidates).Nodup :=
              hnodup.sublist ((List.sublist_cons_self id candidates).append_left claimed)
            obtain ⟨ids, hids, hsub, hdone, hanswer⟩ := ih claimed hsub' hskip hlater
            refine ⟨ids, hids, fun other ho => ?_, hdone, hanswer⟩
            rcases List.mem_append.mp (hsub other ho) with hm | hm
            · exact List.mem_append_left _ hm
            · exact List.mem_append_right _ (List.mem_cons_of_mem _ hm)

-- The whole script, which may fail after it has claimed some of the jobs.
theorem claimReady_claims (args : ClaimArgs) (s : Store) :
    ∃ ids, ids.Nodup ∧ (∀ id ∈ ids, id ∈ s.queues args.queueKey) ∧
      Claims args ids s ((claimReady args).run none s).2 ∧
      ∀ answer, ((claimReady args).run none s).1 = some answer → answer = ids := by
  have hnothing : ∃ ids : List JobId, ids.Nodup ∧ (∀ id ∈ ids, id ∈ s.queues args.queueKey) ∧
      Claims args ids s ((Script.pure [] : Script Store (List JobId)).run none s).2 ∧
      ∀ answer, ((Script.pure [] : Script Store (List JobId)).run none s).1 = some answer →
        answer = ids :=
    ⟨[], .nil, by simp, .nil args s, fun answer h => (Option.some.inj h).symm⟩
  unfold claimReady
  split_ifs with hmax htimeout
  · exact hnothing
  · exact hnothing
  rw [run_ask_bind]
  obtain ⟨ids, hids, hsub, hdone, hanswer⟩ := @claimEach_claims args s s
    ((s.queues args.queueKey).upTo args.nowMs (max (args.maxClaims * 4) args.maxClaims)) []
    (by simpa using SortedSet.nodup_upTo _ _ _) (.nil args s) fun id _ => .refl id s
  refine ⟨ids, hids, fun id hid => ?_, hdone, hanswer⟩
  exact SortedSet.mem_of_mem_upTo (by simpa using hsub id hid)

end Each

-- A claim, whatever befalls it, is nothing to the jobs outside its queue.

theorem gives_claimEach (args : ClaimArgs) (candidates claimed : List JobId) :
    Gives (fun ids => ∀ id ∈ ids, id ∈ candidates ∨ id ∈ claimed)
      (claimEach args candidates claimed) := by
  induction candidates generalizing claimed with
  | nil => exact .pure fun id hid => .inr hid
  | cons candidate candidates ih =>
      unfold claimEach
      split
      · exact .pure fun id hid => .inr hid
      · refine .bind fun taken budget store ids rest after heq id hid => ?_
        rcases ih _ _ _ _ _ _ heq id hid with hlater | hclaimed
        · exact .inl (List.mem_cons_of_mem _ hlater)
        · cases taken with
          | false => exact .inr hclaimed
          | true =>
              rcases List.mem_append.mp hclaimed with hbefore | hnow
              · exact .inr hbefore
              · exact .inl (List.mem_singleton.mp hnow ▸ List.mem_cons_self)

theorem sameJob_claimReady {args : ClaimArgs} {id : JobId} {s : Store}
    (h : id ∉ s.queues args.queueKey) (budget : Budget) :
    SameJob id s (claimReady args budget s).2 := by
  unfold claimReady
  split
  · exact .refl id s
  · split
    · exact .refl id s
    · apply keeps_ask_bind (.refl id s)
      apply (frame_sameJob id).keeps_claimEach trivial trivial trivial trivial
      rintro candidate hcandidate rfl
      exact h (SortedSet.mem_of_mem_upTo hcandidate)

theorem claimReady_mem {args : ClaimArgs} {id : JobId} {s after : Store} {budget rest : Budget}
    {ids : List JobId} (h : claimReady args budget s = (some (ids, rest), after))
    (hid : id ∈ ids) : id ∈ s.queues args.queueKey := by
  unfold claimReady at h
  split at h
  · obtain ⟨⟨rfl, -⟩, -⟩ := by simpa [Script.pure] using h
    cases hid
  · split at h
    · obtain ⟨⟨rfl, -⟩, -⟩ := by simpa [Script.pure] using h
      cases hid
    · dsimp only at h
      rcases gives_ask_bind (gives_claimEach args _ []) h id hid with hcandidate | hnone
      · exact SortedSet.mem_of_mem_upTo hcandidate
      · cases hnone

end Rrq.Store

namespace Rrq.Cmd

open Store

-- A claim without a fault inside the script.
theorem atomicClaimReadyJobs_inv {args : Scripts.ClaimArgs} {fault : Fault}
    {page : Nat × List String} {s t : Store} {answer : Except RedisError (List JobId)}
    (hf : fault = .none ∨ fault = .refused)
    (h : (atomicClaimReadyJobs args).exec fault page s = (answer, t)) :
    ∃ ids, ids.Nodup ∧ (∀ id ∈ ids, id ∈ s.queues args.queueKey) ∧ Store.Claims args ids s t ∧
      ∀ claimed, answer = .ok claimed → claimed = ids := by
  rcases hf with rfl | rfl
  · obtain ⟨ids, hids, hsub, hdone, hanswer⟩ := claimReady_claims args s
    simp only [exec, script] at h
    generalize (Scripts.claimReady args).run none s = result at h hdone hanswer
    obtain ⟨found, after⟩ := result
    obtain ⟨rfl, rfl⟩ := Prod.mk.injEq .. ▸ h
    refine ⟨ids, hids, hsub, hdone, fun claimed hc => hanswer claimed ?_⟩
    cases found with
    | none => cases hc
    | some value => exact congrArg some (Except.ok.inj hc)
  · obtain ⟨rfl, rfl⟩ := Prod.mk.injEq .. ▸ h
    exact ⟨[], .nil, by simp, .nil args s, by rintro _ ⟨⟩⟩

theorem sameJob_atomicClaimReadyJobs {args : Scripts.ClaimArgs} {id : JobId} {s : Store}
    (h : id ∉ s.queues args.queueKey) (fault : Fault) (page : Nat × List String) :
    SameJob id s ((atomicClaimReadyJobs args).exec fault page s).2 := by
  have hrun : ∀ budget, SameJob id s ((Scripts.claimReady args).run budget s).2 := by
    intro budget
    have hsame := sameJob_claimReady h budget
    unfold Script.run
    split <;> rename_i heq <;> simpa [heq] using hsame
  cases fault with
  | none => exact hrun none
  | refused => exact .refl id s
  | stops calls => exact hrun (some calls)

theorem atomicClaimReadyJobs_mem {args : Scripts.ClaimArgs} {id : JobId} {s t : Store}
    {fault : Fault} {page : Nat × List String} {ids : List JobId}
    (h : (atomicClaimReadyJobs args).exec fault page s = (.ok ids, t)) (hid : id ∈ ids) :
    id ∈ s.queues args.queueKey := by
  have hrun : ∀ budget, ((Scripts.claimReady args).run budget s).1 = some ids →
      id ∈ s.queues args.queueKey := by
    intro budget hrun
    unfold Script.run at hrun
    split at hrun
    · cases hrun
    · rename_i heq
      obtain rfl := Option.some.inj hrun
      exact claimReady_mem heq hid
  have hanswer : ((atomicClaimReadyJobs args).exec fault page s).1 = .ok ids := by rw [h]
  cases fault with
  | none =>
      apply hrun none
      simp only [exec, script] at hanswer
      cases hfound : ((Scripts.claimReady args).run none s).1 with
      | none => simp [hfound] at hanswer
      | some found => simpa [hfound] using hanswer
  | refused => cases hanswer
  | stops calls =>
      apply hrun (some calls)
      simp only [exec, script] at hanswer
      cases hfound : ((Scripts.claimReady args).run (some calls) s).1 with
      | none => simp [hfound] at hanswer
      | some found => simpa [hfound] using hanswer

end Rrq.Cmd
