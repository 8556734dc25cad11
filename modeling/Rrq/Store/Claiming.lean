import Rrq.Store.Atomic
import Rrq.Store.Claim

-- What claim_ready.lua answers, and what it leaves behind, for any mix of candidates.

namespace Rrq.Store

open Script Scripts

variable {args : ClaimArgs} {s t u : Store} {id : JobId}

-- The job is there and nobody holds it.
def Claimable (s : Store) (id : JobId) : Prop := (s.jobs id).isSome ∧ s.locks id = none

instance (s : Store) : DecidablePred s.Claimable := fun id =>
  decidable_of_iff ((s.jobs id).isSome ∧ (s.locks id).isNone) (by simp [Claimable])

-- The candidates of a claim.
def window (args : ClaimArgs) (s : Store) : List JobId :=
  (s.queues args.queueKey).upTo args.nowMs (max (args.maxClaims * 4) args.maxClaims)

-- The candidates that the loop meets before it has taken so many jobs.
def met (s : Store) : Nat → List JobId → List JobId
  | 0, _ => []
  | _, [] => []
  | room + 1, id :: ids =>
      if s.Claimable id then id :: met s room ids else id :: met s (room + 1) ids

-- The lock timeout of a job, as the script computes it.
def expiry (args : ClaimArgs) (s : Store) (id : JobId) : ℚ :=
  lockTimeoutMs args.defaultLockTimeoutMs args.lockTimeoutExtensionSeconds
    (((s.hash id).bind JobHash.jobTimeoutSeconds).bind IntText.number)

-- The lock of a job that is taken.
def claimLock (args : ClaimArgs) (s : Store) (id : JobId) : Volatile LockCell where
  value := .owner args.workerId
  expireAt := some (s.now + (expiry args s id).num)

-- The store once some candidates are taken and some without a hash are dropped.
structure Claiming (args : ClaimArgs) (taken dropped : List JobId) (s t : Store) : Prop where
  jobs : ∀ id, t.jobs id = if id ∈ taken then (s.jobs id).map fun cell =>
    { cell with value := claimHash args cell.value } else s.jobs id
  locks : ∀ id, t.locks id = if id ∈ taken then some (claimLock args s id) else s.locks id
  queue : ∀ id, (t.queues args.queueKey).score? id =
    if id ∈ taken ∨ id ∈ dropped then none else (s.queues args.queueKey).score? id
  queues : ∀ queue, queue ≠ args.queueKey → t.queues queue = s.queues queue
  tracked : ∀ id, (t.active args.workerId).score? id =
    if id ∈ taken then some (args.startTime.timestamp : ℚ) else (s.active args.workerId).score? id
  active : ∀ worker, worker ≠ args.workerId → t.active worker = s.active worker
  rest : SameRest s t

namespace Claiming

variable {taken dropped : List JobId}

theorem nil (args : ClaimArgs) (s : Store) : Claiming args [] [] s s where
  jobs _ := by simp
  locks _ := by simp
  queue _ := by simp
  queues _ _ := rfl
  tracked _ := by simp
  active _ _ := rfl
  rest := rfl

theorem now_eq (h : Claiming args taken dropped s t) : t.now = s.now := by
  rw [h.rest]

-- One more job without a hash.
theorem drop (h : Claiming args taken dropped s t) (id : JobId) :
    Claiming args taken (dropped ++ [id]) s (t.zrem args.queueKey id) where
  jobs := h.jobs
  locks := h.locks
  queue other := by
    by_cases ho : other = id
    · subst ho
      simp [zrem, SortedSet.score?_erase_self]
    · simp [zrem, SortedSet.score?_erase_of_ne ho, h.queue, ho]
  queues queue hq := by simp [zrem, hq, h.queues queue hq]
  tracked := h.tracked
  active := h.active
  rest := h.rest.trans rfl

-- The job once it is taken.
def taking (args : ClaimArgs) (s t : Store) (id : JobId) : Store :=
  ((((t.setLock id (some (claimLock args s id))).zrem args.queueKey id).hset id
    (claimHash args)).zaddActive args.workerId id args.startTime.timestamp)

theorem take (h : Claiming args taken dropped s t) (hnew : id ∉ taken)
    (hjob : (s.jobs id).isSome) : Claiming args (taken ++ [id]) dropped s (taking args s t id) := by
  obtain ⟨cell, hcell⟩ := Option.isSome_iff_exists.mp hjob
  have htcell : t.jobs id = some cell := by rw [h.jobs, if_neg hnew, hcell]
  have heq : taking args s t id = ((((t.setLock id (some (claimLock args s id))).zrem
      args.queueKey id).setJob id (some { cell with value := claimHash args cell.value })).zaddActive
        args.workerId id args.startTime.timestamp) := by
    unfold taking hset
    simp [zrem, htcell]
  rw [heq]
  refine
    { jobs := fun other => ?_
      locks := fun other => ?_
      queue := fun other => ?_
      queues := fun queue hq => ?_
      tracked := fun other => ?_
      active := fun worker hw => ?_
      rest := h.rest.trans rfl }
  · by_cases ho : other = id
    · subst ho
      simp [zaddActive, zrem, hcell]
    · simp [zaddActive, zrem, ho, h.jobs]
  · by_cases ho : other = id
    · subst ho
      simp [zaddActive, zrem]
    · simp [zaddActive, zrem, ho, h.locks]
  · by_cases ho : other = id
    · subst ho
      simp [zaddActive, zrem, SortedSet.score?_erase_self]
    · simp [zaddActive, zrem, SortedSet.score?_erase_of_ne ho, ho, h.queue]
  · simp [zaddActive, zrem, hq, h.queues queue hq]
  · by_cases ho : other = id
    · subst ho
      simp [zaddActive, zrem]
    · simp [zaddActive, zrem, SortedSet.score?_insert_of_ne ho, ho, h.tracked]
  · simp [zaddActive, zrem, hw, h.active worker hw]

end Claiming

-- One candidate, if Redis takes the expiry of its lock.
theorem run_claimOne {taken dropped : List JobId} (h : Claiming args taken dropped s t)
    (hnew : id ∉ taken) (hold : id ∉ dropped) (hq : id ∈ s.queues args.queueKey)
    (hpx : (s.jobs id).isSome → s.PxOk (expiry args s id)) :
    (claimOne args id).run none t =
      if s.Claimable id then (some true, Claiming.taking args s t id)
      else (some false, if (s.jobs id).isSome then t else t.zrem args.queueKey id) := by
  have hjobs : t.jobs id = s.jobs id := by rw [h.jobs, if_neg hnew]
  have hlocks : t.locks id = s.locks id := by rw [h.locks, if_neg hnew]
  have hqueued : id ∈ t.queues args.queueKey := by
    rw [← SortedSet.isSome_score?, h.queue, if_neg (by simp [hnew, hold])]
    exact SortedSet.isSome_score?.mpr hq
  unfold claimOne
  rw [run_ask_bind, hjobs]
  cases hjob : s.jobs id with
  | none =>
      have hnot : ¬ s.Claimable id := by simp [Claimable, hjob]
      rw [if_neg hnot]
      rfl
  | some cell =>
      have hseconds : ((t.hash id).bind JobHash.jobTimeoutSeconds).bind IntText.number =
          ((s.hash id).bind JobHash.jobTimeoutSeconds).bind IntText.number := by
        simp only [Store.hash, hjobs]
      have hok : t.PxOk (expiry args s id) := by
        have hs := hpx (by rw [hjob]; rfl)
        unfold PxOk at hs ⊢
        rwa [h.now_eq]
      have hexpiry : lockTimeoutMs args.defaultLockTimeoutMs args.lockTimeoutExtensionSeconds
          (((s.hash id).bind JobHash.jobTimeoutSeconds).bind IntText.number) = expiry args s id := rfl
      simp only [Option.isSome_some, if_true, run_ask_bind, run_call_bind, hseconds, hexpiry]
      unfold setLockNx
      rw [if_pos hok, hlocks, h.now_eq]
      cases hlock : s.locks id with
      | some held =>
          have hnot : ¬ s.Claimable id := by simp [Claimable, hlock]
          rw [if_neg hnot]
          rfl
      | none =>
          have hclaimable : s.Claimable id := by simp [Claimable, hjob, hlock]
          rw [if_pos hclaimable]
          simp only [Option.isSome_none, Bool.false_eq_true, if_false, if_true, run_call_bind,
            setLock_queues, hqueued, decide_true, run_write_bind, pure_eq, run_pure]
          rfl

-- The loop, from any point on.
theorem run_claimEach (candidates : List JobId) {taken dropped : List JobId}
    (h : Claiming args taken dropped s t) (hnodup : candidates.Nodup)
    (hnew : ∀ id ∈ candidates, id ∉ taken ∧ id ∉ dropped)
    (hq : ∀ id ∈ candidates, id ∈ s.queues args.queueKey) {room : Nat}
    (hroom : taken.length + room = args.maxClaims)
    (hpx : ∀ id ∈ met s room candidates, (s.jobs id).isSome → s.PxOk (expiry args s id)) :
    ∃ after, (claimEach args candidates taken).run none t =
        (some (taken ++ (candidates.filter (s.Claimable ·)).take room), after) ∧
      Claiming args (taken ++ (candidates.filter (s.Claimable ·)).take room)
        (dropped ++ (met s room candidates).filter fun id => (s.jobs id).isNone) s after := by
  induction candidates generalizing taken dropped t room with
  | nil =>
      refine ⟨t, ?_, ?_⟩
      · simp [claimEach]
      · cases room <;> simpa [met] using h
  | cons id candidates ih =>
      unfold claimEach
      cases room with
      | zero =>
          rw [if_pos (by omega)]
          exact ⟨t, by simp, by simpa [met] using h⟩
      | succ room =>
          obtain ⟨hid, hrest⟩ := List.nodup_cons.mp hnodup
          obtain ⟨hnot, hold⟩ := hnew id List.mem_cons_self
          have hmem : id ∈ met s (room + 1) (id :: candidates) := by
            unfold met
            split_ifs <;> exact List.mem_cons_self
          rw [if_neg (by omega), run_bind (steady_claimOne args id),
            run_claimOne h hnot hold (hq id List.mem_cons_self) (hpx id hmem)]
          have hq' : ∀ other ∈ candidates, other ∈ s.queues args.queueKey :=
            fun other ho => hq other (List.mem_cons_of_mem _ ho)
          by_cases hc : s.Claimable id
          · have hpx' : ∀ other ∈ met s room candidates, (s.jobs other).isSome →
                s.PxOk (expiry args s other) := by
              intro other ho
              apply hpx
              unfold met
              rw [if_pos hc]
              exact List.mem_cons_of_mem _ ho
            have hnew' : ∀ other ∈ candidates, other ∉ taken ++ [id] ∧ other ∉ dropped := by
              intro other ho
              obtain ⟨hn, hd⟩ := hnew other (List.mem_cons_of_mem _ ho)
              have hne : other ≠ id := fun he => hid (he ▸ ho)
              exact ⟨by simp [hn, hne], hd⟩
            have hroom' : (taken ++ [id]).length + room = args.maxClaims := by
              simp
              omega
            obtain ⟨after, hrun, hdone⟩ := ih (h.take hnot hc.1) hrest hnew' hq' hroom' hpx'
            have hnone : (s.jobs id).isNone = false := by simpa using hc.1
            refine ⟨after, ?_, ?_⟩
            · simpa [hc] using hrun
            · simpa [hc, met, hnone] using hdone
          · have hpx' : ∀ other ∈ met s (room + 1) candidates, (s.jobs other).isSome →
                s.PxOk (expiry args s other) := by
              intro other ho
              apply hpx
              unfold met
              rw [if_neg hc]
              exact List.mem_cons_of_mem _ ho
            rw [if_neg hc]
            dsimp only
            by_cases hjob : (s.jobs id).isSome
            · rw [if_pos hjob]
              have hnew' : ∀ other ∈ candidates, other ∉ taken ∧ other ∉ dropped :=
                fun other ho => hnew other (List.mem_cons_of_mem _ ho)
              obtain ⟨after, hrun, hdone⟩ := ih h hrest hnew' hq' hroom hpx'
              have hnone : (s.jobs id).isNone = false := by simpa using hjob
              refine ⟨after, ?_, ?_⟩
              · simpa [hc] using hrun
              · simpa [hc, met, hnone] using hdone
            · rw [if_neg hjob]
              have hnew' : ∀ other ∈ candidates, other ∉ taken ∧ other ∉ dropped ++ [id] := by
                intro other ho
                obtain ⟨hn, hd⟩ := hnew other (List.mem_cons_of_mem _ ho)
                have hne : other ≠ id := fun he => hid (he ▸ ho)
                exact ⟨hn, by simp [hd, hne]⟩
              obtain ⟨after, hrun, hdone⟩ := ih (h.drop id) hrest hnew' hq' hroom hpx'
              have hnone : (s.jobs id).isNone = true := by simpa using hjob
              refine ⟨after, ?_, ?_⟩
              · simpa [hc] using hrun
              · simpa [hc, met, hnone] using hdone

-- The whole script.
theorem run_claimReady (hdefault : 0 < args.defaultLockTimeoutMs)
    (hpx : ∀ id ∈ met s args.maxClaims (window args s), (s.jobs id).isSome →
      s.PxOk (expiry args s id)) :
    ∃ after, (claimReady args).run none s =
        (some (((window args s).filter (s.Claimable ·)).take args.maxClaims), after) ∧
      Claiming args (((window args s).filter (s.Claimable ·)).take args.maxClaims)
        ((met s args.maxClaims (window args s)).filter fun id => (s.jobs id).isNone) s after := by
  unfold claimReady
  by_cases hmax : args.maxClaims = 0
  · rw [if_pos hmax, hmax]
    exact ⟨s, by simp, by simpa [met] using Claiming.nil args s⟩
  · rw [if_neg hmax, if_neg (by omega), run_ask_bind]
    exact run_claimEach (window args s) (.nil args s) (SortedSet.nodup_upTo _ _ _)
      (by simp) (fun id hid => SortedSet.mem_of_mem_upTo hid) (by simp) hpx

-- The expiry in numbers that doubles hold.

theorem lockTimeoutMs_of_positive {defaultMs extension timeout : Int} (ht : 0 < timeout)
    (he : 0 ≤ extension) (hsmall : (timeout + extension) * 1000 < 2 ^ 53) :
    lockTimeoutMs defaultMs extension (some timeout) =
      (((timeout + extension) * 1000 : Int) : ℚ) := by
  have htimeout : Double.round (timeout : ℚ) = timeout :=
    Double.round_intCast (by rw [abs_lt]; constructor <;> omega)
  have hextension : Double.round (extension : ℚ) = extension :=
    Double.round_intCast (by rw [abs_lt]; constructor <;> omega)
  have hsum : Double.add (timeout : ℚ) extension = ((timeout + extension : Int) : ℚ) := by
    unfold Double.add
    rw [show (timeout : ℚ) + extension = ((timeout + extension : Int) : ℚ) by push_cast; rfl]
    exact Double.round_intCast (by rw [abs_lt]; constructor <;> omega)
  have hproduct : Double.mul ((timeout + extension : Int) : ℚ) 1000 =
      (((timeout + extension) * 1000 : Int) : ℚ) := by
    unfold Double.mul
    rw [show ((timeout + extension : Int) : ℚ) * 1000 = (((timeout + extension) * 1000 : Int) : ℚ) by
      push_cast; rfl]
    exact Double.round_intCast (by rw [abs_lt]; constructor <;> omega)
  unfold lockTimeoutMs
  simp only [Option.map_some, htimeout, hextension, hsum, hproduct]
  apply if_pos
  refine ⟨by exact_mod_cast ht, ?_, ?_⟩
  · exact_mod_cast (by omega : 0 < (timeout + extension) * 1000)
  · unfold max_redis_px
    exact_mod_cast (by omega : (timeout + extension) * 1000 ≤ 9223372036854775808)

theorem lockTimeoutMs_default {defaultMs extension : Int} {seconds : Option ℚ}
    (hseconds : ∀ x ∈ seconds, x ≤ 0) (hsmall : |defaultMs| < 2 ^ 53) :
    lockTimeoutMs defaultMs extension seconds = defaultMs := by
  unfold lockTimeoutMs
  cases seconds with
  | none => exact Double.round_intCast hsmall
  | some x =>
      have hx : ¬ 0 < Double.round x := not_lt.mpr (Double.round_nonpos (hseconds x rfl))
      simp only [Option.map_some]
      rw [if_neg fun h => hx h.1]
      exact Double.round_intCast hsmall

end Rrq.Store

namespace Rrq.Cmd

open Store

-- What is expected of a job that is taken.
structure Claimed (args : Scripts.ClaimArgs) (id : JobId) (s t : Store) : Prop where
  queue : id ∉ t.queues args.queueKey
  hash : ∃ h, s.hash id = some h ∧ t.hash id = some (claimHash args h)
  lock : t.locks id = some (claimLock args s id)
  timed : ∀ h timeout, s.hash id = some h → h.jobTimeoutSeconds = some (.int timeout) →
    0 < timeout → (timeout + args.lockTimeoutExtensionSeconds) * 1000 < 2 ^ 53 →
      (claimLock args s id).expireAt =
        some (s.now + (timeout + args.lockTimeoutExtensionSeconds) * 1000)
  untimed : ∀ h, s.hash id = some h →
    (∀ x ∈ h.jobTimeoutSeconds.bind IntText.number, x ≤ 0) →
      args.defaultLockTimeoutMs < 2 ^ 53 →
      (claimLock args s id).expireAt = some (s.now + args.defaultLockTimeoutMs)
  active : id ∈ t.active args.workerId

theorem claimed_of_claiming {args : Scripts.ClaimArgs} {taken dropped : List JobId} {s t : Store}
    (hdefault : 0 < args.defaultLockTimeoutMs) (hextension : 0 ≤ args.lockTimeoutExtensionSeconds)
    (h : Claiming args taken dropped s t) {id : JobId} (hid : id ∈ taken)
    (hjob : (s.jobs id).isSome) : Claimed args id s t where
  queue hq := by
    rw [← SortedSet.isSome_score?, h.queue, if_pos (.inl hid)] at hq
    cases hq
  hash := by
    obtain ⟨cell, hcell⟩ := Option.isSome_iff_exists.mp hjob
    refine ⟨cell.value, by simp [Store.hash, hcell], ?_⟩
    simp [Store.hash, h.jobs, hid, hcell]
  lock := by rw [h.locks, if_pos hid]
  timed found timeout hfound htimeout hpos hsmall := by
    unfold claimLock expiry
    simp only [hfound, Option.bind_some, htimeout, IntText.number]
    rw [lockTimeoutMs_of_positive hpos hextension hsmall]
    rfl
  untimed found hfound hseconds hsmall := by
    have habs : |args.defaultLockTimeoutMs| < 2 ^ 53 := by
      rw [abs_of_pos hdefault]
      exact hsmall
    unfold claimLock expiry
    simp only [hfound, Option.bind_some]
    rw [lockTimeoutMs_default hseconds habs]
    rfl
  active := by
    rw [← SortedSet.isSome_score?, h.tracked, if_pos hid]
    rfl

-- A claim takes the first jobs of its window that are there and free, drops the ids without a
-- hash that it met on the way, and touches nothing else.
theorem atomicClaimReadyJobs_spec (args : Scripts.ClaimArgs) (page : Nat × List String) (s : Store)
    (hdefault : 0 < args.defaultLockTimeoutMs) (hextension : 0 ≤ args.lockTimeoutExtensionSeconds)
    (hpx : ∀ id ∈ met s args.maxClaims (window args s), (s.jobs id).isSome →
      s.PxOk (expiry args s id)) :
    ∃ t, (atomicClaimReadyJobs args).exec .none page s =
        (.ok (((window args s).filter (s.Claimable ·)).take args.maxClaims), t) ∧
      Claiming args (((window args s).filter (s.Claimable ·)).take args.maxClaims)
        ((met s args.maxClaims (window args s)).filter fun id => (s.jobs id).isNone) s t ∧
      ∀ id ∈ ((window args s).filter (s.Claimable ·)).take args.maxClaims, Claimed args id s t := by
  obtain ⟨t, hrun, hdone⟩ := run_claimReady hdefault hpx
  refine ⟨t, ?_, hdone, fun id hid => ?_⟩
  · simp only [exec, script, hrun]
    rfl
  · have hclaimable : s.Claimable id := by
      simpa using (List.mem_filter.mp (List.mem_of_mem_take hid)).2
    exact claimed_of_claiming hdefault hextension hdone hid hclaimable.1

-- A claim takes a job as soon as its window shows one that is there and free.
theorem atomicClaimReadyJobs_progress (args : Scripts.ClaimArgs) (page : Nat × List String)
    (s : Store) (hmax : 0 < args.maxClaims) (hdefault : 0 < args.defaultLockTimeoutMs)
    (hpx : ∀ id ∈ met s args.maxClaims (window args s), (s.jobs id).isSome →
      s.PxOk (expiry args s id)) :
    ∃ ids t, (atomicClaimReadyJobs args).exec .none page s = (.ok ids, t) ∧
      (ids ≠ [] ↔ ∃ id ∈ window args s, s.Claimable id) := by
  obtain ⟨t, hrun, -⟩ := run_claimReady hdefault hpx
  refine ⟨((window args s).filter (s.Claimable ·)).take args.maxClaims, t, ?_, ?_⟩
  · simp only [exec, script, hrun]
    rfl
  · simp [List.take_eq_nil_iff, hmax.ne']

-- Jobs in one queue, as a client leaves them, with a lock on the first of them.

def sampleArgs : Scripts.ClaimArgs where
  queueKey := "rrq:queue:default"
  workerId := "w"
  nowMs := 0
  maxClaims := 1
  defaultLockTimeoutMs := 360000
  lockTimeoutExtensionSeconds := 60
  startTime := ⟨0⟩

def queuedStore (timeout : Int) (ids : List JobId) : Store :=
  ids.foldl (fun s id => (s.hset id fun h =>
    { h with jobTimeoutSeconds := some (.int timeout) }).zadd "rrq:queue:default" id 0) .empty

def blockedStore (ids locked : List JobId) : Store :=
  locked.foldl (fun s id => s.setLock id (some { value := .owner "v" })) (queuedStore 300 ids)

theorem atomicClaimReadyJobs_spec_sample :
    ∃ t, (atomicClaimReadyJobs sampleArgs).exec .none (0, []) (blockedStore ["a", "b", "c"] ["a"]) =
        (.ok ["b"], t) ∧ t.locks "b" = some { value := .owner "w", expireAt := some 360000 } := by
  obtain ⟨t, hexec, -, hclaimed⟩ := atomicClaimReadyJobs_spec sampleArgs (0, [])
    (blockedStore ["a", "b", "c"] ["a"]) (by decide) (by decide) (by decide +kernel)
  have hids : ((window sampleArgs (blockedStore ["a", "b", "c"] ["a"])).filter
      ((blockedStore ["a", "b", "c"] ["a"]).Claimable ·)).take sampleArgs.maxClaims = ["b"] := by
    decide +kernel
  rw [hids] at hexec hclaimed
  have hb := hclaimed "b" (by simp)
  refine ⟨t, hexec, hb.lock.trans (congrArg some ?_)⟩
  have hexpire := hb.timed { jobTimeoutSeconds := some (.int 300) } 300 (by rfl) rfl (by decide)
    (by decide)
  calc claimLock sampleArgs (blockedStore ["a", "b", "c"] ["a"]) "b"
      = { value := .owner "w", expireAt :=
          (claimLock sampleArgs (blockedStore ["a", "b", "c"] ["a"]) "b").expireAt } := rfl
    _ = { value := .owner "w", expireAt := some 360000 } := by rw [hexpire]; rfl

-- A timeout that doubles cannot hold in milliseconds gives way to the default.
theorem atomicClaimReadyJobs_default :
    ¬ ∀ (args : Scripts.ClaimArgs) (page : Nat × List String) (s : Store) (ids : List JobId)
      (t : Store), 0 < args.maxClaims → 0 < args.defaultLockTimeoutMs →
      0 ≤ args.lockTimeoutExtensionSeconds →
      (∀ id ∈ met s args.maxClaims (window args s), (s.jobs id).isSome →
        s.PxOk (expiry args s id)) →
      (atomicClaimReadyJobs args).exec .none page s = (.ok ids, t) →
      ∀ id ∈ ids, ∀ h timeout, s.hash id = some h → h.jobTimeoutSeconds = some (.int timeout) →
        0 < timeout → ((t.locks id).bind Volatile.expireAt) =
          some (s.now + (timeout + args.lockTimeoutExtensionSeconds) * 1000) := by
  intro h
  have hanswer : (atomicClaimReadyJobs sampleArgs).exec .none (0, [])
      (queuedStore 10000000000000000 ["a"]) = (.ok ["a"], _) :=
    Prod.ext (by decide +kernel) rfl
  have hexpire := h sampleArgs (0, []) (queuedStore 10000000000000000 ["a"]) ["a"] _ (by decide)
    (by decide) (by decide) (by decide +kernel) hanswer "a" (by simp)
    { jobTimeoutSeconds := some (.int 10000000000000000) } 10000000000000000 rfl rfl (by decide)
  exact absurd hexpire (by decide +kernel)

theorem atomicClaimReadyJobs_progress_sample :
    ∃ ids t, (atomicClaimReadyJobs sampleArgs).exec .none (0, [])
      (blockedStore ["a", "b", "c", "d"] ["a", "b", "c"]) = (.ok ids, t) ∧ ids ≠ [] := by
  obtain ⟨ids, t, hexec, hsome⟩ := atomicClaimReadyJobs_progress sampleArgs (0, [])
    (blockedStore ["a", "b", "c", "d"] ["a", "b", "c"]) (by decide) (by decide) (by decide +kernel)
  exact ⟨ids, t, hexec, hsome.mpr ⟨"d", by decide +kernel, by decide +kernel⟩⟩

-- Four locked jobs in front hide the fifth from a claim for one.
theorem atomicClaimReadyJobs_starves :
    ¬ ∀ (args : Scripts.ClaimArgs) (page : Nat × List String) (s : Store), 0 < args.maxClaims →
      0 < args.defaultLockTimeoutMs →
      (∃ id ∈ s.queues args.queueKey, (∃ score, (s.queues args.queueKey).score? id = some score ∧
        score ≤ args.nowMs) ∧ s.Claimable id) →
      ∀ ids t, (atomicClaimReadyJobs args).exec .none page s = (.ok ids, t) → ids ≠ [] := by
  intro h
  have hnone : (atomicClaimReadyJobs sampleArgs).exec .none (0, [])
      (blockedStore ["a", "b", "c", "d", "e"] ["a", "b", "c", "d"]) = (.ok [], _) :=
    Prod.ext (by decide +kernel) rfl
  exact h sampleArgs (0, []) (blockedStore ["a", "b", "c", "d", "e"] ["a", "b", "c", "d"])
    (by decide) (by decide) ⟨"e", by decide +kernel, ⟨0, by decide +kernel, by decide⟩,
      by decide +kernel⟩ [] _ hnone rfl

end Rrq.Cmd
