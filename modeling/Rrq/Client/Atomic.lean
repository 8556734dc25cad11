import Rrq.Client
import Rrq.Producer.Idempotency
import Rrq.Store.Unique

-- What an enqueue of the client leaves in the store, whichever of its commands fail.

namespace Rrq

namespace Cmd

variable {key : String} {fault : Fault} {page : Nat × List String} {s t : Store}

theorem getLockTtl_store (key : String) (fault : Fault) (page : Nat × List String) (s : Store) :
    ((getLockTtl key).exec fault page s).2 = s := by
  cases fault <;> rfl

theorem getLockTtl_held {remaining : Int}
    (h : (getLockTtl key).exec fault page s = (.ok remaining, t)) (hpos : 0 < remaining) :
    (s.uniqueLocks key).isSome := by
  by_contra hnone
  have hzero := getLockTtl_free (by simpa using hnone) h
  omega

-- A script that runs as a whole or not at all.
theorem atomicEnqueueJob_cases {id : JobId} {queue : QueueKey} {mapping : JobHash} {score : ℚ}
    {answer : Except RedisError Bool} (hf : Producer.Whole fault)
    (h : (atomicEnqueueJob id queue mapping score).exec fault page s = (answer, t)) :
    ((∃ error, answer = .error error) ∧ t = s) ∨ (answer = .ok false ∧ t = s) ∨
      (answer = .ok true ∧ s.jobs id = none ∧
        t = (s.setJob id (some { value := mapping })).zadd queue id score) := by
  rcases hf with rfl | rfl
  · cases answer with
    | error error =>
        simp only [exec, script, Store.run_enqueue] at h
        split_ifs at h <;> cases h
    | ok created =>
        rcases atomicEnqueueJob_inv h with ⟨rfl, rfl⟩ | ⟨rfl, hnew, rfl⟩
        · exact .inr (.inl ⟨rfl, rfl⟩)
        · exact .inr (.inr ⟨rfl, hnew, rfl⟩)
  · obtain ⟨rfl, rfl⟩ := Prod.mk.inj h
    exact .inl ⟨⟨_, rfl⟩, rfl⟩

end Cmd

namespace RRQClient

-- The job is new, and it is queued and holds the unique lock that was free for it.
structure Added (uniqueKey : Option String) (job : Job) (queueName : QueueKey) (s t : Store) :
    Prop where
  fresh : s.jobs job.id = none
  jobs : t.jobs = Function.update s.jobs job.id (some { value := buildJobMapping job })
  queues : ∃ score, t.queues =
    Function.update s.queues queueName ((s.queues queueName).insert job.id score)
  unique : ∀ key, if uniqueKey = some key ∧ s.uniqueLocks key = none then
      (t.uniqueLocks key).map Volatile.value = some job.id
    else t.uniqueLocks key = s.uniqueLocks key

-- All or nothing.
def Settles (options : EnqueueOptions) (queueName : QueueKey) (s : Store) :
    Except EnqueueError Job → Store → Prop
  | .error _, t => t = s
  | .ok job, t => Added options.uniqueKey job queueName s t

-- What the reservation of the lock has done to the store.
def Locked (uniqueKey : Option String) (id : JobId) (s : Store) :
    Except EnqueueError (DateTime × Bool) → Store → Prop
  | .error _, t => t = s
  | .ok (_, false), t => t = s ∧ ∀ key, uniqueKey = some key → (s.uniqueLocks key).isSome
  | .ok (_, true), t => ∃ key cell, uniqueKey = some key ∧ s.uniqueLocks key = none ∧
      cell.value = id ∧ t = s.setUniqueLock key (some cell)

section Enqueue

variable {settings : RRQSettings} {options : EnqueueOptions} {pid : Pid} {role : Role}
  {oracle : Nat → Op → Chance} {n : Nat} {w : World}

theorem reserve_locked (key : String) (id : JobId) (enqueueTime runTime : DateTime)
    (lockTtlSeconds : Int) :
    Prog.Ends (World.exec pid role) oracle
      (fun answer after => Locked (some key) id w.store answer after.store)
      (reserve key id enqueueTime runTime lockTtlSeconds) n w := by
  have hpostpone : ∀ remaining s, s = w.store → (w.store.uniqueLocks key).isSome →
      Locked (some key) id w.store
        ((postpone enqueueTime runTime remaining).map fun time => (time, false)) s := by
    intro remaining s hs hheld
    cases postpone enqueueTime runTime remaining with
    | error error => exact hs
    | ok time => exact ⟨hs, fun found hfound => Option.some.inj hfound ▸ hheld⟩
  unfold reserve
  refine ends_redis fun answer s₁ w₁ hexec₁ hs₁ _ => ?_
  have hw₁ : w₁.store = w.store :=
    hs₁.trans ((congrArg Prod.snd hexec₁).symm.trans (Cmd.getLockTtl_store ..))
  cases answer with
  | error error => exact hw₁
  | ok remaining =>
      dsimp only
      split_ifs with hpos
      · exact hpostpone remaining _ hw₁ (Cmd.getLockTtl_held hexec₁ hpos)
      refine ends_redis fun taken s₂ w₂ hexec₂ hs₂ _ => ?_
      cases taken with
      | error error => exact hs₂.trans ((Cmd.acquireUniqueJobLock_error hexec₂).trans hw₁)
      | ok taken =>
          rw [hw₁] at hexec₂
          obtain ⟨rfl, hheld, rfl⟩ | ⟨rfl, hfree, rfl⟩ := Cmd.acquireUniqueJobLock_inv hexec₂
          · refine ends_redis fun answer s₃ w₃ hexec₃ hs₃ _ => ?_
            have hw₃ : w₃.store = w.store :=
              (hs₃.trans ((congrArg Prod.snd hexec₃).symm.trans (Cmd.getLockTtl_store ..))).trans hs₂
            cases answer with
            | error error => exact hw₃
            | ok remaining =>
                dsimp only
                split_ifs
                · exact hpostpone remaining _ hw₃ hheld
                · exact ⟨hw₃, fun found hfound => Option.some.inj hfound ▸ hheld⟩
          · exact ⟨key, _, rfl, hfree, rfl, hs₂⟩

theorem reserveIfUnique_locked (id : JobId) (enqueueTime runTime : DateTime)
    (lockTtlSeconds : Int) :
    Prog.Ends (World.exec pid role) oracle
      (fun answer after => Locked options.uniqueKey id w.store answer after.store)
      (reserveIfUnique options id enqueueTime runTime lockTtlSeconds) n w := by
  unfold reserveIfUnique
  cases options.uniqueKey with
  | none => exact ⟨rfl, nofun⟩
  | some key => exact reserve_locked key id enqueueTime runTime lockTtlSeconds

-- What the failures of the commands are taken to be: without effect, and none of a release.
structure Forgiving (oracle : Nat → Op → Chance) : Prop where
  whole : ∀ n op, Producer.Whole (oracle n op).fault
  releases : ∀ n key, (oracle n (.redis (.releaseUniqueJobLock key))).fault = .none

theorem releaseReserved_restores (ho : Forgiving oracle) {id : JobId} {s : Store}
    {runTime : DateTime} {uniqueAcquired : Bool}
    (h : Locked options.uniqueKey id s (.ok (runTime, uniqueAcquired)) w.store) :
    Prog.Ends (World.exec pid role) oracle (fun _ after => after.store = s)
      (releaseReserved options uniqueAcquired) n w := by
  cases uniqueAcquired with
  | false =>
      have hstore : w.store = s := h.1
      unfold releaseReserved
      cases options.uniqueKey <;> exact hstore
  | true =>
      obtain ⟨key, cell, hkey, hfree, -, hw⟩ := h
      unfold releaseReserved
      rw [hkey]
      refine ends_redis fun answer after w₁ hexec hw₁ _ => ?_
      rw [ho.releases] at hexec
      have hafter : w.store.setUniqueLock key none = after := congrArg Prod.snd hexec
      refine Prog.ends_ret (hw₁.trans (hafter.symm.trans ?_))
      rw [hw]
      simp [Store.setUniqueLock, ← hfree]

theorem added_locked {job : Job} {queueName : QueueKey} {s t : Store} {score : ℚ}
    {runTime : DateTime} {uniqueAcquired : Bool}
    (h : Locked options.uniqueKey job.id s (.ok (runTime, uniqueAcquired)) t)
    (hnew : t.jobs job.id = none) :
    Added options.uniqueKey job queueName s
      ((t.setJob job.id (some { value := buildJobMapping job })).zadd queueName job.id score) := by
  cases uniqueAcquired with
  | false =>
      obtain ⟨rfl, hheld⟩ := h
      refine ⟨hnew, rfl, ⟨score, rfl⟩, fun key => ?_⟩
      split_ifs with hfree
      · have hsome := hheld key hfree.1
        rw [hfree.2] at hsome
        cases hsome
      · rfl
  | true =>
      obtain ⟨key, cell, hkey, hfree, hcell, rfl⟩ := h
      refine ⟨hnew, rfl, ⟨score, rfl⟩, fun found => ?_⟩
      change if _ then (Function.update s.uniqueLocks key (some cell) found).map _ = _
        else Function.update s.uniqueLocks key (some cell) found = _
      by_cases hfound : found = key
      · subst hfound
        simp [hkey, hfree, hcell]
      · have hother : ¬ (options.uniqueKey = some found ∧ s.uniqueLocks found = none) := by
          rintro ⟨heq, -⟩
          exact hfound (Option.some.inj (heq.symm.trans hkey))
        rw [if_neg hother, Function.update_of_ne hfound]

theorem enqueueJob_atomic (ho : Forgiving oracle) {job : Job} {queueName : QueueKey} {s : Store}
    {runTime : DateTime} {uniqueAcquired : Bool}
    (h : Locked options.uniqueKey job.id s (.ok (runTime, uniqueAcquired)) w.store) :
    Prog.Ends (World.exec pid role) oracle
      (fun answer after => Settles options queueName s answer after.store)
      (enqueueJob options job queueName runTime uniqueAcquired) n w := by
  have hrelease : ∀ (error : EnqueueError) (n : Nat) (w₁ : World), w₁.store = w.store →
      Prog.Ends (World.exec pid role) oracle
        (fun answer after => Settles options queueName s answer after.store)
        (releaseReserved options uniqueAcquired >>= fun _ => pure (.error error)) n w₁ := by
    intro error n w₁ hw₁
    refine Prog.ends_bind (releaseReserved_restores ho (hw₁ ▸ h)) fun _ n after hafter => ?_
    exact hafter
  unfold enqueueJob
  refine ends_redis fun answer after w₁ hexec hw₁ _ => ?_
  rcases Cmd.atomicEnqueueJob_cases (ho.whole _ _) hexec with
    ⟨⟨error, rfl⟩, hsame⟩ | ⟨rfl, hsame⟩ | ⟨rfl, hnew, hafter⟩
  · exact hrelease _ _ w₁ (hw₁.trans hsame)
  · exact hrelease _ _ w₁ (hw₁.trans hsame)
  · exact Prog.ends_ret ((hw₁.trans hafter).symm ▸ added_locked h hnew)

-- A call that fails leaves the store as it was, and one that succeeds adds its job and nothing
-- else.
theorem enqueue_all_or_nothing (settings : RRQSettings) (functionName : String) (params : Params)
    (options : EnqueueOptions) (pid : Pid) (role : Role) (oracle : Nat → Op → Chance) (n : Nat)
    (w : World) (ho : Forgiving oracle) :
    Prog.Ends (World.exec pid role) oracle
      (fun answer after => Settles options
        (normalizeQueueName (options.queueName.getD settings.defaultQueueName)) w.store answer
        after.store)
      (enqueue settings functionName params options) n w := by
  unfold enqueue
  have hgiven : Prog.Ends (World.exec pid role) oracle (fun _ after => after = w)
      (given options.jobId (perform .newId)) n w := by
    unfold given
    cases options.jobId <;> rfl
  refine Prog.ends_bind hgiven fun id n after hafter => ?_
  subst hafter
  dsimp only
  split_ifs
  · exact Prog.ends_ret rfl
  split
  · exact Prog.ends_ret rfl
  split_ifs
  · exact Prog.ends_ret rfl
  refine ends_utcNow fun enqueueTime => ?_
  split
  · exact Prog.ends_ret rfl
  · refine Prog.ends_bind (reserveIfUnique_locked id _ _ _) fun reserved n w₁ hreserved => ?_
    cases reserved with
    | error error => exact Prog.ends_ret hreserved
    | ok reserved =>
        obtain ⟨runTime, uniqueAcquired⟩ := reserved
        exact enqueueJob_atomic ho hreserved

end Enqueue

-- A client asks for an id that is taken, under a unique key that is free.

def duplicateStore : Store := Store.empty.hset "taken" fun h => { h with id := some "taken" }

-- The commands fail that the caller names.
def failing (fails : Cmd → Bool) (_ : Nat) (op : Op) : Chance :=
  match op with
  | .redis c => { fault := if fails c then .refused else .none }
  | _ => {}

def releasing : Cmd → Bool
  | .releaseUniqueJobLock _ => true
  | _ => false

abbrev duplicateRun (fails : Cmd → Bool) : Except EnqueueError Job × Nat × World :=
  Prog.run (World.exec 0 .client) (failing fails)
    (enqueue {} "f" [] { jobId := some "taken", uniqueKey := some "k" }) 0 (.ofStore duplicateStore)

-- A queue still holds an id without a hash, and a client asks for that id.

def leftoverStore : Store := Store.empty.zadd "rrq:queue:default" "left" 7

abbrev leftoverRun : Except EnqueueError Job × Nat × World :=
  Prog.run (World.exec 0 .client) (failing fun _ => false)
    (enqueue {} "f" [] { jobId := some "left" }) 0 (.ofStore leftoverStore)

-- The lock that the first call takes meanwhile stays if its release fails. The second call adds a
-- hash and no entry.
theorem enqueue_all_or_nothing_fails :
    ((duplicateRun releasing).1.map (fun _ => ()) = .error .jobIdExists ∧
      duplicateStore.uniqueLocks "k" = none ∧
      ((duplicateRun releasing).2.2.store.uniqueLocks "k").map Volatile.value = some "taken") ∧
    leftoverRun.1.map (fun job => job.id) = .ok "left" ∧
      ((leftoverStore.queues "rrq:queue:default").entries.length = 1 ∧
        (leftoverRun.2.2.store.queues "rrq:queue:default").entries.length = 1) := by
  refine ⟨⟨?_, rfl, ?_⟩, ?_, ?_, ?_⟩ <;> decide +kernel

theorem enqueue_all_or_nothing_duplicate :
    (duplicateRun fun _ => false).2.2.store = duplicateStore := by
  have ho : Forgiving (failing fun _ => false) := by
    refine ⟨fun n op => ?_, fun n key => rfl⟩
    cases op <;> exact .inl rfl
  have hsettles := enqueue_all_or_nothing {} "f" [] { jobId := some "taken", uniqueKey := some "k" }
    0 .client _ 0 (.ofStore duplicateStore) ho
  cases hanswer : (duplicateRun fun _ => false).1 with
  | error error =>
      unfold Prog.Ends at hsettles
      rw [show (Prog.run _ _ _ _ _).1 = _ from hanswer] at hsettles
      exact hsettles
  | ok job =>
      have herror : (duplicateRun fun _ => false).1.toOption.isNone = true := by decide +kernel
      rw [hanswer] at herror
      cases herror

end RRQClient

end Rrq
