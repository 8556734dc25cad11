import Rrq.Client
import Rrq.Store.Unique
import Rrq.Worker.Execute
import Rrq.Worker.Unfailing

-- How long a unique lock names its job, when the operations on jobs run one after another
-- and no command fails.

namespace Rrq

open Store Script

inductive Operation where
  | claim (args : Scripts.ClaimArgs)
  | execute (self : RRQWorker) (job : Job) (queueName : QueueKey)
  | quarantine (self : RRQWorker) (queueName : QueueKey) (id : JobId) (errorMessage : String)
  | cancel (id : JobId)
  | enqueue (settings : RRQSettings) (functionName : String) (params : Params)
      (options : RRQClient.EnqueueOptions)

def Operation.program : Operation → Proc Unit
  | claim args => do
      let _ ← redis (.atomicClaimReadyJobs args)
      pure ()
  | execute self job queueName => do
      let _ ← self.executeJob job queueName
      pure ()
  | quarantine self queueName id errorMessage =>
      self.quarantineClaimedJobWithoutDefinition queueName id errorMessage
  | cancel id => jobCancel id
  | enqueue settings functionName params options => do
      let _ ← RRQClient.enqueue settings functionName params options
      pure ()

-- What a worker executes carries the unique key of the hash that it was read from.
def Operation.Faithful (s : Store) : Operation → Prop
  | execute _ job _ => ∀ h ∈ s.hash job.id, job.jobUniqueKey = h.jobUniqueKey
  | _ => True

instance (s : Store) (operation : Operation) : Decidable (operation.Faithful s) := by
  cases operation <;> unfold Operation.Faithful <;> infer_instance

-- A cancel finds the job pending and in its queue.
def Store.Cancels (s : Store) (id : JobId) : Prop :=
  ∃ h, s.hash id = some h ∧ eqIgnoreAsciiCase (h.status.getD "") "pending" ∧
    h.queueName.getD "" ≠ "" ∧ id ∈ s.queues (normalizeQueueName (h.queueName.getD ""))

-- The operations that end a job and forget the unique lock that names it: a cancel forgets
-- any, and a quarantine forgets the one with the empty key.
def Operation.Forgets (s : Store) (id : JobId) : Operation → Prop
  | cancel target => target = id ∧ s.Cancels id ∧ ∃ key, s.Names key id
  | quarantine self _ target _ => target = id ∧ s.Names "" id ∧
      (s.lock id = none ∨ s.lock id = some (.owner self.workerId))
  | _ => False

-- The states between two operations of a run.
inductive Operated (admits : Store → Operation → Prop) (start : World) : World → Prop
  | start : Operated admits start start
  | elapse {w : World} (now : Int) : Operated admits start w → w.store.now ≤ now →
      Operated admits start { w with store := w.store.advance now }
  | operate {w : World} (operation : Operation) (pid : Pid) (role : Role)
      (oracle : Nat → Op → Chance) : Operated admits start w →
      operation.Faithful w.store → admits w.store operation →
      (unfailing pid role oracle).outlook operation.program 0 w = .clear →
      Operated admits start (Prog.run (World.exec pid role) oracle operation.program 0 w).2.2

theorem tame_advance (id : JobId) (s : Store) (now : Int) : Tame id s (s.advance now) where
  names key h := by
    unfold Names at h ⊢
    obtain ⟨cell, hcell, hvalue⟩ := Option.map_eq_some_iff.mp h
    have hfound : s.uniqueLocks key = some cell := (Option.filter_eq_some_iff.mp hcell).1
    rw [hfound]
    exact congrArg some hvalue
  open' key h := by
    obtain ⟨cell, hcell, hexpire, hopen⟩ := h
    refine ⟨cell, ?_, hexpire, hopen⟩
    apply Option.filter_eq_some_iff.mpr
    exact ⟨hcell, by simp [Volatile.liveAt, hexpire]⟩

section Programs

variable {α : Type} {pid : Pid} {role : Role} {oracle : Nat → Op → Chance} {id : JobId}
  {post : α → World → Prop} {n : Nat} {w : World}

-- The unique locks are those of jobs on their way again when a program returns.
abbrev KeepsOpen (pid : Pid) (role : Role) (oracle : Nat → Op → Chance) (id : JobId)
    (prog : Proc α) (n : Nat) (w : World) : Prop :=
  (unfailing pid role oracle).Clears (fun _ w => w.store.LocksOpen id) prog n w

theorem clears_calm {c : Cmd} {next : Except RedisError c.Answer → Proc α} (hc : c.Calm id)
    (h : ∀ answer w', Tame id w.store w'.store →
      (unfailing pid role oracle).Clears post (next (.ok answer)) (n + 1) w') :
    (unfailing pid role oracle).Clears post (redis c >>= next) n w := by
  apply clears_redis
  intro page answer w' hexec _
  exact h answer w' (Cmd.tame_of_exec hc hexec)

theorem keeps_calm {c : Cmd} {next : Except RedisError c.Answer → Proc α} (hc : c.Calm id)
    (hl : w.store.LocksOpen id)
    (h : ∀ answer w', w'.store.LocksOpen id →
      KeepsOpen pid role oracle id (next (.ok answer)) (n + 1) w') :
    KeepsOpen pid role oracle id (redis c >>= next) n w :=
  clears_calm hc fun answer w' htame => h answer w' (htame.locksOpen hl)

theorem keeps_perform {op : Op} {next : op.Reply → Proc α} (hop : ∀ c, op ≠ .redis c)
    (hl : w.store.LocksOpen id)
    (h : ∀ reply w', w'.store.LocksOpen id →
      KeepsOpen pid role oracle id (next reply) (n + 1) w') :
    KeepsOpen pid role oracle id (perform op >>= next) n w := by
  apply clears_perform hop
  intro reply w' hw'
  apply h reply w'
  rw [hw']
  exact hl

theorem keeps_ret {value : α} (hl : w.store.LocksOpen id) :
    KeepsOpen pid role oracle id (.ret value) n w := Watch.clears_ret hl

-- No unique lock names the job but the one that its definition carries.
def Store.NamedBy (s : Store) (id : JobId) (job : Job) : Prop :=
  job.id = id → ∀ key, s.Names key id → job.jobUniqueKey = some key

section Execute

variable {settings : RRQSettings} {job : Job} (hl : w.store.LocksOpen id)
  (hn : w.store.NamedBy id job)

include hl

theorem scheduleRetry_keeps (errorMessage : String) (delaySeconds : ℚ) :
    KeepsOpen pid role oracle id (scheduleRetry settings job errorMessage delaySeconds) n w := by
  apply keeps_perform (by simp) hl
  intro now w₁ hl₁
  refine keeps_calm (show Cmd.Calm id (.atomicRetryJob _ _ _ _ .Retrying) from rfl) hl₁ ?_
  intro count w₂ hl₂
  have hnote : ∀ next n w, w.store.LocksOpen id → KeepsOpen pid role oracle id
      (redis (.updateJobNextScheduledRunTime job.id next) >>= fun _ => pure (.ok () : Outcome)) n w :=
    fun next n w hl => keeps_calm trivial hl fun _ _ hl' => keeps_ret hl'
  cases DateTime.timestampMillisOpt (asI64 (now.timestampMillis + delaySeconds * 1000)) with
  | some time => exact hnote time _ _ hl₂
  | none =>
      apply keeps_perform (by simp) hl₂
      exact fun time w₃ hl₃ => hnote time _ _ hl₃

include hn

theorem moveToDlq_keeps (errorMessage : String) :
    KeepsOpen pid role oracle id (moveToDlq settings job errorMessage) n w := by
  apply clears_perform (by simp)
  intro now w₁ hw₁
  apply clears_redis
  intro page answer w₂ hexec _
  have hopen : w₂.store.LocksOpen id :=
    Cmd.locksOpen_moveToDlq (hw₁ ▸ hl) (hw₁ ▸ hn) hexec
  dsimp only
  split_ifs
  · exact keeps_ret hopen
  · exact keeps_ret hopen

-- The result is saved before the unique lock is released.
theorem handleSuccess_keeps (result : Json) :
    KeepsOpen pid role oracle id (handleSuccess settings job result) n w := by
  apply clears_perform (by simp)
  intro now w₁ hw₁
  have hl₁ : w₁.store.LocksOpen id := hw₁ ▸ hl
  have hn₁ : w₁.store.NamedBy id job := hw₁ ▸ hn
  by_cases hid : job.id = id
  · apply clears_redis
    intro page answer w₂ hexec _
    -- Between the two commands only the lock that is about to be released may name the job.
    have hunique := Cmd.frame_of_exec frame_sameUnique (by simp [Cmd.kinds]) hexec
    have hnamed : ∀ key, w₂.store.Names key id → job.jobUniqueKey = some key :=
      fun key hkey => hn₁ hid key ((names_congr hunique key).mp hkey)
    cases hkey : job.jobUniqueKey with
    | none =>
        apply keeps_ret
        apply Unnamed.locksOpen
        intro key hnames
        rw [hnamed key hnames] at hkey
        cases hkey
    | some uniqueKey =>
        apply clears_redis
        intro page answer w₃ hexec₃ _
        apply keeps_ret
        have hreleased : w₃.store = w₂.store.setUniqueLock uniqueKey none :=
          (congrArg Prod.snd hexec₃).symm
        rw [hreleased]
        exact (Cmd.unnamed_withoutUnique (hkey ▸ hnamed) rfl).locksOpen
  · refine keeps_calm (show Cmd.Calm id (.saveJobResult _ _ _ _) from hid) hl₁ ?_
    intro answer w₂ hl₂
    cases job.jobUniqueKey with
    | none => exact keeps_ret hl₂
    | some uniqueKey => exact keeps_calm trivial hl₂ fun answer w₃ hl₃ => keeps_ret hl₃

theorem retryOrMove_keeps (errorMessage : String) (delaySeconds : Int → ℚ) :
    KeepsOpen pid role oracle id (retryOrMove settings job errorMessage delaySeconds) n w := by
  unfold retryOrMove
  split
  · exact keeps_ret hl
  · split_ifs
    · exact moveToDlq_keeps hl hn errorMessage
    · exact scheduleRetry_keeps hl errorMessage _

theorem handleExecutionResult_keeps (jobTimeout : Int) (result : RunnerExecutionResult) :
    KeepsOpen pid role oracle id (handleExecutionResult settings job jobTimeout result) n w := by
  cases result with
  | TimedOut => exact moveToDlq_keeps hl hn _
  | Completed answer =>
      cases answer with
      | error error => exact retryOrMove_keeps hl hn _ _
      | ok outcome =>
          show KeepsOpen pid role oracle id (handleExecutionOutcome settings job outcome) n w
          unfold handleExecutionOutcome
          split
          · exact handleSuccess_keeps hl hn _
          · exact retryOrMove_keeps hl hn _ _
          · exact moveToDlq_keeps hl hn _
          · split_ifs
            · exact moveToDlq_keeps hl hn _
            · exact retryOrMove_keeps hl hn _ _

omit hn in
theorem cleanupRunning_keeps (self : RRQWorker) (target : JobId) :
    KeepsOpen pid role oracle id (self.cleanupRunning target) n w := by
  refine keeps_calm trivial hl ?_
  intro removed w₁ hl₁
  refine keeps_calm trivial hl₁ ?_
  intro released w₂ hl₂
  apply keeps_perform (by simp) hl₂
  intro _ w₃ hl₃
  apply keeps_perform (by simp) hl₃
  exact fun _ w₄ hl₄ => keeps_ret hl₄

theorem failFatally_keeps (self : RRQWorker) (message : String) :
    KeepsOpen pid role oracle id (self.failFatally job message) n w := by
  apply Watch.clears_bind (moveToDlq_keeps hl hn message)
  intro outcome n w hl
  cases outcome with
  | error error => exact keeps_ret hl
  | ok _ => exact cleanupRunning_keeps hl self job.id

omit hl hn in
theorem finishJob_keeps (self : RRQWorker) {record : Proc Outcome}
    (hr : KeepsOpen pid role oracle id record n w) :
    KeepsOpen pid role oracle id (self.finishJob job record) n w := by
  apply Watch.clears_bind hr
  intro outcome n w hl
  have hcleanup : ∀ error, KeepsOpen pid role oracle id
      (self.cleanupRunning job.id >>= fun _ => pure (.error error : Outcome)) n w := fun error =>
    Watch.clears_bind (cleanupRunning_keeps hl self job.id) fun _ _ _ hl => keeps_ret hl
  match outcome with
  | .error .panicked => exact keeps_ret hl
  | .error (.redis error) => exact hcleanup _
  | .error .moveToDlqFailed => exact hcleanup _
  | .ok () => exact cleanupRunning_keeps hl self job.id

theorem dispatchToRunner_keeps (self : RRQWorker) (queueName : QueueKey) (jobTimeout : Int) :
    KeepsOpen pid role oracle id (self.dispatchToRunner job queueName jobTimeout) n w := by
  unfold RRQWorker.dispatchToRunner
  dsimp only
  split_ifs
  · exact failFatally_keeps hl hn self _
  · apply clears_perform (by simp)
    intro _ w₁ hw₁
    apply clears_perform (by simp)
    intro requestId w₂ hw₂
    apply clears_perform (by simp)
    intro _ w₃ hw₃
    apply clears_perform (by simp)
    intro result w₄ hw₄
    apply finishJob_keeps
    have hw : w₄.store = w.store := hw₄.trans (hw₃.trans (hw₂.trans hw₁))
    exact handleExecutionResult_keeps (hw ▸ hl) (hw ▸ hn) jobTimeout result
  · apply clears_perform (by simp)
    intro _ w₁ hw₁
    exact failFatally_keeps (hw₁ ▸ hl) (hw₁ ▸ hn) self _

theorem executeJob_keeps (self : RRQWorker) (queueName : QueueKey) :
    KeepsOpen pid role oracle id (self.executeJob job queueName) n w := by
  unfold RRQWorker.executeJob
  split
  · exact keeps_ret hl
  · dsimp only
    split_ifs
    · exact failFatally_keeps hl hn self _
    · apply clears_perform (by simp)
      intro now w₁ hw₁
      split
      · exact keeps_ret (hw₁ ▸ hl)
      · exact dispatchToRunner_keeps (hw₁ ▸ hl) (hw₁ ▸ hn) self queueName _

end Execute

section Quarantine

variable {self : RRQWorker} (hl : w.store.LocksOpen id)

include hl

theorem cleanupClaimedJobState_keeps (target : JobId) :
    KeepsOpen pid role oracle id (self.cleanupClaimedJobState target) n w := by
  refine keeps_calm trivial hl ?_
  intro removed w₁ hl₁
  exact keeps_calm trivial hl₁ fun released w₂ hl₂ => keeps_ret hl₂

-- The hash goes to the dead letter queue before the unique lock that it carries is released.
theorem quarantineHash_keeps (queueName : QueueKey) (target : JobId) (message : String)
    {jobMap : JobHash} (hmap : w.store.hash target = some jobMap)
    (hempty : target = id → ¬ w.store.Names "" id) :
    KeepsOpen pid role oracle id (self.quarantineHash queueName target message jobMap) n w := by
  apply clears_perform (by simp)
  intro now w₁ hw₁
  by_cases hid : target = id
  · subst hid
    have hnamed : ∀ key, w.store.Names key target → jobMap.jobUniqueKey.filter (· ≠ "") = some key := by
      intro key hkey
      obtain ⟨cell, hcell, -, hunique, -⟩ := hl key hkey
      have hvalue : cell.value = jobMap := by simpa [Store.hash, hcell] using hmap
      have hne : key ≠ "" := by
        rintro rfl
        exact hempty rfl hkey
      rw [← hvalue, hunique]
      simp [hne]
    apply clears_redis
    intro page answer w₂ hexec _
    have hunique := Cmd.frame_of_exec frame_sameUnique (by simp [Cmd.kinds]) hexec
    have hnamed₂ : ∀ key, w₂.store.Names key target →
        jobMap.jobUniqueKey.filter (· ≠ "") = some key := fun key hkey =>
      hnamed key ((names_congr (hunique.trans (congrArg Store.uniqueLocks hw₁)) key).mp hkey)
    dsimp only
    cases hkey : jobMap.jobUniqueKey.filter (· ≠ "") with
    | none =>
        apply keeps_ret
        apply Unnamed.locksOpen
        intro key hnames
        rw [hnamed₂ key hnames] at hkey
        cases hkey
    | some uniqueKey =>
        apply clears_redis
        intro page answer w₃ hexec₃ _
        apply keeps_ret
        have hreleased : w₃.store = w₂.store.setUniqueLock uniqueKey none :=
          (congrArg Prod.snd hexec₃).symm
        rw [hreleased]
        exact (Cmd.unnamed_withoutUnique (hkey ▸ hnamed₂) rfl).locksOpen
  · refine keeps_calm (show Cmd.Calm id (.moveJobToDlq _ _ _ _) from hid) (hw₁ ▸ hl) ?_
    intro answer w₂ hl₂
    dsimp only
    cases jobMap.jobUniqueKey.filter (· ≠ "") with
    | none => exact keeps_ret hl₂
    | some uniqueKey => exact keeps_calm trivial hl₂ fun answer w₃ hl₃ => keeps_ret hl₃

theorem quarantineOwned_keeps (queueName : QueueKey) (target : JobId) (message : String)
    (hempty : target = id → ¬ w.store.Names "" id) :
    KeepsOpen pid role oracle id (self.quarantineOwned queueName target message) n w := by
  refine clears_calm (show Cmd.Calm id (.removeJobFromQueue _ _) from trivial) ?_
  intro removed w₁ htame
  have hl₁ := htame.locksOpen hl
  apply clears_redis
  intro page answer w₂ hexec _
  have hw₂ : w₂.store = w₁.store := (congrArg Prod.snd hexec).symm
  have hanswer : answer = w₁.store.hash target :=
    (Except.ok.inj (congrArg Prod.fst hexec)).symm
  cases answer with
  | none => exact keeps_ret (hw₂ ▸ hl₁)
  | some jobMap =>
      apply quarantineHash_keeps (hw₂ ▸ hl₁)
      · rw [hw₂, hanswer]
      · intro hid hnames
        rw [hw₂] at hnames
        exact hempty hid (htame.names "" hnames)

omit hl in
theorem lockOwnedByOther_clears (target : JobId) :
    (unfailing pid role oracle).Clears (fun answer w' => w'.store = w.store ∧
        ∃ owner : Option String, w.store.lock target = owner.map .owner ∧
          answer = some (owner.any (· ≠ self.workerId)))
      (self.lockOwnedByOther target 2) n w := by
  apply clears_redis
  intro page owner w₁ hexec _
  obtain ⟨hstore, howner⟩ := Cmd.getJobLockOwner_inv hexec
  exact Watch.clears_ret ⟨hstore, owner, howner owner rfl, rfl⟩

theorem quarantine_keeps (queueName : QueueKey) (target : JobId) (message : String)
    (hforgets : ¬ (Operation.quarantine self queueName target message).Forgets w.store id) :
    KeepsOpen pid role oracle id
      (self.quarantineClaimedJobWithoutDefinition queueName target message) n w := by
  apply Watch.clears_bind (lockOwnedByOther_clears target)
  rintro _ n w₁ ⟨hw₁, owner, hlock, rfl⟩
  have hl₁ : w₁.store.LocksOpen id := hw₁ ▸ hl
  cases hother : owner.any (· ≠ self.workerId) with
  | true => exact cleanupClaimedJobState_keeps hl₁ target
  | false =>
      -- The lock is free or ours, so a quarantine that would forget the lock is excluded.
      have hours : w.store.lock target = none ∨
          w.store.lock target = some (.owner self.workerId) := by
        cases owner with
        | none => exact .inl hlock
        | some name =>
            have hname : name = self.workerId := by simpa using hother
            exact .inr (hname ▸ hlock)
      have hempty : target = id → ¬ w₁.store.Names "" id := by
        intro hid hnames
        exact hforgets ⟨hid, hw₁ ▸ hnames, hid ▸ hours⟩
      apply Watch.clears_bind (quarantineOwned_keeps hl₁ queueName target message hempty)
      intro dropped n w₂ hl₂
      cases dropped with
      | true => exact cleanupClaimedJobState_keeps hl₂ target
      | false => exact keeps_ret hl₂

end Quarantine

theorem jobCancel_keeps (target : JobId) (hl : w.store.LocksOpen id)
    (hforgets : ¬ (Operation.cancel target).Forgets w.store id) :
    KeepsOpen pid role oracle id (jobCancel target) n w := by
  apply clears_redis
  intro page found w₁ hexec _
  have hw₁ : w₁.store = w.store := (congrArg Prod.snd hexec).symm
  have hfound : found = w.store.hash target := (Except.ok.inj (congrArg Prod.fst hexec)).symm
  have hl₁ : w₁.store.LocksOpen id := hw₁ ▸ hl
  cases found with
  | none => exact keeps_ret hl₁
  | some jobMap =>
      dsimp only
      split_ifs with hpending hqueue
      · exact keeps_ret hl₁
      · apply clears_redis
        intro page removed w₂ hexec₂ _
        have htame : Tame id w₁.store w₂.store :=
          Cmd.tame_of_exec (c := .removeJobFromQueue _ _) trivial hexec₂
        dsimp only
        split_ifs with hremoved
        · by_cases hid : target = id
          · -- The job is about to be cancelled, so no lock names it.
            have hqueued : target ∈ w₁.store.queues (normalizeQueueName (jobMap.queueName.getD "")) := by
              have hanswer := Except.ok.inj (congrArg Prod.fst hexec₂)
              by_contra hnot
              rw [if_neg hnot] at hanswer
              rw [← hanswer] at hremoved
              exact lt_irrefl _ hremoved
            have hunnamed : w₁.store.Unnamed id := by
              intro key hkey
              rw [hw₁] at hqueued hkey
              have hcancels : w.store.Cancels target :=
                ⟨jobMap, hfound.symm, hpending, hqueue, hqueued⟩
              exact hforgets ⟨hid, hid ▸ hcancels, key, hkey⟩
            apply clears_redis
            intro page answer w₃ hexec₃ _
            have hunique := Cmd.frame_of_exec frame_sameUnique (by simp [Cmd.kinds]) hexec₃
            apply keeps_ret
            apply Unnamed.locksOpen
            intro key hkey
            exact htame.unnamed hunnamed key ((names_congr hunique key).mp hkey)
          · refine keeps_calm (show Cmd.Calm id (.updateJobStatus _ _) from hid)
              (htame.locksOpen hl₁) ?_
            exact fun _ w₃ hl₃ => keeps_ret hl₃
        · exact keeps_ret (htame.locksOpen hl₁)
      · exact keeps_ret hl₁

section Enqueue

variable {settings : RRQSettings} {options : RRQClient.EnqueueOptions}

open RRQClient

-- What a reservation for the job leaves behind: the locks of jobs on their way, and the one
-- that was taken, which was free.
def Reserved (id target : JobId) (uniqueKey : Option String) (before : Store)
    (answer : Except EnqueueError (DateTime × Bool)) (s : Store) : Prop :=
  Tame id before s ∨ ∃ key cell time, target = id ∧ uniqueKey = some key ∧
    answer = .ok (time, true) ∧ before.uniqueLocks key = none ∧
    s = before.setUniqueLock key (some cell)

theorem reserve_clears (key : String) (target : JobId) (enqueueTime runTime : DateTime)
    (lockTtlSeconds : Int) :
    (unfailing pid role oracle).Clears
      (fun answer w' => Reserved id target (some key) w.store answer w'.store)
      (reserve key target enqueueTime runTime lockTtlSeconds) n w := by
  apply clears_redis
  intro page remaining w₁ hexec₁ _
  have hw₁ : w₁.store = w.store := (congrArg Prod.snd hexec₁).symm
  dsimp only
  split_ifs
  · exact Watch.clears_ret (.inl (hw₁ ▸ .refl id _))
  · apply clears_redis
    intro page taken w₂ hexec₂ _
    obtain ⟨rfl, -, hw₂⟩ | ⟨rfl, hfree, hw₂⟩ := Cmd.acquireUniqueJobLock_inv hexec₂
    · apply clears_redis
      intro page remaining w₃ hexec₃ _
      have hw₃ : w₃.store = w₂.store := (congrArg Prod.snd hexec₃).symm
      have hsame : w₃.store = w.store := hw₃.trans (hw₂.trans hw₁)
      dsimp only
      split_ifs
      · exact Watch.clears_ret (.inl (hsame ▸ .refl id _))
      · exact Watch.clears_ret (.inl (hsame ▸ .refl id _))
    · apply Watch.clears_ret
      by_cases hid : target = id
      · exact .inr ⟨key, _, runTime, hid, rfl, rfl, hw₁ ▸ hfree, hw₁ ▸ hw₂⟩
      · have htame := Cmd.tame_of_exec (c := .acquireUniqueJobLock _ _ _) hid hexec₂
        exact .inl (hw₁ ▸ htame)

theorem releaseReserved_keeps (uniqueAcquired : Bool) (hl : w.store.LocksOpen id) :
    KeepsOpen pid role oracle id (releaseReserved options uniqueAcquired) n w := by
  unfold releaseReserved
  split
  · exact keeps_calm trivial hl fun answer w₁ hl₁ => keeps_ret hl₁
  · exact keeps_ret hl

theorem enqueueJob_keeps {job : Job} {before : Store} {runTime : DateTime} {uniqueAcquired : Bool}
    (queueName : QueueKey) (hl : before.LocksOpen id) (hkey : job.jobUniqueKey = options.uniqueKey)
    (hopen : ¬ (buildJobMapping job).Terminal)
    (hr : Reserved id job.id options.uniqueKey before (.ok (runTime, uniqueAcquired)) w.store) :
    KeepsOpen pid role oracle id
      (RRQClient.enqueueJob options job queueName runTime uniqueAcquired) n w := by
  apply clears_redis
  intro page created w₁ hexec _
  obtain htame | ⟨key, cell, time, rfl, hunique, hanswer, hfree, hw⟩ := hr
  · have hl₁ : w₁.store.LocksOpen id :=
      (Cmd.tame_of_exec (c := .atomicEnqueueJob _ _ _ _) trivial hexec).locksOpen
        (htame.locksOpen hl)
    cases created with
    | true => exact keeps_ret hl₁
    | false =>
        apply Watch.clears_bind (releaseReserved_keeps uniqueAcquired hl₁)
        exact fun _ n w₂ hl₂ => keeps_ret hl₂
  · obtain rfl : uniqueAcquired = true := (Prod.mk.injEq .. ▸ Except.ok.inj hanswer).2
    -- Before the lock was taken, only other locks could name the job.
    have hother : ∀ found, (before.setUniqueLock key (some cell)).Names found job.id →
        found = key ∨ before.Names found job.id := by
      intro found hfound
      by_cases hk : found = key
      · exact .inl hk
      · exact .inr (by simpa [Names, hk] using hfound)
    obtain ⟨rfl, hw₁⟩ | ⟨rfl, hnone, hw₁⟩ := Cmd.atomicEnqueueJob_inv hexec
    · -- The id exists: the lock is given back.
      unfold releaseReserved
      rw [hunique]
      apply clears_redis
      intro page answer w₂ hexec₂ _
      apply keeps_ret
      have hw₂ : w₂.store = (before.setUniqueLock key (some cell)).setUniqueLock key none := by
        rw [← hw, ← hw₁]
        exact (congrArg Prod.snd hexec₂).symm
      rw [hw₂]
      intro found hfound
      obtain ⟨hne, hnames⟩ := names_release.mp hfound
      exact hl found ((hother found hnames).resolve_left hne)
    · -- The id is new: the lock names the job that is created with it.
      apply keeps_ret
      intro found hfound
      rw [hw₁, hw] at hfound
      rw [hw] at hnone
      obtain rfl | hnames := hother found hfound
      · rw [hw₁]
        refine ⟨{ value := buildJobMapping job }, by simp [zadd], rfl, ?_, hopen⟩
        exact hkey.trans hunique
      · obtain ⟨found, hfound, -⟩ := hl found hnames
        rw [setUniqueLock_jobs] at hnone
        rw [hnone] at hfound
        cases hfound

theorem reserveIfUnique_clears (id target : JobId) (enqueueTime runTime : DateTime)
    (lockTtlSeconds : Int) :
    (unfailing pid role oracle).Clears
      (fun answer w' => Reserved id target options.uniqueKey w.store answer w'.store)
      (reserveIfUnique options target enqueueTime runTime lockTtlSeconds) n w := by
  unfold reserveIfUnique
  cases options.uniqueKey with
  | none => exact Watch.clears_ret (.inl (.refl id _))
  | some key => exact reserve_clears key target enqueueTime runTime lockTtlSeconds

theorem enqueue_keeps (functionName : String) (params : Params) (hl : w.store.LocksOpen id) :
    KeepsOpen pid role oracle id (RRQClient.enqueue settings functionName params options) n w := by
  have hgiven : (unfailing pid role oracle).Clears (fun _ w' => w'.store.LocksOpen id)
      (given options.jobId (perform .newId)) n w := by
    cases options.jobId with
    | some target => exact keeps_ret hl
    | none => exact keeps_perform (by simp) hl fun _ _ hl₁ => keeps_ret hl₁
  apply Watch.clears_bind hgiven
  intro target n w₁ hl₁
  dsimp only
  split_ifs
  · exact keeps_ret hl₁
  split
  · exact keeps_ret hl₁
  split_ifs
  · exact keeps_ret hl₁
  apply keeps_perform (by simp) hl₁
  intro enqueueTime w₂ hl₂
  split
  · exact keeps_ret hl₂
  apply Watch.clears_bind (reserveIfUnique_clears id target _ _ _)
  intro reserved n w₃ hr
  cases reserved with
  | error error =>
      obtain htame | ⟨_, _, _, -, -, hanswer, -⟩ := hr
      · exact keeps_ret (htame.locksOpen hl₂)
      · cases hanswer
  | ok reserved =>
      obtain ⟨runTime, uniqueAcquired⟩ := reserved
      apply enqueueJob_keeps _ hl₂ rfl
      · simp [JobHash.Terminal, buildJobMapping, buildJob, JobStatus.asStr]
      · exact hr

end Enqueue

end Programs

-- One operation.
theorem operation_keeps {pid : Pid} {role : Role} {oracle : Nat → Op → Chance} {id : JobId} {w : World}
    (operation : Operation) (hl : w.store.LocksOpen id) (hfaithful : operation.Faithful w.store)
    (hforgets : ¬ operation.Forgets w.store id) :
    KeepsOpen pid role oracle id operation.program 0 w := by
  cases operation with
  | claim args => exact keeps_calm trivial hl fun ids w₁ hl₁ => keeps_ret hl₁
  | execute self job queueName =>
      have hnamed : w.store.NamedBy id job := by
        rintro rfl key hkey
        obtain ⟨cell, hcell, -, hunique, -⟩ := hl key hkey
        rw [hfaithful cell.value (by simp [Store.hash, hcell]), hunique]
      apply Watch.clears_bind (executeJob_keeps hl hnamed self queueName)
      exact fun outcome n w₁ hl₁ => keeps_ret hl₁
  | quarantine self queueName target message =>
      exact quarantine_keeps hl queueName target message hforgets
  | cancel target => exact jobCancel_keeps target hl hforgets
  | enqueue settings functionName params options =>
      apply Watch.clears_bind (enqueue_keeps functionName params hl)
      exact fun answer n w₁ hl₁ => keeps_ret hl₁

-- Every state of a run.
theorem locksOpen_operated {id : JobId} {start w : World} (hstart : start.store.LocksOpen id)
    (h : Operated (fun s operation => ¬ operation.Forgets s id) start w) :
    w.store.LocksOpen id := by
  induction h with
  | start => exact hstart
  | elapse now _ _ ih => exact (tame_advance id _ now).locksOpen ih
  | operate operation pid role oracle _ hfaithful hadmits hclear ih =>
      exact operation_keeps operation ih hfaithful hadmits hclear

-- A job that has come to its end is named by no unique lock, however it came to its end, as
-- long as it was not cancelled while a unique lock named it, nor quarantined under the empty
-- unique key.
theorem unique_lock_released {id : JobId} {start w : World} (hstart : start.store.LocksOpen id)
    (h : Operated (fun s operation => ¬ operation.Forgets s id) start w)
    (hterminal : w.store.Terminal id) : w.store.Unnamed id :=
  (locksOpen_operated hstart h).unnamed hterminal

-- A job that is enqueued under the unique key k, completed or cancelled.

def keyed (id : JobId) : Operation := .enqueue {} "f" [] { jobId := some id, uniqueKey := some "k" }

def completion (id : JobId) : Operation :=
  .execute (.ofDefaults "w") (RRQClient.buildJob {} "f" [] { uniqueKey := some "k" } id
    "rrq:queue:default" ⟨0⟩ ⟨0⟩ 300) "rrq:queue:default"

def succeeding : Chance := { result := .Completed (.ok { status := .Success }) }

def operate (operation : Operation) (w : World) : World :=
  (Prog.run (World.exec 0 .client) (fun _ _ => succeeding) operation.program 0 w).2.2

theorem operated_keyed {admits : Store → Operation → Prop}
    (h : admits Store.empty (keyed "j")) : Operated admits (.ofStore .empty)
      (operate (keyed "j") (.ofStore .empty)) :=
  .operate (keyed "j") 0 .client (fun _ _ => succeeding) .start (by decide) h (by decide +kernel)

theorem locksOpen_empty (id : JobId) : Store.empty.LocksOpen id := nofun

theorem unique_lock_released_completion :
    (operate (completion "j") (operate (keyed "j") (.ofStore .empty))).store.Unnamed "j" :=
  unique_lock_released (show (World.ofStore .empty).store.LocksOpen "j" from locksOpen_empty "j")
    (.operate (completion "j") 0 .client (fun _ _ => succeeding) (operated_keyed fun h => h)
      (by decide +kernel) (fun h => h) (by decide +kernel))
    (by decide +kernel)

theorem unique_lock_outlives_cancel :
    ¬ ∀ (id : JobId) (start w : World), start.store.LocksOpen id →
      Operated (fun _ _ => True) start w → w.store.Terminal id → w.store.Unnamed id := by
  intro h
  have hrun : Operated (fun _ _ => True) (.ofStore .empty)
      (operate (.cancel "j") (operate (keyed "j") (.ofStore .empty))) :=
    .operate (.cancel "j") 0 .client (fun _ _ => succeeding) (operated_keyed trivial) trivial trivial
      (by decide +kernel)
  have hunnamed := h "j" _ _ (locksOpen_empty "j") hrun (by decide +kernel)
  exact hunnamed "k" (by decide +kernel)

end Rrq
