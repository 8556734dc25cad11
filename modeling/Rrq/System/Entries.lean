import Rrq.Store.Entries
import Rrq.System.Exclusion

-- A job that a worker has claimed stays in the active set of the worker until the worker gives
-- it up.

namespace Rrq

open Prog Store

-- The sweep has decided to drop the entry and has not dropped it yet.
def Sweep.Drops (sweep : Sweep) (worker : WorkerId) (id : JobId) : Prop :=
  sweep.worker = worker ∧ sweep.settling = some id

-- What a heartbeat knows of its sweep: the worker whose entries it goes through, and the entry
-- that it is about to drop.
abbrev Sweeping := Option (WorkerId × Option JobId)

namespace Sweeping

def next (stage : Sweeping) : (c : Cmd) → Except RedisError c.Answer → Sweeping
  | .getJobDataMap id, .ok none => stage.map fun sweep => (sweep.1, some id)
  | .tryLockJob id _ _, .ok true => stage.map fun sweep => (sweep.1, some id)
  | .getActiveJobIds worker, _ => some (worker, none)
  | .removeActiveJob _ _, _ => stage.map fun sweep => (sweep.1, none)
  | .releaseJobLockIfOwner _ _, _ => stage.map fun sweep => (sweep.1, none)
  | _, _ => stage

-- Only the entry that has been settled on is dropped.
def Allows (stage : Sweeping) : Op → Prop
  | .redis c => ∀ worker id, c.Drops worker id → stage = some (worker, some id)
  | _ => True

-- The sweep is at the entries of this worker.
def At (stage : Sweeping) (worker : WorkerId) : Prop := ∃ settling, stage = some (worker, settling)

end Sweeping

-- The hash that is read names the job that it is read for.
def Op.Named : (op : Op) → op.Reply → Prop
  | .redis (.getJobDataMap id), reply => ∀ h, reply = .ok (some h) → h.id.getD id = id
  | _, _ => True

def sweeping (role : Role) : Conduct Op Op.Reply Sweeping where
  allows stage op := op.Permits role ∧ ∀ host, role = .heartbeat host → stage.Allows op
  possible _ op reply := op.Possible reply ∧ op.Named reply
  next stage op reply :=
    match role, op with
    | .heartbeat _, .redis c => stage.next c reply
    | _, _ => stage

-- Only heartbeats drop the entries of others.
theorem sweeping_of_issues {role : Role} (hrole : ∀ host, role ≠ .heartbeat host)
    {prog : Proc Unit} (h : Issuing role prog) (stage : Sweeping) :
    (sweeping role).Conforms (fun _ _ => True) prog stage := by
  refine Conduct.Conforms.mono (Conduct.conforms_of_issues h fun op hop => ?_) fun _ _ _ => trivial
  refine ⟨⟨hop, fun host hr => absurd hr (hrole host)⟩, fun reply hreply => ⟨hreply.1, ?_⟩⟩
  cases role with
  | heartbeat host => exact absurd rfl (hrole host)
  | _ => rfl

section Heartbeat

open Recover Conduct

variable (self : RRQWorker)

abbrev SweepConforms {α : Type} (self : RRQWorker) (post : α → Sweeping → Prop) (prog : Proc α)
    (stage : Sweeping) : Prop := (sweeping (.heartbeat self.workerId)).Conforms post prog stage

variable {self} {α : Type} {post : α → Sweeping → Prop} {stage : Sweeping} {worker : WorkerId}
  {id : JobId}

-- A command that drops no entry.
theorem sweep_redis {c : Cmd} {next : Except RedisError c.Answer → Proc α}
    (hc : c.ByHeartbeat self.workerId) (hd : ∀ worker id, c.Drops worker id → stage = some (worker, some id))
    (h : ∀ reply, Op.Named (.redis c) reply → SweepConforms self post (next reply) (stage.next c reply)) :
    SweepConforms self post (redis c >>= next) stage :=
  conforms_call ⟨hc, fun _ _ => hd⟩ fun reply hreply => h reply hreply.2

theorem sweep_utcNow {next : DateTime → Proc α}
    (h : ∀ now, SweepConforms self post (next now) stage) :
    SweepConforms self post (perform .utcNow >>= next) stage :=
  conforms_call ⟨trivial, fun _ _ => trivial⟩ fun reply _ => h reply

theorem dropTracking_conforms (lockId : JobId) :
    SweepConforms self (fun _ last => last.At worker) (dropTracking worker id lockId)
      (some (worker, some id)) := by
  refine sweep_redis trivial ?_ fun _ _ => ?_
  · rintro _ _ ⟨rfl, rfl⟩
    rfl
  · refine sweep_redis (isRecovery_lockOwner worker) (fun _ _ => False.elim) fun _ _ => ?_
    exact conforms_ret ⟨none, rfl⟩

theorem afterRequeue_conforms (job : Job) (reply : Except RedisError Int) :
    SweepConforms self (fun _ last => last.At worker) (afterRequeue worker job reply)
      (some (worker, some job.id)) := by
  have hrelease : SweepConforms self (fun _ last => last.At worker)
      (redis (.releaseJobLockIfOwner job.id (lockOwner worker)) >>= fun _ =>
        pure (.ok .skipped : Except RecoverError Verdict)) (some (worker, some job.id)) :=
    sweep_redis (isRecovery_lockOwner worker) (fun _ _ => False.elim)
      fun _ _ => conforms_ret ⟨none, rfl⟩
  unfold afterRequeue
  split
  · exact hrelease
  · split
    · exact hrelease
    · exact conforms_bind (dropTracking_conforms job.id) fun _ _ hlast => conforms_ret hlast
    · exact conforms_bind (dropTracking_conforms job.id) fun _ _ hlast => conforms_ret hlast

theorem requeueOrphan_conforms (job : Job) (queueName : QueueKey) :
    SweepConforms self (fun _ last => last.At worker) (requeueOrphan worker job queueName)
      (some (worker, some job.id)) := by
  have hrequeue : ∀ requeueTime : DateTime, SweepConforms self (fun _ last => last.At worker)
      (redis (.atomicRequeueJob {
        id := job.id
        queueKey := queueName
        score := requeueTime.timestampMillis
        requeueMessage := recoverMessage job.status
        releasingOwner := lockOwner worker
        activeWorkerId := some worker
        nextScheduled := some requeueTime }) >>= afterRequeue worker job)
      (some (worker, some job.id)) := by
    intro requeueTime
    refine sweep_redis (isRecovery_lockOwner worker) ?_ fun reply _ => afterRequeue_conforms job reply
    rintro _ _ ⟨hworker, rfl⟩
    rw [Option.some.inj hworker]
  unfold requeueOrphan given
  cases job.nextScheduledRunTime with
  | none => exact sweep_utcNow hrequeue
  | some time => exact hrequeue time

-- The hash of the entry names the job of the entry, so the lock and the entry are of one job.
theorem settleOrphan_conforms {job : Job} (hid : job.id = id) (queueName : QueueKey) :
    SweepConforms self (fun _ last => last.At worker) (settleOrphan worker id job queueName)
      (some (worker, some id)) := by
  subst hid
  have hdrop : SweepConforms self (fun _ last => last.At worker)
      (dropTracking worker job.id job.id >>= fun _ =>
        pure (.ok .skipped : Except RecoverError Verdict)) (some (worker, some job.id)) :=
    conforms_bind (dropTracking_conforms job.id) fun _ _ hlast => conforms_ret hlast
  refine sweep_redis trivial (fun _ _ => False.elim) fun reply _ => ?_
  split
  · exact conforms_ret ⟨_, rfl⟩
  · split_ifs
    · exact sweep_redis trivial (fun _ _ => False.elim) fun _ _ => hdrop
    · exact hdrop
  · split_ifs
    · exact requeueOrphan_conforms job queueName
    · exact hdrop

theorem recoverFound_conforms (settings : RRQSettings) {job : Job} (hid : job.id = id)
    (hstage : stage.At worker) :
    SweepConforms self (fun _ last => last.At worker) (recoverFound settings worker id job)
      stage := by
  obtain ⟨settling, rfl⟩ := hstage
  unfold recoverFound
  dsimp only
  split
  · exact conforms_ret ⟨_, rfl⟩
  · split_ifs
    · exact conforms_ret ⟨_, rfl⟩
    · refine sweep_redis (isRecovery_lockOwner worker) (fun _ _ => False.elim) fun reply _ => ?_
      split
      · exact conforms_ret ⟨_, rfl⟩
      · exact conforms_ret ⟨_, rfl⟩
      · exact hid ▸ settleOrphan_conforms rfl _

theorem recoverJob_conforms (hstage : stage.At worker) :
    SweepConforms self (fun _ last => last.At worker) (recoverJob self worker id) stage := by
  refine conforms_call ⟨rfl, fun _ _ => trivial⟩ fun shutdown _ => ?_
  split_ifs
  · exact conforms_ret hstage
  refine sweep_redis trivial (fun _ _ => False.elim) fun owner _ => ?_
  split
  · exact conforms_ret hstage
  · exact conforms_ret hstage
  · unfold JobStore.getJobDefinition
    rw [bind_assoc]
    refine sweep_redis trivial (fun _ _ => False.elim) fun answer hnamed => ?_
    obtain ⟨settling, rfl⟩ := hstage
    cases answer with
    | error error => exact conforms_ret ⟨_, rfl⟩
    | ok found =>
    cases found with
    | none =>
        refine sweep_redis trivial ?_ fun _ _ => conforms_ret ⟨none, rfl⟩
        rintro _ _ ⟨rfl, rfl⟩
        rfl
    | some raw =>
        dsimp only
        cases hparse : parseJobMap raw id self.settings.defaultMaxRetries with
        | error error => exact conforms_ret ⟨_, rfl⟩
        | ok job =>
            have hid : job.id = id := (parseJobMap_ok hparse).2.1.trans (hnamed raw rfl)
            exact recoverFound_conforms self.settings hid ⟨settling, rfl⟩

theorem recoverIds_conforms (ids : List JobId) (recovered : Nat) (hstage : stage.At worker) :
    SweepConforms self (fun _ _ => True) (recoverIds self worker ids recovered) stage := by
  induction ids generalizing recovered stage with
  | nil => exact conforms_ret trivial
  | cons id ids ih =>
      refine conforms_bind (recoverJob_conforms hstage) fun verdict last hlast => ?_
      split
      · exact conforms_ret trivial
      · exact conforms_ret trivial
      · exact ih recovered hlast
      · split_ifs
        · exact conforms_ret trivial
        · exact ih (recovered + 1) hlast

theorem sweepWorker_conforms (recovered : Nat) :
    SweepConforms self (fun _ _ => True) (sweepWorker self worker recovered) stage := by
  refine sweep_redis trivial (fun _ _ => False.elim) fun reply _ => ?_
  split
  · exact conforms_ret trivial
  · split_ifs
    · exact conforms_ret trivial
    · refine sweep_redis trivial (fun _ _ => False.elim) fun reply _ => ?_
      split
      · exact conforms_ret trivial
      · exact recoverIds_conforms _ recovered ⟨none, rfl⟩

theorem sweepKeys_conforms (keys : List String) (recovered : Nat) :
    SweepConforms self (fun _ _ => True) (sweepKeys self keys recovered) stage := by
  induction keys generalizing recovered stage with
  | nil => exact conforms_ret trivial
  | cons key keys ih =>
      unfold sweepKeys
      dsimp only
      split_ifs
      · exact ih recovered
      · refine conforms_bind (sweepWorker_conforms recovered) fun result _ _ => ?_
        split
        · exact conforms_ret trivial
        · exact ih _
        · exact conforms_ret trivial

theorem sweepPages_conforms (fuel cursor recovered : Nat) :
    SweepConforms self (fun _ _ => True) (sweepPages self fuel cursor recovered) stage := by
  induction fuel generalizing cursor recovered stage with
  | zero => exact conforms_ret trivial
  | succ fuel ih =>
      refine sweep_redis trivial (fun _ _ => False.elim) fun reply _ => ?_
      split
      · exact conforms_ret trivial
      · refine conforms_bind (sweepKeys_conforms _ recovered) fun result _ _ => ?_
        split
        · exact conforms_ret trivial
        · exact conforms_ret trivial
        · split_ifs
          · exact conforms_ret trivial
          · exact ih _ _

theorem heartbeatLoop_conforms (fuel turns : Nat) :
    SweepConforms self (fun _ _ => True) (self.heartbeatLoop fuel turns) stage := by
  induction turns generalizing stage with
  | zero => exact conforms_ret trivial
  | succ turns ih =>
      refine conforms_call ⟨rfl, fun _ _ => trivial⟩ fun shutdown _ => ?_
      split_ifs
      · exact conforms_ret trivial
      · exact sweep_redis rfl (fun _ _ => False.elim) fun _ _ =>
          conforms_bind (sweepPages_conforms fuel 0 0) fun _ _ _ => ih

end Heartbeat

-- The jobs that a command takes for a worker.
def Cmd.Takes : (c : Cmd) → Except RedisError c.Answer → WorkerId → JobId → Prop
  | .atomicClaimReadyJobs args, .ok ids => fun worker id => worker = args.workerId ∧ id ∈ ids
  | _, _ => fun _ _ => False

-- The job that a command finds gone.
def Cmd.Misses : Cmd → Store → JobId → Prop
  | .getJobDataMap id, s => fun other => id = other ∧ s.hash id = none
  | _, _ => fun _ => False

-- No command fails, locks outlive their expiry while their owner lives, and no worker is named
-- like a recovery.
def flawless : Machine.Assume Op Chance World Pid Role EnvEvent where
  run _ _ _ chance _ := chance.fault = .none
  env := lockAssume.env

-- No worker claims a job while a sweep is about to drop the worker's entry for it, and no sweep
-- finds the hash of a job gone that the worker still holds.
def sparing : Machine.Assume Op Chance World Pid Role EnvEvent where
  run
    | pid, role, .redis c, chance, w => chance.fault = .none ∧
        (∀ worker id, c.Takes (c.exec chance.fault chance.page w.store).1 worker id →
          ∀ sweeper, ¬ (w.history.sweeps sweeper).Drops worker id) ∧
        ∀ host id, role = .heartbeat host → c.Misses w.store id →
          w.history.claims (w.history.sweeps pid).worker id = none
    | _, _, _, chance, _ => chance.fault = .none
  env := lockAssume.env

-- Every claim is on record: the lock is held, the entry is there, and no sweep is about to drop it.
structure Entered (w : World) : Prop where
  exclusive : Exclusive w
  named : w.store.WellNamed
  held : ∀ worker id, (w.history.claims worker id).isSome → w.history.held worker id
  entry : ∀ worker id, (w.history.claims worker id).isSome → id ∈ w.store.active worker
  spared : ∀ sweeper worker id, (w.history.sweeps sweeper).Drops worker id →
    w.history.claims worker id = none

section Record

variable {h : History} {pid : Pid} {role : Role} {worker host me : WorkerId} {id : JobId} {c : Cmd}
  {answer : Except RedisError c.Answer}

theorem claims_unclaim {owner : WorkerId} {other : JobId} :
    ((h.unclaim owner other).claims worker id).isSome ↔
      (h.claims worker id).isSome ∧ ¬ (worker = owner ∧ id = other) := by
  simp only [History.unclaim]
  split_ifs with hif
  · simp [hif]
  · simp only [hif, not_false_eq_true, and_true]

theorem claims_noteSweep : (h.noteSweep pid host c answer).claims = h.claims := by
  unfold History.noteSweep
  split <;> rfl

theorem sweeps_noteClaims : (h.noteClaims role c answer).sweeps = h.sweeps := by
  unfold History.noteClaims
  split <;> (try split) <;> rfl

theorem sweeps_noteSweep_other {other : Pid} (ho : other ≠ pid) :
    (h.noteSweep pid host c answer).sweeps other = h.sweeps other := by
  unfold History.noteSweep
  split <;> simp [History.setSweep, ho]

-- The job that the answer of a command makes a sweep settle on.
def Cmd.Settles : (c : Cmd) → Except RedisError c.Answer → JobId → Prop
  | .getJobDataMap id, .ok none => (id = ·)
  | .tryLockJob id _ _, .ok true => (id = ·)
  | _, _ => fun _ => False

theorem drops_noteSweep (hd : ((h.noteSweep pid host c answer).sweeps pid).Drops worker id) :
    (h.sweeps pid).Drops worker id ∨ (h.sweeps pid).worker = worker ∧ c.Settles answer id := by
  unfold History.noteSweep at hd
  split at hd
  · obtain ⟨-, hsettling⟩ := hd
    simp [History.setSweep] at hsettling
  · obtain ⟨hworker, hsettling⟩ := hd
    simp only [History.setSweep, Function.update_self, Option.some.injEq] at hworker hsettling
    exact .inr ⟨hworker, hsettling⟩
  · obtain ⟨hworker, hsettling⟩ := hd
    simp only [History.setSweep, Function.update_self, Option.some.injEq] at hworker hsettling
    exact .inr ⟨hworker, hsettling⟩
  · obtain ⟨-, hsettling⟩ := hd
    simp [History.setSweep] at hsettling
  · obtain ⟨-, hsettling⟩ := hd
    simp [History.setSweep] at hsettling
  · exact .inl hd

-- What the record has of a sweep is what the heartbeat knows of it.
theorem sweeps_noteSweep {stage : Sweeping} {settling : Option JobId}
    (hk : ∀ worker settling, stage = some (worker, settling) →
      h.sweeps pid = { host, worker, settling })
    (hn : stage.next c answer = some (worker, settling)) :
    (h.noteSweep pid host c answer).sweeps pid = { host, worker, settling } := by
  unfold Sweeping.next at hn
  unfold History.noteSweep
  split at hn
  case h_3 =>
    obtain ⟨rfl, rfl⟩ := Prod.mk.inj (Option.some.inj hn)
    simp [History.setSweep]
  case h_6 =>
    split
    case h_6 => exact hk worker settling hn
    all_goals simp_all
  all_goals
    obtain ⟨⟨found, before⟩, rfl, hsweep⟩ := Option.map_eq_some_iff.mp hn
    obtain ⟨rfl, rfl⟩ := Prod.mk.inj hsweep
    simp [History.setSweep, hk found before rfl]

-- A command of a worker's own processes begins a claim, or leaves it alone.
theorem claims_noteClaims (hby : c.ByWorker me) (hme : ∀ worker, role.Claims worker ↔ worker = me)
    (hc : ((h.noteClaims role c answer).claims worker id).isSome) :
    (c.Takes answer worker id ∧ (h.noteClaims role c answer).held worker id) ∨
      ((h.claims worker id).isSome ∧ ¬ c.Drops worker id ∧
        (h.held worker id → (h.noteClaims role c answer).held worker id)) := by
  cases c
  case atomicClaimReadyJobs args =>
    cases answer with
    | error error => exact .inr ⟨hc, fun hd => hd, fun hh => hh⟩
    | ok ids =>
        simp only [History.noteClaims, History.claim] at hc ⊢
        by_cases hmine : worker = args.workerId ∧ id ∈ ids
        · exact .inl ⟨hmine, by rw [if_pos hmine]⟩
        · rw [if_neg hmine] at hc
          exact .inr ⟨hc, fun hd => hd, fun hh => by rwa [if_neg hmine]⟩
  case removeActiveJob owner other =>
    simp only [History.noteClaims, if_pos ((hme owner).mpr hby)] at hc ⊢
    obtain ⟨hbefore, hne⟩ := claims_unclaim.mp hc
    exact .inr ⟨hbefore, fun hd => hne ⟨hd.1.symm, hd.2.symm⟩, fun hh => hh⟩
  case releaseJobLockIfOwner other owner =>
    simp only [History.noteClaims, if_pos ((hme owner).mpr hby)] at hc ⊢
    obtain ⟨hbefore, hne⟩ := claims_unclaim.mp hc
    exact .inr ⟨hbefore, fun hd => hd,
      fun hh => held_release.mpr ⟨hh, fun hr => hne ⟨hr.2.1, hr.2.2⟩⟩⟩
  case atomicRequeueJob args =>
    obtain ⟨howner, hactive⟩ : args.releasingOwner = me ∧ args.activeWorkerId = some me := hby
    simp only [History.noteClaims, if_pos ((hme _).mpr howner)] at hc ⊢
    obtain ⟨hbefore, hne⟩ := claims_unclaim.mp hc
    refine .inr ⟨hbefore, ?_, fun hh => held_release.mpr ⟨hh, fun hr => hne ⟨hr.2.1, hr.2.2⟩⟩⟩
    rintro ⟨hworker, hid⟩
    exact hne ⟨(Option.some.inj (hactive.symm.trans hworker)).symm.trans howner.symm, hid.symm⟩
  all_goals first | exact hby.elim | exact .inr ⟨hc, fun hd => hd, fun hh => hh⟩

end Record

section Step

variable {w : World} {pid : Pid} {role : Role} {c : Cmd} {fault : Fault}
  {page : Nat × List String} {answer : Except RedisError c.Answer} {store : Store}

theorem named_exec (hp : (Op.redis c).Permits role) (hs : w.store.WellNamed)
    (hexec : c.exec fault page w.store = (answer, store)) :
    store.WellNamed ∧ Op.Named (.redis c) answer := by
  constructor
  · have hown : c.NamesOwn := by
      cases role <;> cases c <;> first | exact hp.elim | exact hp.1 | trivial
    have hafter := Cmd.wellNamed_exec hown fault page hs
    rwa [hexec] at hafter
  · cases c <;> try trivial
    case getJobDataMap id =>
      intro h ha
      obtain ⟨rfl, rfl⟩ := Cmd.getJobDataMap_inv hexec
      split_ifs at ha
      exact hs id h (Except.ok.inj ha)

-- A sweep settles on a job that is gone, or on one that nobody has locked.
theorem settles_exec {id : JobId} (hs : c.Settles answer id)
    (hexec : c.exec fault page w.store = (answer, store)) :
    c.Misses w.store id ∨ w.store.lock id = none := by
  cases c <;> try exact hs.elim
  case getJobDataMap other =>
    left
    obtain ⟨rfl, rfl⟩ := Cmd.getJobDataMap_inv hexec
    split_ifs at hs
    · cases hhash : w.store.hash other with
      | none =>
          rw [hhash] at hs
          obtain rfl : other = id := hs
          exact ⟨rfl, hhash⟩
      | some h =>
          rw [hhash] at hs
          exact hs.elim
    · exact hs.elim
  case tryLockJob other owner ms =>
    right
    cases answer with
    | error error => exact hs.elim
    | ok taken =>
    cases taken with
    | false => exact hs.elim
    | true =>
        obtain rfl : other = id := hs
        simp only [Cmd.exec] at hexec
        have hset := Cmd.single_ok hexec
        split at hset
        · rename_i taken after heq
          obtain ⟨hanswer, -⟩ := Prod.mk.inj hset
          obtain rfl := Except.ok.inj hanswer
          have hfree := (setLockNx_eq_some heq).1
          simp [lock, hfree]
        · cases hset

-- One command of a heartbeat. An entry that it drops is of no claim.
theorem entered_heartbeat {host : WorkerId} {stage : Sweeping} (hinv : Entered w)
    (hexclusive : Exclusive { w with store, history := w.history.noteSweep pid host c answer })
    (hp : (Op.redis c).Permits (.heartbeat host)) (hallows : stage.Allows (.redis c))
    (hknown : ∀ worker settling, stage = some (worker, settling) →
      w.history.sweeps pid = { host, worker, settling })
    (hf : fault = .none) (hmisses : ∀ id, c.Misses w.store id →
      w.history.claims (w.history.sweeps pid).worker id = none)
    (hexec : c.exec fault page w.store = (answer, store)) :
    Entered { w with store, history := w.history.noteSweep pid host c answer } where
  exclusive := hexclusive
  named := (named_exec hp hinv.named hexec).1
  held worker id hc := by
    rw [claims_noteSweep] at hc
    rw [held_noteSweep]
    exact hinv.held worker id hc
  entry worker id hc := by
    rw [claims_noteSweep] at hc
    refine Cmd.active_exec (.inl hf) hinv.exclusive.wellLocked hexec (fun hd => ?_)
      (hinv.entry worker id hc)
    have hsweep := hknown worker (some id) (hallows worker id hd)
    have hnone := hinv.spared pid worker id ⟨by rw [hsweep], by rw [hsweep]⟩
    rw [hnone] at hc
    cases hc
  spared sweeper worker id hd := by
    rw [claims_noteSweep]
    by_cases hs : sweeper = pid
    · subst hs
      rcases drops_noteSweep hd with hbefore | ⟨rfl, hsettles⟩
      · exact hinv.spared sweeper worker id hbefore
      rcases settles_exec hsettles hexec with hgone | hfree
      · exact hmisses id hgone
      · by_contra hclaimed
        have hheld := hinv.held _ id (Option.isSome_iff_ne_none.mpr hclaimed)
        rw [hinv.exclusive.locked _ id hheld] at hfree
        cases hfree
    · rw [sweeps_noteSweep_other hs] at hd
      exact hinv.spared sweeper worker id hd

-- One command of the poll loop of a worker or of a task.
theorem entered_worker {me : WorkerId} (hinv : Entered w)
    (hexclusive : Exclusive { w with store, history := w.history.noteClaims role c answer })
    (hp : (Op.redis c).Permits role) (hby : c.ByWorker me)
    (hme : ∀ worker, role.Claims worker ↔ worker = me) (hf : fault = .none)
    (htakes : ∀ worker id, c.Takes answer worker id →
      ∀ sweeper, ¬ (w.history.sweeps sweeper).Drops worker id)
    (hexec : c.exec fault page w.store = (answer, store)) :
    Entered { w with store, history := w.history.noteClaims role c answer } where
  exclusive := hexclusive
  named := (named_exec hp hinv.named hexec).1
  held worker id hc := by
    rcases claims_noteClaims hby hme hc with ⟨-, hheld⟩ | ⟨hbefore, -, hkept⟩
    · exact hheld
    · exact hkept (hinv.held worker id hbefore)
  entry worker id hc := by
    rcases claims_noteClaims hby hme hc with ⟨htaken, -⟩ | ⟨hbefore, hdrops, -⟩
    · cases c <;> try exact htaken.elim
      case atomicClaimReadyJobs args =>
        cases answer with
        | error error => exact htaken.elim
        | ok claimed =>
            obtain ⟨rfl, hid⟩ := htaken
            obtain ⟨ids, -, -, hclaims, hanswer⟩ := Cmd.atomicClaimReadyJobs_inv (.inl hf) hexec
            obtain rfl := hanswer claimed rfl
            exact ((hclaims.taken id hid).active _).mpr (.inl rfl)
    · exact Cmd.active_exec (.inl hf) hinv.exclusive.wellLocked hexec hdrops
        (hinv.entry worker id hbefore)
  spared sweeper worker id hd := by
    have hsame : (w.history.noteClaims role c answer).sweeps = w.history.sweeps :=
      sweeps_noteClaims
    rw [hsame] at hd
    by_contra hclaimed
    rcases claims_noteClaims hby hme (Option.isSome_iff_ne_none.mpr hclaimed) with
      ⟨htaken, -⟩ | ⟨hbefore, -, -⟩
    · exact htakes worker id htaken sweeper hd
    · rw [hinv.spared sweeper worker id hd] at hbefore
      cases hbefore

end Step

-- The other operations neither begin nor end a claim, and no sweep has any.
theorem claims_exec_local {pid : Pid} {role : Role} {op : Op} {chance : Chance} {w after : World}
    {reply : op.Reply} (hop : ∀ c, op ≠ .redis c)
    (h : World.exec pid role op chance w = (reply, after)) :
    (∀ worker id, (after.history.claims worker id).isSome = (w.history.claims worker id).isSome) ∧
      after.history.sweeps = w.history.sweeps := by
  cases op <;> obtain ⟨-, rfl⟩ := Prod.mk.injEq .. ▸ h
  case redis c => exact absurd rfl (hop c)
  case spawnTask self job queueName =>
    refine ⟨fun worker id => ?_, rfl⟩
    simp only [History.handOver]
    split_ifs
    · rw [Option.isSome_map]
    · rfl
  all_goals exact ⟨fun _ _ => rfl, rfl⟩

-- What a process has of its worker and of its sweep.
structure Knows (pid : Pid) (role : Role) (stage : Sweeping) (w : World) : Prop where
  alive : HostAlive role w
  sweep : ∀ host worker settling, role = .heartbeat host → stage = some (worker, settling) →
    w.history.sweeps pid = { host, worker, settling }

-- What an operation of a process leaves to the others.
structure LeavesSweeps (pid : Pid) (a b : World) : Prop where
  alive : ∀ worker, (a.mem worker).alive → (b.mem worker).alive
  sweeps : ∀ other, other ≠ pid → b.history.sweeps other = a.history.sweeps other

theorem entered_redis {pid : Pid} {role : Role} {c : Cmd} {chance : Chance} {w : World}
    {stage : Sweeping} {answer : Except RedisError c.Answer} {store : Store} (hinv : Entered w)
    (hallows : (sweeping role).allows stage (.redis c)) (hk : Knows pid role stage w)
    (ha : sparing.run pid role (.redis c) chance w)
    (hexec : c.exec chance.fault chance.page w.store = (answer, store)) :
    Entered { w with store, history := w.history.note pid role c answer } := by
  obtain ⟨hp, hallows⟩ := hallows
  obtain ⟨hf, htakes, hmisses⟩ := ha
  rw [hexec] at htakes
  have hexclusive : Exclusive { w with store, history := w.history.note pid role c answer } :=
    (exclusive_redis hinv.exclusive hp hk.alive (.inl hf) hexec).1
  cases role with
  | heartbeat host =>
      exact entered_heartbeat hinv hexclusive hp (hallows host rfl)
        (fun worker settling => hk.sweep host worker settling rfl) hf
        (fun id hgone => hmisses host id rfl hgone) hexec
  | main me =>
      have hby : c.ByWorker me := hp
      exact entered_worker hinv hexclusive hp hby (by simp [Role.Claims, eq_comm]) hf htakes hexec
  | task me =>
      have hby : c.ByWorker me := hp
      exact entered_worker hinv hexclusive hp hby (by simp [Role.Claims, eq_comm]) hf htakes hexec
  | client =>
      have hsame : w.history.note pid .client c answer = w.history := by
        cases c <;> first | exact hp.elim | rfl
      have hdrops : ∀ worker id, ¬ c.Drops worker id := by
        intro worker id
        cases c <;> first | exact hp.elim | exact fun hd => hd
      rw [hsame] at hexclusive ⊢
      exact ⟨hexclusive, (named_exec hp hinv.named hexec).1, hinv.held, fun worker id hc =>
        Cmd.active_exec (.inl hf) hinv.exclusive.wellLocked hexec (hdrops worker id)
          (hinv.entry worker id hc), hinv.spared⟩

theorem entered_exec {pid : Pid} {role : Role} {op : Op} {chance : Chance} {w after : World}
    {stage : Sweeping} {reply : op.Reply} (hinv : Entered w)
    (hallows : (sweeping role).allows stage op) (hk : Knows pid role stage w)
    (ha : sparing.run pid role op chance w) (h : World.exec pid role op chance w = (reply, after)) :
    Entered after ∧ LeavesSweeps pid w after ∧ (sweeping role).possible stage op reply ∧
      Knows pid role ((sweeping role).next stage op reply) after := by
  have hf : chance.fault = .none := by
    cases op <;> first | exact ha.1 | exact ha
  obtain ⟨hexclusive, hleaves, hpossible⟩ :=
    exclusive_exec hinv.exclusive hallows.1 hk.alive (.inl hf) h
  have halive : HostAlive role after := fun worker hw => hleaves.alive worker (hk.alive worker hw)
  by_cases hop : ∃ c, op = .redis c
  · obtain ⟨c, rfl⟩ := hop
    cases hexec : c.exec chance.fault chance.page w.store with
    | mk answer store =>
    obtain ⟨rfl, rfl⟩ : answer = reply ∧
        { w with store, history := w.history.note pid role c answer } = after := by
      simp only [World.exec, hexec, Prod.mk.injEq] at h
      exact h
    refine ⟨entered_redis hinv hallows hk ha hexec, ⟨hleaves.alive, fun other ho => ?_⟩,
      ⟨hpossible, (named_exec hallows.1 hinv.named hexec).2⟩, halive, ?_⟩
    · cases role with
      | heartbeat host => exact sweeps_noteSweep_other ho
      | _ => exact congrFun sweeps_noteClaims other
    · rintro host worker settling rfl hn
      exact sweeps_noteSweep (fun worker settling => hk.sweep host worker settling rfl) hn
  · have hlocal : ∀ c, op ≠ .redis c := fun c hc => hop ⟨c, hc⟩
    obtain ⟨hstore, hheld, -⟩ := world_exec_local hlocal h
    obtain ⟨hclaims, hsweeps⟩ := claims_exec_local hlocal h
    refine ⟨⟨hexclusive, hstore ▸ hinv.named, fun worker id hc => ?_, fun worker id hc => ?_,
      fun sweeper worker id hd => ?_⟩, ⟨hleaves.alive, fun other _ => by rw [hsweeps]⟩,
        ⟨hpossible, ?_⟩, halive, ?_⟩
    · rw [hheld]
      exact hinv.held worker id (hclaims worker id ▸ hc)
    · rw [hstore]
      exact hinv.entry worker id (hclaims worker id ▸ hc)
    · have hnone := hinv.spared sweeper worker id (hsweeps ▸ hd)
      rw [← Option.not_isSome_iff_eq_none, hclaims, hnone]
      exact Bool.false_ne_true
    · cases op <;> first | trivial | exact absurd rfl (hlocal _)
    · intro host worker settling hr hn
      rw [hsweeps]
      apply hk.sweep host worker settling hr
      cases op <;> first | exact absurd rfl (hlocal _) | (subst hr; exact hn)

section Surroundings

variable {event : EnvEvent} {w after : World}

theorem wellNamed_advance {s : Store} (hs : s.WellNamed) (now : Int) : (s.advance now).WellNamed := by
  intro id h hhash
  apply hs id h
  simp only [Store.hash, Store.advance, Option.map_eq_some_iff, Option.filter_eq_some_iff] at hhash ⊢
  obtain ⟨cell, ⟨hcell, -⟩, hvalue⟩ := hhash
  exact ⟨cell, hcell, hvalue⟩

theorem entered_move (hinv : Entered w) (hm : w.move event = some after)
    (ha : sparing.env event w after) : Entered after := by
  have hexclusive := exclusive_move hinv.exclusive hm ha
  cases event with
  | advance now =>
      simp only [World.move, Option.ite_none_right_eq_some, Option.some.injEq] at hm
      obtain ⟨-, rfl⟩ := hm
      exact ⟨hexclusive, wellNamed_advance hinv.named now, hinv.held, hinv.entry, hinv.spared⟩
  | start pid self fuel =>
      simp only [World.move, Option.ite_none_left_eq_some, Option.some.injEq] at hm
      obtain ⟨-, rfl⟩ := hm
      exact ⟨hexclusive, hinv.named, hinv.held, hinv.entry, hinv.spared⟩
  | crash owner =>
      simp only [World.move, Option.ite_none_right_eq_some, Option.some.injEq] at hm
      obtain ⟨-, rfl⟩ := hm
      have hother : ∀ worker id, ((w.history.crash owner).claims worker id).isSome →
          worker ≠ owner ∧ (w.history.claims worker id).isSome := by
        intro worker id hc
        simp only [History.crash] at hc
        split_ifs at hc with hw
        · cases hc
        · exact ⟨hw, hc⟩
      refine ⟨hexclusive, hinv.named, fun worker id hc => ?_,
        fun worker id hc => hinv.entry worker id (hother worker id hc).2,
        fun sweeper worker id hd => ?_⟩
      · obtain ⟨hw, hbefore⟩ := hother worker id hc
        simp only [History.crash, if_neg hw]
        exact hinv.held worker id hbefore
      · by_contra hclaimed
        obtain ⟨-, hbefore⟩ := hother worker id (Option.isSome_iff_ne_none.mpr hclaimed)
        simp only [History.crash] at hd
        split_ifs at hd
        · cases hd.2
        · rw [hinv.spared sweeper worker id hd] at hbefore
          cases hbefore
  | kill worker task =>
      simp only [World.move, Option.ite_none_right_eq_some, Option.some.injEq] at hm
      exact hm.2 ▸ hinv
  | requestShutdown owner =>
      simp only [World.move, Option.ite_none_right_eq_some, Option.some.injEq] at hm
      obtain ⟨-, rfl⟩ := hm
      exact ⟨hexclusive, hinv.named, hinv.held, hinv.entry, hinv.spared⟩
  | call pid request =>
      obtain rfl := Option.some.inj hm
      exact hinv

-- Only with its own worker does a sweep end.
theorem sweeps_move {pid : Pid} {host : WorkerId} (hm : w.move event = some after)
    (hs : event.stops pid (.heartbeat host) = false) (hhost : (w.history.sweeps pid).host = host) :
    after.history.sweeps pid = w.history.sweeps pid := by
  cases event with
  | crash owner =>
      simp only [World.move, Option.ite_none_right_eq_some, Option.some.injEq] at hm
      obtain ⟨-, rfl⟩ := hm
      have hne : (w.history.sweeps pid).host ≠ owner := by
        rintro rfl
        simp [EnvEvent.stops, Role.host, hhost] at hs
      simp only [History.crash, if_neg hne]
  | _ =>
      simp only [World.move, Option.ite_none_right_eq_some, Option.ite_none_left_eq_some,
        Option.some.injEq] at hm
      first | exact hm ▸ rfl | exact hm.2 ▸ rfl

end Surroundings

-- The argument over all processes.
def entering : Machine.Argument system sparing where
  inv := Entered
  rely pid role a b := (HostAlive role a → HostAlive role b) ∧ ∀ host, role = .heartbeat host →
    (a.history.sweeps pid).host = host → b.history.sweeps pid = a.history.sweeps pid
  guar pid _ := LeavesSweeps pid
  begins _ role op _ w := op.Permits role ∧ HostAlive role w
  rely_refl _ _ _ := ⟨fun h => h, fun _ _ _ => rfl⟩
  rely_trans _ _ a b _ hab hbc := by
    refine ⟨fun h => hbc.1 (hab.1 h), fun host hr hhost => ?_⟩
    have hsame := hab.2 host hr hhost
    exact (hbc.2 host hr (hsame ▸ hhost)).trans hsame
  rely_of_guar _ q _ _ _ _ hne _ _ hg :=
    ⟨fun h worker hw => hg.alive worker (h worker hw), fun _ _ _ => hg.sweeps q (Ne.symm hne)⟩

theorem entering_safe {pid : Pid} {role : Role} {prog : Proc Unit} {w : World}
    (hp : (sweeping role).Conforms (fun _ _ => True) prog none) (halive : HostAlive role w) :
    entering.Safe pid role prog w := by
  refine Conduct.Conforms.safe (Knows pid role) (fun stage a b hk hrely => ?_)
    (fun stage op chance before reply after hallows hk hstep => ?_) hp ⟨halive, nofun⟩
  · refine ⟨hrely.1 hk.alive, fun host worker settling hr hs => ?_⟩
    have hsweep := hk.sweep host worker settling hr hs
    exact (hrely.2 host hr (by rw [hsweep])).trans hsweep
  · obtain ⟨hinv, ha, hexec⟩ := hstep
    obtain ⟨hentered, hleaves, hpossible, hknows⟩ := entered_exec hinv hallows hk ha hexec
    exact ⟨hentered, hleaves, ⟨hallows.1, hknows.alive⟩, hpossible, hknows⟩

-- Whatever the system starts drops only entries that it has settled on.
theorem fork_sweeping {op : Op} {reply : op.Reply} {pid : Pid} {role : Role} {prog : Proc Unit}
    (h : op.fork reply = some (pid, role, prog)) :
    (sweeping role).Conforms (fun _ _ => True) prog none := by
  have hissues := fork_issues h
  cases role with
  | heartbeat host =>
      cases op <;> simp only [Op.fork, Option.some.injEq, Prod.mk.injEq, reduceCtorEq, and_false,
        false_and, Role.heartbeat.injEq] at h
      obtain ⟨-, rfl, rfl⟩ := h
      exact heartbeatLoop_conforms _ _
  | _ => exact sweeping_of_issues (fun _ hr => by cases hr) hissues none

theorem spawn_sweeping {event : EnvEvent} {pid : Pid} {role : Role} {prog : Proc Unit}
    (h : event.spawn = some (pid, role, prog)) :
    (sweeping role).Conforms (fun _ _ => True) prog none := by
  refine sweeping_of_issues ?_ (spawn_issues h) none
  rintro host rfl
  cases event <;> cases h

theorem entering_sound : entering.Sound where
  forks pid role op reply w child other prog _ hb hfork := by
    obtain ⟨hp, halive⟩ := hb
    exact entering_safe (fork_sweeping hfork) fun owner ho => halive owner (fork_host hp hfork ho)
  moves _ _ _ hinv hm ha := entered_move hinv hm ha
  survives event w after pid role _ hm _ hs :=
    ⟨fun halive => hostAlive_move hm hs halive, fun host hr hhost => by
      subst hr
      exact sweeps_move hm hs hhost⟩
  spawns event w after child role prog _ hm _ hspawn :=
    entering_safe (spawn_sweeping hspawn) (spawn_hostAlive hm hspawn)

theorem entered_start : Entered System.start.state where
  exclusive := exclusion_start.1
  named _ _ h := by cases h
  held _ _ h := by cases h
  entry _ _ h := by cases h
  spared _ _ _ _ := rfl

theorem entering_start : entering.Holds System.start := ⟨entered_start, fun _ _ _ h => by cases h⟩

-- A claimed job stands in the active set of its worker until the worker begins to clean up or to
-- give the job back, and a heartbeat leaves every claim and its entry as they are.
theorem claims_entered {sys : System} (hr : Machine.Reach system sparing System.start sys) :
    (∀ worker id, (sys.state.history.claims worker id).isSome →
      id ∈ sys.state.store.active worker) ∧
    ∀ pid chance after host prog, system.Admitted sparing sys (.run pid chance) →
      system.step sys (.run pid chance) = some after →
      sys.procs pid = some (.heartbeat host, prog) →
      ∀ worker id, (sys.state.history.claims worker id).isSome →
        (after.state.history.claims worker id).isSome ∧ id ∈ after.state.store.active worker := by
  have hall : ∀ {sys : System}, Machine.Reach system sparing System.start sys → Entered sys.state :=
    fun hr => (Machine.Argument.holds_reach entering_sound entering_start hr).1
  refine ⟨(hall hr).entry, fun pid chance after host prog ha hs hp worker id hc => ?_⟩
  have hsame : (after.state.history.claims worker id).isSome =
      (sys.state.history.claims worker id).isSome := by
    simp only [Machine.step, hp] at hs
    split at hs
    case h_2 => cases hs
    case h_1 role op next hproc =>
      obtain ⟨rfl, rfl⟩ := Prod.mk.inj (Option.some.inj hproc)
      obtain ⟨procs, -, rfl⟩ := Option.map_eq_some_iff.mp hs
      by_cases hop : ∃ c, op = .redis c
      · obtain ⟨c, rfl⟩ := hop
        exact congrArg Option.isSome (congrFun₂ claims_noteSweep worker id)
      · exact (claims_exec_local (fun c hc => hop ⟨c, hc⟩) rfl).1 worker id
  rw [← hsame] at hc
  exact ⟨hc, (hall (.step _ hr ha hs)).entry worker id hc⟩

-- Without the steps of a heartbeat no sweep begins.

def quietStep (sys : System) : Label Chance Pid EnvEvent → Bool
  | .run pid chance => decide (chance.fault = .none) &&
      match sys.procs pid with
      | some (.heartbeat _, _) => false
      | _ => true
  | .env (.start _ self _) => !decide (IsRecovery self.workerId)
  | .env (.call _ _) => true
  | .env _ => false

def Quiet (sys : System) : Prop := ∀ sweeper, sys.state.history.sweeps sweeper = {}

theorem not_drops_of_quiet {sys : System} (hq : Quiet sys) (sweeper : Pid) (worker : WorkerId)
    (id : JobId) : ¬ (sys.state.history.sweeps sweeper).Drops worker id := by
  rintro ⟨-, hsettling⟩
  rw [hq sweeper] at hsettling
  cases hsettling

theorem admitted_quietStep (sys : System) (label : Label Chance Pid EnvEvent) (hq : Quiet sys)
    (h : quietStep sys label = true) : system.Admitted sparing sys label := by
  cases label with
  | run pid chance =>
      intro role op next hp
      obtain ⟨hf, hrole⟩ := Bool.and_eq_true_iff.mp h
      rw [hp] at hrole
      have hfault : chance.fault = .none := of_decide_eq_true hf
      cases op with
      | redis c =>
          refine ⟨hfault, fun worker id _ sweeper => not_drops_of_quiet hq sweeper worker id, ?_⟩
          rintro host id rfl
          cases hrole
      | _ => exact hfault
  | env event =>
      intro state _
      cases event with
      | start pid self fuel =>
          have hnamed : ¬ IsRecovery self.workerId := by simpa [quietStep] using h
          exact hnamed
      | call pid request => trivial
      | _ => cases h

theorem quiet_quietStep (sys : System) (label : Label Chance Pid EnvEvent) (after : System)
    (hq : Quiet sys) (h : quietStep sys label = true) (hs : system.step sys label = some after) :
    Quiet after := by
  intro sweeper
  cases label with
  | run pid chance =>
      obtain ⟨-, hrole⟩ := Bool.and_eq_true_iff.mp h
      simp only [Machine.step] at hs
      split at hs
      case h_2 => cases hs
      case h_1 role op next hp =>
        obtain ⟨procs, -, rfl⟩ := Option.map_eq_some_iff.mp hs
        rw [hp] at hrole
        refine Eq.trans (congrFun ?_ sweeper) (hq sweeper)
        by_cases hop : ∃ c, op = .redis c
        · obtain ⟨c, rfl⟩ := hop
          cases role with
          | heartbeat host => cases hrole
          | _ => exact sweeps_noteClaims
        · exact (claims_exec_local (fun c hc => hop ⟨c, hc⟩) rfl).2
  | env event =>
      obtain ⟨state, hmove, hs⟩ := Option.bind_eq_some_iff.mp hs
      obtain ⟨procs, -, rfl⟩ := Option.map_eq_some_iff.mp hs
      refine Eq.trans (congrFun ?_ sweeper) (hq sweeper)
      cases event with
      | start pid self fuel =>
          obtain ⟨-, hstate⟩ := Option.ite_none_left_eq_some.mp hmove
          exact Option.some.inj hstate ▸ rfl
      | call pid request => exact Option.some.inj hmove ▸ rfl
      | _ => cases h

theorem claims_entered_claimRun : ∃ sys, Machine.Reach system sparing System.start sys ∧
    (sys.state.history.claims "w0" "j").isSome ∧ "j" ∈ sys.state.store.active "w0" := by
  have hrun : (system.stepsWhere quietStep claimRun System.start).map
      (fun sys => (sys.state.history.claims "w0" "j").isSome) = some true := by decide +kernel
  obtain ⟨sys, hr, hclaimed⟩ := Machine.exists_reach_keeping .start (fun _ => rfl)
    admitted_quietStep quiet_quietStep hrun
  exact ⟨sys, hr, hclaimed, (claims_entered hr).1 "w0" "j" hclaimed⟩

-- The worker crashes and its lock expires. A second worker requeues the job. Before the sweep
-- drops the entry once more, the first worker is back and has claimed the job again.
def reclaimRun : List (Label Chance Pid EnvEvent) :=
  claimRun ++ [.env (.crash "w0"), .env (.advance 400000), .env (.start 3 (.ofDefaults "w1") 1),
      .run 3 { child := 4 }] ++ List.replicate 2 (.run 4 {}) ++
    [.run 4 { page := (0, [ACTIVE_JOBS_PREFIX ++ "w0"]) }] ++ List.replicate 8 (.run 4 {}) ++
    [.env (.start 5 (.ofDefaults "w0") 1), .run 5 { child := 6 }] ++ List.replicate 6 (.run 5 {}) ++
    [.run 4 {}]

-- Time passes only while neither worker is alive.
def desertedStep (sys : System) : Label Chance Pid EnvEvent → Bool
  | .run _ chance => decide (chance.fault = .none)
  | .env (.advance _) => !(sys.state.mem "w0").alive && !(sys.state.mem "w1").alive
  | .env (.start _ self _) => decide (self.workerId = "w0" ∨ self.workerId = "w1")
  | .env _ => true

def OnlyTwo (sys : System) : Prop :=
  ∀ worker, (sys.state.mem worker).alive → worker = "w0" ∨ worker = "w1"

theorem admitted_desertedStep (sys : System) (label : Label Chance Pid EnvEvent)
    (ho : OnlyTwo sys) (h : desertedStep sys label = true) :
    system.Admitted flawless sys label := by
  cases label with
  | run pid chance =>
      have hfault : chance.fault = .none := of_decide_eq_true h
      exact fun _ _ _ _ => hfault
  | env event =>
      intro state _
      cases event with
      | advance now =>
          intro worker id cell halive
          simp only [desertedStep, Bool.and_eq_true, Bool.not_eq_true'] at h
          rcases ho worker halive with rfl | rfl
          · rw [h.1] at halive
            cases halive
          · rw [h.2] at halive
            cases halive
      | start pid self fuel =>
          rcases of_decide_eq_true h with hname | hname
          · exact fun hrecovery => absurd (hname ▸ hrecovery) (by decide)
          · exact fun hrecovery => absurd (hname ▸ hrecovery) (by decide)
      | _ => trivial

theorem onlyTwo_desertedStep (sys : System) (label : Label Chance Pid EnvEvent) (after : System)
    (ho : OnlyTwo sys) (h : desertedStep sys label = true)
    (hs : system.step sys label = some after) : OnlyTwo after := by
  intro worker halive
  cases label with
  | run pid chance =>
      simp only [Machine.step] at hs
      split at hs
      case h_2 => cases hs
      case h_1 role op next hp =>
        obtain ⟨procs, -, rfl⟩ := Option.map_eq_some_iff.mp hs
        exact ho worker (alive_exec worker ▸ halive)
  | env event =>
      obtain ⟨state, hmove, hs⟩ := Option.bind_eq_some_iff.mp hs
      obtain ⟨procs, -, rfl⟩ := Option.map_eq_some_iff.mp hs
      cases event with
      | advance now =>
          obtain ⟨-, hstate⟩ := Option.ite_none_right_eq_some.mp hmove
          obtain rfl := Option.some.inj hstate
          exact ho worker halive
      | start pid self fuel =>
          obtain ⟨-, hstate⟩ := Option.ite_none_left_eq_some.mp hmove
          obtain rfl := Option.some.inj hstate
          by_cases hw : worker = self.workerId
          · exact hw ▸ of_decide_eq_true h
          · exact ho worker (by simpa [World.setMem, hw] using halive)
      | crash owner =>
          obtain ⟨-, hstate⟩ := Option.ite_none_right_eq_some.mp hmove
          obtain rfl := Option.some.inj hstate
          by_cases hw : worker = owner
          · simp [World.setMem, hw] at halive
          · exact ho worker (by simpa [World.setMem, hw] using halive)
      | kill owner task =>
          obtain ⟨-, hstate⟩ := Option.ite_none_right_eq_some.mp hmove
          obtain rfl := Option.some.inj hstate
          exact ho worker halive
      | requestShutdown owner =>
          obtain ⟨howner, hstate⟩ := Option.ite_none_right_eq_some.mp hmove
          obtain rfl := Option.some.inj hstate
          by_cases hw : worker = owner
          · exact ho worker (hw ▸ howner)
          · exact ho worker (by simpa [World.setMem, hw] using halive)
      | call pid request =>
          obtain rfl := Option.some.inj hmove
          exact ho worker halive

theorem claims_dropped : ¬ ∀ sys, Machine.Reach system flawless System.start sys →
    ∀ worker id, (sys.state.history.claims worker id).isSome →
      id ∈ sys.state.store.active worker := by
  intro h
  have hrun : (system.stepsWhere desertedStep reclaimRun System.start).map (fun sys =>
      (sys.state.history.claims "w0" "j").isSome &&
        !decide ("j" ∈ sys.state.store.active "w0")) = some true := by decide +kernel
  obtain ⟨sys, hr, htest⟩ := Machine.exists_reach_keeping .start (fun worker halive => by
    cases halive) admitted_desertedStep onlyTwo_desertedStep hrun
  obtain ⟨hclaimed, hgone⟩ := Bool.and_eq_true_iff.mp htest
  have hentry := h sys hr "w0" "j" hclaimed
  simp only [Bool.not_eq_true', decide_eq_false_iff_not] at hgone
  exact hgone hentry

end Rrq
