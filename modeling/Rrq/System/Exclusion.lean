import Rrq.Store.Ownership
import Rrq.System.Duties

-- Of all workers only one holds a job at a time, and its lock says so.

namespace Rrq

open Store

-- Commands happen whole or not at all, locks outlive their expiry while their owner lives, and
-- no worker is named like a recovery.
def lockAssume : Machine.Assume Op Chance World Pid Role EnvEvent where
  run _ _ _ chance _ := chance.fault = .none ∨ chance.fault = .refused
  env
    | .advance now, before, _ => ∀ worker id cell, (before.mem worker).alive →
        before.store.locks id = some cell → cell.value = .owner worker → cell.liveAt now
    | .start _ self _, _, _ => ¬ IsRecovery self.workerId
    | _, _, _ => True

structure Exclusive (w : World) : Prop where
  wellLocked : ∀ id, w.store.lock id ≠ some .malformed
  locked : ∀ worker id, w.history.held worker id → w.store.lock id = some (.owner worker)
  alive : ∀ worker id, w.history.held worker id → (w.mem worker).alive
  named : ∀ worker, (w.mem worker).alive → ¬ IsRecovery worker

-- The worker of a process has not crashed.
def HostAlive (role : Role) (w : World) : Prop :=
  ∀ worker, role.host = some worker → (w.mem worker).alive

structure LeavesHeld (role : Role) (a b : World) : Prop where
  alive : ∀ worker, (a.mem worker).alive → (b.mem worker).alive
  held : ∀ worker id, ¬ role.Claims worker → a.history.held worker id → b.history.held worker id
  locks : ∀ worker id, ¬ role.Claims worker → a.history.held worker id →
    b.store.locks id = a.store.locks id

section Record

variable {h : History} {pid : Pid} {role : Role} {worker : WorkerId} {id : JobId}

theorem held_release {owner : WorkerId} {other : JobId} {freed : Bool} :
    (h.release owner other freed).held worker id ↔
      h.held worker id ∧ ¬ (freed ∧ worker = owner ∧ id = other) := by
  simp only [History.release]
  split_ifs with hif
  · simp [hif]
  · simp only [hif, not_false_eq_true, and_true]

theorem held_noteSweep {host : WorkerId} {c : Cmd} (answer : Except RedisError c.Answer) :
    (h.noteSweep pid host c answer).held = h.held := by
  unfold History.noteSweep
  split <;> rfl

-- Only its own processes end what a worker holds.
theorem held_note {c : Cmd} {answer : Except RedisError c.Answer}
    (hp : (Op.redis c).Permits role) (hn : ¬ role.Claims worker) (hh : h.held worker id) :
    (h.note pid role c answer).held worker id := by
  have hkept : ∀ owner other freed, (role.Claims owner → (h.release owner other freed).held worker id)
      := by
    intro owner other freed ho
    refine held_release.mpr ⟨hh, fun he => hn (he.2.1 ▸ ho)⟩
  cases role with
  | heartbeat host => exact (congrFun₂ (held_noteSweep answer) worker id).symm ▸ hh
  | _ =>
      simp only [History.note]
      unfold History.noteClaims
      split
      · simp only [History.claim]
        split_ifs
        · rfl
        · exact hh
      · split_ifs
        · exact hh
        · exact hh
      · split_ifs with hc
        · exact hkept _ _ _ hc
        · exact hh
      · exact hp.elim
      · split_ifs with hc
        · exact hkept _ _ _ hc
        · exact hh
      · exact hh

theorem not_actsAs {c : Cmd} (hp : (Op.redis c).Permits role) (hn : ¬ role.Claims worker)
    (hw : ¬ IsRecovery worker) : ¬ c.ActsAs worker := by
  have hmain : ∀ owner, c.ByWorker owner → worker ≠ owner → ¬ c.ActsAs worker := by
    intro owner hby hne hacts
    cases c <;> simp only [Cmd.ActsAs, Cmd.ByWorker] at hacts hby
    case refreshJobLockTimeout => exact hne (hacts.trans hby)
    case releaseJobLockIfOwner => exact hne (hacts.trans hby)
    case atomicRequeueJob => exact hne (hacts.trans hby.1)
  cases role with
  | main owner => exact hmain owner hp fun he => hn (.inl (he ▸ rfl))
  | task owner => exact hmain owner hp fun he => hn (.inr (he ▸ rfl))
  | heartbeat host =>
      intro hacts
      cases c <;> simp only [Op.Permits, Cmd.ActsAs, Cmd.ByHeartbeat] at hacts hp
      case releaseJobLockIfOwner => exact hw (hacts ▸ hp)
      case atomicRequeueJob => exact hw (hacts ▸ hp)
  | client =>
      intro hacts
      cases c <;> simp only [Op.Permits, Cmd.ActsAs, Cmd.ByClient] at hacts hp

end Record

-- One command.

section Step

variable {a : World} {pid : Pid} {role : Role} {c : Cmd} {fault : Fault}
  {page : Nat × List String} {answer : Except RedisError c.Answer} {store : Store}

theorem locks_of_held (hinv : Exclusive a) (hp : (Op.redis c).Permits role)
    (hf : fault = .none ∨ fault = .refused) (hexec : c.exec fault page a.store = (answer, store))
    {worker : WorkerId} {id : JobId} (hn : ¬ role.Claims worker)
    (hh : a.history.held worker id) : store.locks id = a.store.locks id :=
  Cmd.locks_exec (hinv.locked worker id hh) hinv.wellLocked
    (not_actsAs hp hn (hinv.named worker (hinv.alive worker id hh))) hf hexec

-- A command of the worker's own processes leaves locked what it leaves held.
theorem locked_noteClaims {me : WorkerId} (hinv : Exclusive a) (hby : c.ByWorker me)
    (hme : ∀ worker, role.Claims worker ↔ worker = me) (halive : (a.mem me).alive)
    (hf : fault = .none ∨ fault = .refused) (hexec : c.exec fault page a.store = (answer, store))
    {worker : WorkerId} {id : JobId} (hh : (a.history.noteClaims role c answer).held worker id) :
    store.lock id = some (.owner worker) ∧ (a.mem worker).alive := by
  have hold : a.history.held worker id → ¬ c.ActsAs worker →
      store.lock id = some (.owner worker) ∧ (a.mem worker).alive := by
    intro hheld hacts
    have hlock := hinv.locked worker id hheld
    have hsame := Cmd.locks_exec hlock hinv.wellLocked hacts hf hexec
    exact ⟨(lock_congr hsame).trans hlock, hinv.alive worker id hheld⟩
  -- a command that gives up a lock in the name of the worker leaves the other locks alone
  have hother : ∀ other, (∀ target, c.concerns target → target = other) → id ≠ other →
      a.history.held worker id → store.lock id = some (.owner worker) ∧ (a.mem worker).alive := by
    intro other hc hne hheld
    have hsame := Cmd.sameJob_exec id (fun target ht => hc target ht ▸ hne) fault page a.store
    rw [hexec] at hsame
    exact ⟨(lock_congr hsame.lock).trans (hinv.locked worker id hheld),
      hinv.alive worker id hheld⟩
  cases c
  case atomicClaimReadyJobs args =>
    obtain rfl : args.workerId = me := hby
    have hclaims := Cmd.atomicClaimReadyJobs_inv hf hexec
    cases answer with
    | error error => exact hold hh fun he => he
    | ok claimed =>
        simp only [History.noteClaims, History.claim] at hh
        split_ifs at hh with hmine
        · obtain ⟨rfl, hid⟩ := hmine
          obtain ⟨ids, -, -, hclaims, hanswer⟩ := hclaims
          obtain rfl := hanswer claimed rfl
          exact ⟨(hclaims.taken id hid).lock, halive⟩
        · exact hold hh fun he => he
  case refreshJobLockTimeout other owner ms =>
    have hheld : a.history.held worker id := hh
    rw [Cmd.lock_refreshJobLockTimeout hf hexec]
    exact ⟨hinv.locked worker id hheld, hinv.alive worker id hheld⟩
  case releaseJobLockIfOwner other owner =>
    obtain rfl : owner = me := hby
    simp only [History.noteClaims, if_pos ((hme owner).mpr rfl)] at hh
    obtain ⟨hheld, hkept⟩ := held_release.mp hh
    by_cases hne : id = other
    · subst hne
      by_cases hw : worker = owner
      · subst hw
        cases answer with
        | ok released => exact absurd ⟨rfl, rfl, rfl⟩ hkept
        | error error =>
            obtain ⟨rfl, -⟩ := Cmd.releaseJobLockIfOwner_error (hinv.wellLocked id) hf hexec
            exact ⟨hinv.locked worker id hheld, hinv.alive worker id hheld⟩
      · exact hold hheld hw
    · exact hother other (fun _ ht => ht) hne hheld
  case atomicRequeueJob args =>
    obtain ⟨hme', -⟩ : args.releasingOwner = me ∧ args.activeWorkerId = some me := hby
    simp only [History.noteClaims, if_pos ((hme _).mpr hme')] at hh
    obtain ⟨hheld, hkept⟩ := held_release.mp hh
    by_cases hne : id = args.id
    · by_cases hw : worker = args.releasingOwner
      · rcases Cmd.atomicRequeueJob_inv (hinv.wellLocked _) hf hexec with
          ⟨-, n, rfl, hpos⟩ | ⟨rfl, -⟩
        · refine absurd ⟨?_, hw, hne⟩ hkept
          simpa [Except.toOption] using hpos
        · exact ⟨hinv.locked worker id hheld, hinv.alive worker id hheld⟩
      · exact hold hheld hw
    · exact hother args.id (fun _ ht => ht) hne hheld
  case removeActiveJob =>
    refine hold ?_ fun he => he
    simp only [History.noteClaims] at hh
    split_ifs at hh <;> exact hh
  all_goals first | exact hby.elim | exact hold hh fun he => he

-- A command of any process keeps the exclusion, and what others hold.
theorem exclusive_redis {w : World} {chance : Chance} (hinv : Exclusive w)
    (hp : (Op.redis c).Permits role) (halive : HostAlive role w)
    (hf : chance.fault = .none ∨ chance.fault = .refused)
    (hexec : c.exec chance.fault chance.page w.store = (answer, store)) :
    Exclusive { w with store, history := w.history.note pid role c answer } ∧
      LeavesHeld role w { w with store, history := w.history.note pid role c answer } := by
  have hwell := Cmd.frame_exec frame_wellLocked (c := c) (fun _ _ => trivial)
    (fun _ _ => trivial) chance.fault chance.page w.store
  rw [hexec] at hwell
  have hlocked : ∀ worker id, (w.history.note pid role c answer).held worker id →
      store.lock id = some (.owner worker) ∧ (w.mem worker).alive := by
    intro worker id hh
    have hkept : ¬ role.Claims worker → w.history.held worker id →
        store.lock id = some (.owner worker) ∧ (w.mem worker).alive := by
      intro hn hheld
      have hsame := locks_of_held hinv hp hf hexec hn hheld
      exact ⟨(lock_congr hsame).trans (hinv.locked worker id hheld),
        hinv.alive worker id hheld⟩
    cases role with
    | main owner =>
        exact locked_noteClaims hinv hp (by simp [Role.Claims, eq_comm]) (halive owner rfl) hf
          hexec hh
    | task owner =>
        exact locked_noteClaims hinv hp (by simp [Role.Claims, eq_comm]) (halive owner rfl) hf
          hexec hh
    | heartbeat host =>
        refine hkept (by simp [Role.Claims]) ?_
        have hsame : (w.history.noteSweep pid host c answer).held = w.history.held :=
          held_noteSweep answer
        exact congrFun₂ hsame worker id ▸ hh
    | client =>
        refine hkept (by simp [Role.Claims]) ?_
        cases c <;> first | exact hp.elim | exact hh
  refine ⟨⟨fun id => hwell id (hinv.wellLocked id), fun worker id hh => (hlocked worker id hh).1,
    fun worker id hh => (hlocked worker id hh).2, hinv.named⟩, ⟨fun _ => id, ?_, ?_⟩⟩
  · exact fun worker id hn hh => held_note hp hn hh
  · exact fun worker id hn hh => locks_of_held hinv hp hf hexec hn hh

end Step

-- The other operations touch no store and no record of who holds what.
theorem world_exec_local {pid : Pid} {role : Role} {op : Op} {chance : Chance} {w after : World}
    {reply : op.Reply} (hop : ∀ c, op ≠ .redis c)
    (h : World.exec pid role op chance w = (reply, after)) :
    after.store = w.store ∧ after.history.held = w.history.held ∧
      ∀ worker, (after.mem worker).alive = (w.mem worker).alive := by
  have hmem : ∀ owner (update : Memory → Memory), (∀ m, (update m).alive = m.alive) →
      ∀ worker, ((w.setMem owner update).mem worker).alive = (w.mem worker).alive := by
    intro owner update hu worker
    by_cases hw : worker = owner
    · subst hw
      simp [World.setMem, hu]
    · simp [World.setMem, hw]
  cases op <;> obtain ⟨-, rfl⟩ := Prod.mk.injEq .. ▸ h
  case redis c => exact absurd rfl (hop c)
  all_goals first
    | exact ⟨rfl, rfl, fun _ => rfl⟩
    | exact ⟨rfl, rfl, hmem _ _ fun _ => rfl⟩

theorem alive_exec {pid : Pid} {role : Role} {op : Op} {chance : Chance} {w : World}
    (worker : WorkerId) :
    ((World.exec pid role op chance w).2.mem worker).alive = (w.mem worker).alive := by
  by_cases hop : ∃ c, op = .redis c
  · obtain ⟨c, rfl⟩ := hop
    rfl
  · obtain ⟨-, -, hm⟩ := world_exec_local (fun c hc => hop ⟨c, hc⟩)
      (rfl : World.exec pid role op chance w = _)
    exact hm worker

theorem exclusive_exec {pid : Pid} {role : Role} {op : Op} {chance : Chance} {w after : World}
    {reply : op.Reply} (hinv : Exclusive w) (hp : op.Permits role) (halive : HostAlive role w)
    (hf : chance.fault = .none ∨ chance.fault = .refused)
    (h : World.exec pid role op chance w = (reply, after)) :
    Exclusive after ∧ LeavesHeld role w after ∧ op.Possible reply := by
  by_cases hop : ∃ c, op = .redis c
  · obtain ⟨c, rfl⟩ := hop
    cases hexec : c.exec chance.fault chance.page w.store with
    | mk answer store =>
    obtain ⟨rfl, rfl⟩ : answer = reply ∧
        { w with store, history := w.history.note pid role c answer } = after := by
      simp only [World.exec, hexec, Prod.mk.injEq] at h
      exact h
    obtain ⟨he, hl⟩ := exclusive_redis hinv hp halive hf hexec
    refine ⟨he, hl, ?_⟩
    cases c <;> try trivial
    case releaseJobLockIfOwner id owner =>
      rintro rfl
      have hfailed := Cmd.releaseJobLockIfOwner_error (hinv.wellLocked id) hf hexec
      cases hfailed.2
  · obtain ⟨hs, hh, hm⟩ := world_exec_local (fun c hc => hop ⟨c, hc⟩) h
    refine ⟨⟨?_, ?_, ?_, ?_⟩, ⟨?_, ?_, ?_⟩, ?_⟩
    · exact hs ▸ hinv.wellLocked
    · exact fun worker id hheld => hs ▸ hinv.locked worker id (hh ▸ hheld)
    · exact fun worker id hheld => (hm worker).symm ▸ hinv.alive worker id (hh ▸ hheld)
    · exact fun worker halive => hinv.named worker (hm worker ▸ halive)
    · exact fun worker ha => (hm worker).symm ▸ ha
    · exact fun worker id _ hheld => hh.symm ▸ hheld
    · exact fun worker id _ _ => hs ▸ rfl
    · cases op <;> first | trivial | exact absurd ⟨_, rfl⟩ hop

-- The argument over all processes.
def exclusion : Machine.Argument system lockAssume where
  inv := Exclusive
  rely _ role a b := HostAlive role a → HostAlive role b
  guar _ role := LeavesHeld role
  begins _ role op _ w := op.Permits role ∧ HostAlive role w
  rely_refl _ _ _ h := h
  rely_trans _ _ _ _ _ hab hbc h := hbc (hab h)
  rely_of_guar _ _ _ _ _ _ _ _ _ hg h := fun worker hw => hg.alive worker (h worker hw)

theorem exclusion_safe {pid : Pid} {role : Role} {prog : Proc Unit} {w : World}
    (hp : Issuing role prog) (halive : HostAlive role w) : exclusion.Safe pid role prog w := by
  refine Discipline.safe_of_issues (d := exclusion.discipline pid role) (HostAlive role)
    (fun _ _ => trivial) (fun a b ha hr => hr ha) ?_ hp halive
  intro op chance before reply after hop hbefore hstep
  obtain ⟨hinv, hf, hexec⟩ := hstep
  obtain ⟨he, hl, hposs⟩ := exclusive_exec hinv hop hbefore hf hexec
  have hafter : HostAlive role after := fun worker hw => hl.alive worker (hbefore worker hw)
  exact ⟨he, hl, ⟨hop, hafter⟩, hposs, hafter⟩

section Surroundings

variable {event : EnvEvent} {w after : World}

theorem alive_setMem {owner worker : WorkerId} {update : Memory → Memory}
    (hu : (update (w.mem owner)).alive = true) (h : (w.mem worker).alive) :
    ((w.setMem owner update).mem worker).alive := by
  by_cases hw : worker = owner
  · subst hw
    simpa [World.setMem] using hu
  · simpa [World.setMem, hw] using h

theorem lock_advance {s : Store} {id : JobId} {now : Int} {cell : LockCell}
    (h : (s.advance now).lock id = some cell) : s.lock id = some cell := by
  simp only [advance, lock, Option.map_eq_some_iff, Option.filter_eq_some_iff] at h ⊢
  obtain ⟨found, ⟨hfound, -⟩, hcell⟩ := h
  exact ⟨found, hfound, hcell⟩

theorem exclusive_move (hinv : Exclusive w) (hm : w.move event = some after)
    (ha : lockAssume.env event w after) : Exclusive after := by
  cases event with
  | advance now =>
      simp only [World.move, Option.ite_none_right_eq_some, Option.some.injEq] at hm
      obtain ⟨-, rfl⟩ := hm
      refine ⟨fun id hl => hinv.wellLocked id (lock_advance hl), fun worker id hh => ?_,
        hinv.alive, hinv.named⟩
      have hlock := hinv.locked worker id hh
      obtain ⟨cell, hcell, hvalue⟩ := Option.map_eq_some_iff.mp hlock
      have hlive := ha worker id cell (hinv.alive worker id hh) hcell hvalue
      simp [advance, lock, hcell, hlive, hvalue]
  | start pid self fuel =>
      simp only [World.move, Option.ite_none_left_eq_some, Option.some.injEq] at hm
      obtain ⟨hdead, rfl⟩ := hm
      refine ⟨hinv.wellLocked, hinv.locked, fun worker id hh => ?_, fun worker halive => ?_⟩
      · exact alive_setMem rfl (hinv.alive worker id hh)
      · by_cases hw : worker = self.workerId
        · exact hw ▸ ha
        · exact hinv.named worker (by simpa [World.setMem, hw] using halive)
  | crash owner =>
      simp only [World.move, Option.ite_none_right_eq_some, Option.some.injEq] at hm
      obtain ⟨-, rfl⟩ := hm
      have hother : ∀ worker id, (w.history.crash owner).held worker id →
          worker ≠ owner ∧ w.history.held worker id := by
        intro worker id hh
        simp only [History.crash] at hh
        split_ifs at hh with hw
        exact ⟨hw, hh⟩
      refine ⟨hinv.wellLocked, fun worker id hh => ?_, fun worker id hh => ?_, ?_⟩
      · exact hinv.locked worker id (hother worker id hh).2
      · obtain ⟨hw, hheld⟩ := hother worker id hh
        simpa [World.setMem, hw] using hinv.alive worker id hheld
      · intro worker halive
        by_cases hw : worker = owner
        · subst hw
          simp [World.setMem] at halive
        · exact hinv.named worker (by simpa [World.setMem, hw] using halive)
  | kill worker task =>
      simp only [World.move, Option.ite_none_right_eq_some, Option.some.injEq] at hm
      exact hm.2 ▸ hinv
  | requestShutdown owner =>
      simp only [World.move, Option.ite_none_right_eq_some, Option.some.injEq] at hm
      obtain ⟨howner, rfl⟩ := hm
      refine ⟨hinv.wellLocked, hinv.locked, fun worker id hh => ?_, fun worker halive => ?_⟩
      · exact alive_setMem (by simpa using howner) (hinv.alive worker id hh)
      · by_cases hw : worker = owner
        · exact hinv.named worker (hw ▸ howner)
        · exact hinv.named worker (by simpa [World.setMem, hw] using halive)
  | call pid request =>
      obtain rfl := Option.some.inj hm
      exact hinv

theorem hostAlive_move {pid : Pid} {role : Role} (hm : w.move event = some after)
    (hs : event.stops pid role = false) (halive : HostAlive role w) : HostAlive role after := by
  intro worker hw
  have hbefore := halive worker hw
  cases event with
  | advance now =>
      simp only [World.move, Option.ite_none_right_eq_some, Option.some.injEq] at hm
      exact hm.2 ▸ hbefore
  | start pid self fuel =>
      simp only [World.move, Option.ite_none_left_eq_some, Option.some.injEq] at hm
      exact hm.2 ▸ alive_setMem rfl hbefore
  | crash owner =>
      simp only [World.move, Option.ite_none_right_eq_some, Option.some.injEq] at hm
      obtain ⟨-, rfl⟩ := hm
      have hne : worker ≠ owner := by
        rintro rfl
        simp [EnvEvent.stops, hw] at hs
      simpa [World.setMem, hne] using hbefore
  | kill worker task =>
      simp only [World.move, Option.ite_none_right_eq_some, Option.some.injEq] at hm
      exact hm.2 ▸ hbefore
  | requestShutdown owner =>
      simp only [World.move, Option.ite_none_right_eq_some, Option.some.injEq] at hm
      exact hm.2 ▸ alive_setMem (by simpa using hm.1) hbefore
  | call pid request =>
      obtain rfl := Option.some.inj hm
      exact hbefore

end Surroundings

-- A process and what it starts live in the same worker.
theorem fork_host {op : Op} {reply : op.Reply} {child : Pid} {role other : Role} {prog : Proc Unit}
    (hp : op.Permits role) (h : op.fork reply = some (child, other, prog)) {owner : WorkerId}
    (ho : other.host = some owner) : role.host = some owner := by
  cases op <;> simp only [Op.fork, Option.some.injEq, Prod.mk.injEq, reduceCtorEq] at h
  all_goals
    obtain ⟨-, rfl, -⟩ := h
    obtain rfl := Option.some.inj ho
    cases role <;> first | exact hp.elim | exact congrArg some (Eq.symm hp)

theorem spawn_hostAlive {event : EnvEvent} {w after : World} {child : Pid} {role : Role}
    {prog : Proc Unit} (hm : w.move event = some after)
    (h : event.spawn = some (child, role, prog)) : HostAlive role after := by
  intro worker hw
  cases event <;> simp only [EnvEvent.spawn, Option.some.injEq, Prod.mk.injEq, reduceCtorEq] at h
  case start pid self fuel =>
    obtain ⟨-, rfl, -⟩ := h
    obtain rfl := Option.some.inj hw
    simp only [World.move, Option.ite_none_left_eq_some, Option.some.injEq] at hm
    simp [← hm.2, World.setMem]
  case call =>
    obtain ⟨-, rfl, -⟩ := h
    cases hw

theorem exclusion_sound : exclusion.Sound where
  forks pid role op reply w child other prog _ hb hfork := by
    obtain ⟨hp, halive⟩ := hb
    exact exclusion_safe (fork_issues hfork) fun owner ho => halive owner (fork_host hp hfork ho)
  moves _ _ _ hinv hm ha := exclusive_move hinv hm ha
  survives _ _ _ _ _ _ hm _ hs halive := hostAlive_move hm hs halive
  spawns event w after child role prog _ hm _ hspawn :=
    exclusion_safe (spawn_issues hspawn) (spawn_hostAlive hm hspawn)

theorem exclusion_start : exclusion.Holds System.start where
  left := ⟨nofun, nofun, nofun, nofun⟩
  right := nofun

-- At most one worker is between its claim of a job and the release of the job's lock, the lock
-- names it, and no other process touches that lock.
theorem claims_exclusive {sys : System} (hr : Machine.Reach system lockAssume System.start sys) :
    (∀ first second id, sys.state.history.held first id → sys.state.history.held second id →
      first = second) ∧
    (∀ worker id, sys.state.history.held worker id →
      sys.state.store.lock id = some (.owner worker)) ∧
    ∀ pid chance after role prog, system.Admitted lockAssume sys (.run pid chance) →
      system.step sys (.run pid chance) = some after → sys.procs pid = some (role, prog) →
      ∀ worker id, sys.state.history.held worker id → ¬ role.Claims worker →
        after.state.history.held worker id ∧
          after.state.store.locks id = sys.state.store.locks id := by
  have hholds := Machine.Argument.holds_reach exclusion_sound exclusion_start hr
  have hlocked := hholds.1.locked
  refine ⟨fun first second id hf hs => ?_, hlocked, ?_⟩
  · have hsame := (hlocked first id hf).symm.trans (hlocked second id hs)
    simpa using hsame
  · intro pid chance after role prog ha hs hp worker id hh hn
    obtain ⟨-, other, code, hcode, hg⟩ := Machine.Argument.step_run exclusion_sound hholds ha hs
    obtain ⟨rfl, -⟩ : other = role ∧ code = prog := by
      rw [hp] at hcode
      simpa [eq_comm] using hcode
    exact ⟨hg.held worker id hn hh, hg.locks worker id hn hh⟩

-- Operations that happen whole, requests and starts of proper workers are always admitted.
theorem admitted_claimRun : ∀ label ∈ claimRun, ∀ sys, system.Admitted lockAssume sys label := by
  intro label hlabel sys
  simp only [claimRun, List.replicate, List.cons_append, List.nil_append, List.mem_cons,
    List.not_mem_nil, or_false] at hlabel
  rcases hlabel with rfl | rfl | rfl | rfl | rfl | rfl | rfl | rfl | rfl | rfl
  case inr.inr.inl =>
    intro state _ hrecovery
    exact absurd hrecovery (by decide)
  all_goals first
    | exact fun _ _ _ _ => .inl rfl
    | exact fun _ _ => trivial

theorem claims_exclusive_claimRun : ∃ sys, Machine.Reach system lockAssume System.start sys ∧
    sys.state.history.held "w0" "j" ∧ sys.state.store.lock "j" = some (.owner "w0") := by
  have hrun : (system.steps claimRun System.start).map
      (fun sys => sys.state.history.held "w0" "j") = some true := by decide +kernel
  obtain ⟨sys, hr, hheld⟩ := Machine.exists_reach .start admitted_claimRun hrun
  exact ⟨sys, hr, hheld, (claims_exclusive hr).2.1 "w0" "j" hheld⟩

end Rrq
