import Rrq.Concurrent.Pool
import Rrq.Store.Unique
import Rrq.Worker.Cron.Theorems

-- The cron loops of many workers, and the unique lock that their entries share.

namespace Rrq

open Store

-- What has become of one unique key, while its lock does not expire and no job is executed.
structure Tick where
  world : World
  -- The processes inside a call of their client, and those that have found the lock held since
  -- they turned to their current entry.
  calling : Pid → Bool := fun _ => false
  sawHeld : Pid → Bool := fun _ => false
  -- The process that has taken the lock and not yet enqueued its job.
  holder : Option Pid := none
  -- The jobs that came into a queue under the key, and those of them whose process had found
  -- the lock held.
  entered : List JobId := []
  behind : List JobId := []

namespace Tick

def store (t : Tick) : Store := t.world.store

def Held (key : String) (t : Tick) : Prop := (t.store.uniqueLocks key).isSome

def turns (t : Tick) (pid : Pid) : Tick :=
  { t with
    calling := Function.update t.calling pid false
    sawHeld := Function.update t.sawHeld pid false }

def calls (t : Tick) (pid : Pid) : Tick := { t with calling := Function.update t.calling pid true }

def finds (t : Tick) (pid : Pid) : Tick := { t with sawHeld := Function.update t.sawHeld pid true }

def leaves (t : Tick) (pid : Pid) : Tick :=
  { t with holder := if t.holder = some pid then none else t.holder }

def enters (t : Tick) (pid : Pid) (id : JobId) : Tick :=
  { t.leaves pid with
    entered := id :: t.entered
    behind := if t.sawHeld pid then id :: t.behind else t.behind }

-- A process turns to an entry when it looks whether it is to shut down, and it is inside its
-- client from the moment that the client makes up the id of the job.
def note (key : String) (t : Tick) (pid : Pid) : (op : Op) → op.Reply → Tick
  | .shutdownRequested _, _ => t.turns pid
  | .newId, _ => t.calls pid
  | .redis (.getLockTtl asked), .ok remaining =>
      if asked = key ∧ 0 < remaining then t.finds pid else t
  | .redis (.acquireUniqueJobLock asked _ _), .ok true =>
      if asked = key then { t with holder := some pid } else t
  | .redis (.acquireUniqueJobLock asked _ _), .ok false => if asked = key then t.finds pid else t
  | .redis (.atomicEnqueueJob id _ mapping _), .ok true =>
      if mapping.jobUniqueKey = some key then t.enters pid id else t
  | .redis (.releaseUniqueJobLock asked), _ => if asked = key then t.leaves pid else t
  | _, _ => t

end Tick

inductive CronEvent where
  | advance (now : Int)
  | start (pid : Pid) (parse : String → Option Schedule) (settings : RRQSettings)
      (worker : WorkerId) (fuel : Nat) (jobs : List CronJob)
  | stop (pid : Pid)

def cronProgram (parse : String → Option Schedule) (settings : RRQSettings) (worker : WorkerId)
    (fuel : Nat) (jobs : List CronJob) : Proc Unit := do
  let _ ← CronLoop.cronLoop parse settings worker fuel jobs
  pure ()

def cronLoops (key : String) : Machine Op Op.Reply Chance Tick Pid Unit CronEvent where
  exec pid _ op chance t :=
    let (reply, world) := World.exec pid .client op chance t.world
    (reply, { t with world }.note key pid op reply)
  fork _ _ _ _ := none
  move event t :=
    match event with
    | .advance now =>
        if t.store.now ≤ now then
          some { t with world := { t.world with store := t.store.advance now } }
        else none
    | .start _ _ _ _ _ _ => some t
    | .stop _ => some t
  stops event pid _ :=
    match event with
    | .stop stopped => pid = stopped
    | _ => false
  spawn
    | .start pid parse settings worker fuel jobs =>
        some (pid, (), cronProgram parse settings worker fuel jobs)
    | _ => none

-- The lock does not expire.
def sameTick (key : String) : Machine.Assume Op Chance Tick Pid Unit CronEvent where
  run _ _ _ _ _ := True
  env event t _ :=
    match event with
    | .advance now => ∀ cell ∈ t.store.uniqueLocks key, cell.liveAt now
    | _ => True

-- Besides, the lock is free whenever a client looks it up or tries to take it.
def undisturbed (key : String) : Machine.Assume Op Chance Tick Pid Unit CronEvent where
  run pid _ op _ t :=
    match op with
    | .redis (.getLockTtl asked) => asked = key → t.calling pid → ¬ t.Held key
    | .redis (.acquireUniqueJobLock asked _ _) => asked = key → ¬ t.Held key
    | _ => True
  env := (sameTick key).env

namespace Tick

-- At most one job has come into a queue, and none before a process has taken the lock, which
-- stays held from then on unless that process gives it back.
structure Single (key : String) (t : Tick) : Prop where
  entered : t.entered.length ≤ 1
  behind : t.behind = []
  held_of_entered : t.entered ≠ [] → t.Held key ∧ t.holder = none
  held_of_holder : t.holder ≠ none → t.Held key ∧ t.entered = []

-- What the others leave alone of a process.
structure Spares (pid : Pid) (t u : Tick) : Prop where
  calling : u.calling pid = t.calling pid
  sawHeld : u.sawHeld pid = t.sawHeld pid
  holder : t.holder = some pid → u.holder = some pid

theorem Spares.refl (pid : Pid) (t : Tick) : Spares pid t t := ⟨rfl, rfl, fun h => h⟩

theorem Spares.trans {pid : Pid} {t u v : Tick} (htu : Spares pid t u) (huv : Spares pid u v) :
    Spares pid t v :=
  ⟨huv.calling.trans htu.calling, huv.sawHeld.trans htu.sawHeld,
    fun h => huv.holder (htu.holder h)⟩

-- What a process may issue. A job is enqueued under the key only by the process that has taken
-- the lock and has not found it held, and only that process gives the lock back.
def Allows (key : String) (pid : Pid) (t : Tick) : Op → Prop
  | .redis (.getLockTtl _) => True
  | .redis (.acquireUniqueJobLock _ _ _) => True
  | .redis (.atomicEnqueueJob _ _ mapping _) =>
      mapping.jobUniqueKey = some key → t.holder = some pid ∧ t.sawHeld pid = false
  | .redis (.releaseUniqueJobLock asked) => asked = key → t.holder = some pid
  | .redis _ => False
  | _ => True

section Steps

variable {key : String} {pid : Pid} {t u : Tick}

-- What a process notes about itself alone.
structure Aside (key : String) (pid : Pid) (t u : Tick) : Prop where
  locks : u.Held key ↔ t.Held key
  holder : u.holder = t.holder
  entered : u.entered = t.entered
  behind : u.behind = t.behind
  calling : ∀ other, other ≠ pid → u.calling other = t.calling other
  sawHeld : ∀ other, other ≠ pid → u.sawHeld other = t.sawHeld other

theorem Aside.single (h : Aside key pid t u) (ht : t.Single key) : u.Single key where
  entered := h.entered ▸ ht.entered
  behind := h.behind ▸ ht.behind
  held_of_entered hne := by
    rw [h.entered] at hne
    rw [h.holder, h.locks]
    exact ht.held_of_entered hne
  held_of_holder hne := by
    rw [h.holder] at hne
    rw [h.entered, h.locks]
    exact ht.held_of_holder hne

theorem Aside.spares (h : Aside key pid t u) {other : Pid} (ho : other ≠ pid) :
    Spares other t u :=
  ⟨h.calling other ho, h.sawHeld other ho, fun hold => h.holder ▸ hold⟩

theorem aside_world {world : World} (hl : world.store.uniqueLocks key = t.store.uniqueLocks key) :
    Aside key pid t { t with world } := by
  refine ⟨?_, rfl, rfl, rfl, fun _ _ => rfl, fun _ _ => rfl⟩
  show (world.store.uniqueLocks key).isSome ↔ _
  rw [hl]
  rfl

theorem aside_finds : Aside key pid t (t.finds pid) where
  locks := .rfl
  holder := rfl
  entered := rfl
  behind := rfl
  calling _ _ := rfl
  sawHeld _ ho := Function.update_of_ne ho _ _

theorem aside_calls : Aside key pid t (t.calls pid) where
  locks := .rfl
  holder := rfl
  entered := rfl
  behind := rfl
  calling _ ho := Function.update_of_ne ho _ _
  sawHeld _ _ := rfl

theorem aside_turns : Aside key pid t (t.turns pid) where
  locks := .rfl
  holder := rfl
  entered := rfl
  behind := rfl
  calling _ ho := Function.update_of_ne ho _ _
  sawHeld _ ho := Function.update_of_ne ho _ _

theorem Aside.trans {v : Tick} (htu : Aside key pid t u) (huv : Aside key pid u v) :
    Aside key pid t v where
  locks := huv.locks.trans htu.locks
  holder := huv.holder.trans htu.holder
  entered := huv.entered.trans htu.entered
  behind := huv.behind.trans htu.behind
  calling other ho := (huv.calling other ho).trans (htu.calling other ho)
  sawHeld other ho := (huv.sawHeld other ho).trans (htu.sawHeld other ho)

-- The three notes that are not about the process alone.

theorem single_takes {world : World} (ht : t.Single key) (hfree : ¬ t.Held key)
    (hheld : (world.store.uniqueLocks key).isSome) :
    Single key { t with world, holder := some pid } ∧
      ∀ other, other ≠ pid → Spares other t { t with world, holder := some pid } := by
  have hentered : t.entered = [] := by
    by_contra hne
    exact hfree (ht.held_of_entered hne).1
  have hholder : t.holder = none := by
    by_contra hne
    exact hfree (ht.held_of_holder hne).1
  refine ⟨⟨ht.entered, ht.behind, fun hne => absurd hentered hne, fun _ => ⟨hheld, hentered⟩⟩, ?_⟩
  intro other _
  refine ⟨rfl, rfl, fun hold => ?_⟩
  rw [hholder] at hold
  cases hold

theorem single_enters {world : World}
    (hl : world.store.uniqueLocks key = t.store.uniqueLocks key) (ht : t.Single key)
    (hholder : t.holder = some pid) (hsaw : t.sawHeld pid = false) (id : JobId) :
    (enters { t with world } pid id).Single key ∧
      ∀ other, other ≠ pid → Spares other t (enters { t with world } pid id) := by
  obtain ⟨hheld, hentered⟩ := ht.held_of_holder (by simp [hholder])
  refine ⟨⟨?_, ?_, fun _ => ⟨?_, ?_⟩, fun hne => ?_⟩, fun other ho => ⟨rfl, rfl, fun hold => ?_⟩⟩
  · simp [enters, hentered]
  · simp [enters, hsaw, ht.behind]
  · show (world.store.uniqueLocks key).isSome
    rw [hl]
    exact hheld
  · simp [enters, leaves, hholder]
  · exact absurd (by simp [enters, leaves, hholder]) hne
  · rw [hholder] at hold
    exact absurd (Option.some.inj hold).symm ho

theorem single_leaves {world : World} (ht : t.Single key) (hholder : t.holder = some pid) :
    (leaves { t with world } pid).Single key ∧
      ∀ other, other ≠ pid → Spares other t (leaves { t with world } pid) := by
  obtain ⟨hheld, hentered⟩ := ht.held_of_holder (by simp [hholder])
  refine ⟨⟨ht.entered, ht.behind, fun hne => absurd hentered hne, fun hne => ?_⟩,
    fun other ho => ⟨rfl, rfl, fun hold => ?_⟩⟩
  · exact absurd (by simp [leaves, hholder]) hne
  · rw [hholder] at hold
    exact absurd (Option.some.inj hold).symm ho

theorem Aside.keeps (h : Aside key pid t u) (ht : t.Single key) :
    u.Single key ∧ ∀ other, other ≠ pid → Spares other t u :=
  ⟨h.single ht, fun _ ho => h.spares ho⟩

-- One operation that the process may issue.
theorem single_exec {op : Op} {chance : Chance} (ht : t.Single key) (ha : t.Allows key pid op)
    (hadmits : (undisturbed key).run pid () op chance t) :
    ((cronLoops key).exec pid () op chance t).2.Single key ∧
      ∀ other, other ≠ pid → Spares other t ((cronLoops key).exec pid () op chance t).2 := by
  cases op
  case redis c =>
    cases hexec : c.exec chance.fault chance.page t.world.store with
    | mk answer store =>
    have hsame : (∀ kind ∈ c.kinds, kind ≠ .unique) → store.uniqueLocks = t.store.uniqueLocks := by
      intro hk
      exact Cmd.frame_of_exec frame_sameUnique hk hexec
    simp only [cronLoops, World.exec, hexec]
    cases c
    case getLockTtl asked =>
      have hworld := congrFun (hsame (by simp [Cmd.kinds])) key
      cases answer with
      | error error => exact (aside_world hworld).keeps ht
      | ok remaining =>
          simp only [note]
          split_ifs
          · exact ((aside_world hworld).trans aside_finds).keeps ht
          · exact (aside_world hworld).keeps ht
    case acquireUniqueJobLock asked id ttl =>
      cases answer with
      | error error =>
          obtain rfl := Cmd.acquireUniqueJobLock_error hexec
          exact (aside_world rfl).keeps ht
      | ok acquired =>
          obtain ⟨rfl, -, rfl⟩ | ⟨rfl, hfree, rfl⟩ := Cmd.acquireUniqueJobLock_inv hexec
          · simp only [note]
            split_ifs
            · exact ((aside_world rfl).trans aside_finds).keeps ht
            · exact (aside_world rfl).keeps ht
          · simp only [note]
            split_ifs with hasked
            · subst hasked
              exact single_takes ht (hadmits rfl) (by simp)
            · exact (aside_world (by simp [Ne.symm hasked, Tick.store])).keeps ht
    case atomicEnqueueJob id queue mapping score =>
      have hworld := congrFun (hsame (by simp [Cmd.kinds])) key
      cases answer with
      | error error => exact (aside_world hworld).keeps ht
      | ok enqueued =>
      cases enqueued with
      | false => exact (aside_world hworld).keeps ht
      | true =>
          simp only [note]
          split_ifs with hmapping
          · obtain ⟨hholder, hsaw⟩ := ha hmapping
            exact single_enters hworld ht hholder hsaw id
          · exact (aside_world hworld).keeps ht
    case releaseUniqueJobLock asked =>
      simp only [note]
      split_ifs with hasked
      · exact single_leaves ht (ha hasked)
      · have hother := Cmd.releaseUniqueJobLock_other (Ne.symm hasked) chance.fault chance.page
          t.world.store
        rw [hexec] at hother
        exact (aside_world hother).keeps ht
    all_goals exact ha.elim
  case shutdownRequested worker => exact aside_turns.keeps ht
  case newId => exact aside_calls.keeps ht
  all_goals exact Aside.keeps ⟨.rfl, rfl, rfl, rfl, fun _ _ => rfl, fun _ _ => rfl⟩ ht

end Steps

end Tick

def singleArgument (key : String) : Machine.Argument (cronLoops key) (undisturbed key) where
  inv := Tick.Single key
  rely pid _ := Tick.Spares pid
  guar pid _ t u := ∀ other, other ≠ pid → Tick.Spares other t u
  begins _ _ _ _ _ := True
  rely_refl pid _ := .refl pid
  rely_trans _ _ _ _ _ := Tick.Spares.trans
  rely_of_guar _ q _ _ _ _ hne _ _ h := h q (Ne.symm hne)

abbrev TickSafe {α : Type} (key : String) (pid : Pid) (post : α → Tick → Prop) (prog : Proc α)
    (t : Tick) : Prop := ((singleArgument key).discipline pid ()).Safe post prog t

namespace TickSafe

open Tick

variable {α β : Type} {key : String} {pid : Pid} {post : α → Tick → Prop} {t : Tick}

theorem call {op : Op} {next : op.Reply → Proc α}
    (ha : ∀ before, Spares pid t before → before.Allows key pid op)
    (h : ∀ before chance, Spares pid t before → (undisturbed key).run pid () op chance before →
      TickSafe key pid post (next ((cronLoops key).exec pid () op chance before).1)
        ((cronLoops key).exec pid () op chance before).2) :
    TickSafe key pid post (perform op >>= next) t := by
  intro before hrely chance reply after hstep
  obtain ⟨hinv, hadmits, hexec⟩ := hstep
  obtain ⟨hsingle, hspares⟩ := single_exec hinv (ha before hrely) hadmits
  have hnext := h before chance hrely hadmits
  obtain ⟨rfl, rfl⟩ := Prod.mk.injEq .. ▸ hexec
  exact ⟨hsingle, hspares, trivial, hnext⟩

theorem redis {c : Cmd} {next : Except RedisError c.Answer → Proc α}
    (ha : ∀ before, Spares pid t before → before.Allows key pid (.redis c))
    (h : ∀ before fault page answer world, Spares pid t before →
      (undisturbed key).run pid () (.redis c) { fault, page } before →
      c.exec fault page before.store = (answer, world.store) →
      TickSafe key pid post (next answer) (note key { before with world } pid (.redis c) answer)) :
    TickSafe key pid post (Rrq.redis c >>= next) t := by
  apply call ha
  intro before chance hrely hadmits
  apply h before chance.fault chance.page _ _ hrely hadmits
  rfl

theorem ret {value : α} (h : post value t) : TickSafe key pid post (.ret value) t := h

theorem bind {mid : β → Tick → Prop} {prog : Proc β} {rest : β → Proc α}
    (hp : TickSafe key pid mid prog t)
    (hr : ∀ value t, mid value t → TickSafe key pid post (rest value) t) :
    TickSafe key pid post (prog >>= rest) t := Discipline.safe_bind hp hr

theorem mono {weaker : α → Tick → Prop} {prog : Proc α} (hp : TickSafe key pid post prog t)
    (hw : ∀ value t, post value t → weaker value t) : TickSafe key pid weaker prog t :=
  Discipline.safe_mono hp hw

end TickSafe

section Programs

open Tick RRQClient

variable {key : String} {pid : Pid} {t : Tick} {settings : RRQSettings} {worker : WorkerId}

-- A client that looks the lock up or tries to take it finds it free, so that it takes it.
theorem reserve_safe (asked : String) (id : JobId) (enqueueTime runTime : DateTime)
    (lockTtlSeconds : Int)
    (ht : asked = key → t.calling pid = true ∧ t.sawHeld pid = false) :
    TickSafe key pid (fun answer u => ∀ time acquired, answer = .ok (time, acquired) →
        asked = key → acquired = true ∧ u.holder = some pid ∧ u.sawHeld pid = false)
      (reserve asked id enqueueTime runTime lockTtlSeconds) t := by
  apply TickSafe.redis
  · exact fun _ _ => trivial
  intro before fault page answer world hspares hadmits hexec
  have hbefore : asked = key → before.calling pid = true ∧ before.sawHeld pid = false := by
    rw [hspares.calling, hspares.sawHeld]
    exact ht
  match answer with
  | .error error => exact TickSafe.ret fun _ _ h => nomatch h
  | .ok remaining =>
      have hzero : asked = key → remaining = 0 := by
        intro hk
        have hfree := hadmits hk (hbefore hk).1
        apply Cmd.getLockTtl_free _ hexec
        subst hk
        simpa [Held] using hfree
      dsimp only
      split_ifs with hpos
      · refine TickSafe.ret fun _ _ _ hk => ?_
        rw [hzero hk] at hpos
        exact absurd hpos (lt_irrefl 0)
      · apply TickSafe.redis
        · exact fun _ _ => trivial
        intro before₂ fault₂ page₂ answer₂ world₂ hspares₂ hadmits₂ hexec₂
        have hnote : note key { before with world } pid (.redis (.getLockTtl asked))
            (.ok remaining) = { before with world } := if_neg fun h => hpos h.2
        rw [hnote] at hspares₂
        match answer₂ with
        | .error error => exact TickSafe.ret fun _ _ h => nomatch h
        | .ok true =>
            refine TickSafe.ret fun time acquired heq hk => ?_
            obtain ⟨-, rfl⟩ := Prod.mk.injEq .. ▸ Except.ok.inj heq
            have hnote₂ : note key { before₂ with world := world₂ } pid
                (.redis (.acquireUniqueJobLock asked id lockTtlSeconds)) (.ok true) =
                { before₂ with world := world₂, holder := some pid } := if_pos hk
            rw [hnote₂]
            exact ⟨rfl, rfl, hspares₂.sawHeld.trans (hbefore hk).2⟩
        | .ok false =>
            -- The lock was held, so it is another one.
            have hother : asked ≠ key := by
              intro hk
              obtain ⟨-, hheld, -⟩ | ⟨htrue, -⟩ := Cmd.acquireUniqueJobLock_inv hexec₂
              · exact hadmits₂ hk (hk ▸ hheld)
              · cases htrue
            apply TickSafe.redis
            · exact fun _ _ => trivial
            intro before₃ fault₃ page₃ answer₃ world₃ _ _ _
            match answer₃ with
            | .error error => exact TickSafe.ret fun _ _ h => nomatch h
            | .ok again =>
                dsimp only
                split_ifs
                · exact TickSafe.ret fun _ _ _ hk => absurd hk hother
                · exact TickSafe.ret fun _ _ _ hk => absurd hk hother

-- The job is enqueued by the process that holds the lock, or the lock is given back by it.
theorem enqueueJob_safe {options : EnqueueOptions} {job : Job} {uniqueAcquired : Bool}
    (queueName : QueueKey) (runTime : DateTime) (hkey : job.jobUniqueKey = options.uniqueKey)
    (ht : options.uniqueKey = some key → t.holder = some pid ∧ t.sawHeld pid = false) :
    TickSafe key pid (fun _ _ => True) (enqueueJob options job queueName runTime uniqueAcquired)
      t := by
  apply TickSafe.redis
  · intro before hspares hmapping
    have hk : options.uniqueKey = some key := hkey.symm.trans hmapping
    rw [hspares.sawHeld]
    exact ⟨hspares.holder (ht hk).1, (ht hk).2⟩
  intro before fault page answer world hspares _ _
  have hrelease : ∀ answer : Except EnqueueError Job, TickSafe key pid (fun _ _ => True)
      (releaseReserved options uniqueAcquired >>= fun _ => pure answer) { before with world } := by
    intro answer
    unfold releaseReserved
    split
    · rename_i asked hasked
      apply TickSafe.redis
      · intro before₂ hspares₂ hk
        have huniq : options.uniqueKey = some key := hasked.trans (congrArg some hk)
        exact hspares₂.holder (hspares.holder (ht huniq).1)
      · exact fun _ _ _ _ _ _ _ _ => TickSafe.ret trivial
    · exact TickSafe.ret trivial
  match answer with
  | .ok true => exact TickSafe.ret trivial
  | .ok false => exact hrelease _
  | .error error => exact hrelease _

-- What a process does aside of the lock.
theorem quiet_call {α : Type} {post : α → Tick → Prop} {op : Op} {next : op.Reply → Proc α}
    (hop : ∀ c, op ≠ .redis c) (h : ∀ u reply, TickSafe key pid post (next reply) u) :
    TickSafe key pid post (perform op >>= next) t := by
  apply TickSafe.call
  · intro before _
    cases op
    case redis c => exact absurd rfl (hop c)
    all_goals trivial
  · exact fun before chance _ _ => h _ _

-- A call of the client for a job without an id of its own.
theorem enqueue_safe {options : EnqueueOptions} (functionName : String) (params : Params)
    (hid : options.jobId = none) (ht : t.sawHeld pid = false) :
    TickSafe key pid (fun _ _ => True)
      (RRQClient.enqueue settings functionName params options) t := by
  unfold RRQClient.enqueue
  rw [hid]
  apply TickSafe.call
  · exact fun _ _ => trivial
  intro before chance hspares _
  have hclean : ∀ u, Spares pid ((cronLoops key).exec pid () .newId chance before).2 u →
      u.calling pid = true ∧ u.sawHeld pid = false := by
    intro u hu
    rw [hu.calling, hu.sawHeld]
    exact ⟨Function.update_self _ _ _, hspares.sawHeld.trans ht⟩
  dsimp only
  split_ifs
  · exact TickSafe.ret trivial
  split
  · exact TickSafe.ret trivial
  split_ifs
  · exact TickSafe.ret trivial
  apply TickSafe.call
  · exact fun _ _ => trivial
  intro before₂ chance₂ hspares₂ _
  split
  · exact TickSafe.ret trivial
  rename_i runTime lockTtlSeconds _
  have hreserve : TickSafe key pid (fun answer u => ∀ time acquired,
      answer = .ok (time, acquired) → options.uniqueKey = some key →
        u.holder = some pid ∧ u.sawHeld pid = false)
      (reserveIfUnique options chance.text chance₂.now runTime lockTtlSeconds)
      ((cronLoops key).exec pid () .utcNow chance₂ before₂).2 := by
    unfold reserveIfUnique
    cases options.uniqueKey with
    | none => exact TickSafe.ret fun _ _ _ hk => nomatch hk
    | some asked =>
        have hready := hclean before₂ hspares₂
        apply TickSafe.mono (reserve_safe asked _ _ _ _ fun _ => hready)
        intro answer u hpost time acquired heq hk
        exact (hpost time acquired heq (Option.some.inj hk)).2
  apply TickSafe.bind hreserve
  intro reserved u hpost
  cases reserved with
  | error error => exact TickSafe.ret trivial
  | ok reserved =>
      obtain ⟨time, acquired⟩ := reserved
      exact enqueueJob_safe _ _ rfl (hpost time acquired rfl)

open CronLoop

-- An entry whose lock is held is passed over.
theorem enqueueDue_safe (due : DueCronJob) (ht : t.sawHeld pid = false) :
    TickSafe key pid (fun _ _ => True) (enqueueDue settings due) t := by
  have hheld : TickSafe key pid (fun held u => held = false → u.sawHeld pid = false)
      (lockHeld due.uniqueKey) t := by
    cases due.uniqueKey with
    | none => exact TickSafe.ret fun _ => ht
    | some asked =>
        apply TickSafe.redis
        · exact fun _ _ => trivial
        intro before fault page answer world hspares _ _
        match answer with
        | .error error => exact TickSafe.ret fun _ => hspares.sawHeld.trans ht
        | .ok remaining =>
            refine TickSafe.ret fun hfree => ?_
            have hpos : ¬ (asked = key ∧ 0 < remaining) := fun h => of_decide_eq_false hfree h.2
            have hnote : note key { before with world } pid (.redis (.getLockTtl asked))
                (.ok remaining) = { before with world } := if_neg hpos
            rw [hnote]
            exact hspares.sawHeld.trans ht
  apply TickSafe.bind hheld
  intro held u hpost
  cases held with
  | true => exact TickSafe.ret trivial
  | false =>
      apply TickSafe.bind (enqueue_safe due.functionName due.params rfl (hpost rfl))
      exact fun _ _ _ => TickSafe.ret trivial

theorem enqueueAll_safe (due : List DueCronJob) :
    TickSafe key pid (fun _ _ => True) (enqueueAll settings worker due) t := by
  induction due generalizing t with
  | nil => exact TickSafe.ret trivial
  | cons entry rest ih =>
      apply TickSafe.call
      · exact fun _ _ => trivial
      intro before chance _ _
      dsimp only
      split_ifs
      · exact TickSafe.ret trivial
      · have hturned : ((cronLoops key).exec pid () (.shutdownRequested worker) chance
            before).2.sawHeld pid = false := Function.update_self _ _ _
        apply TickSafe.bind (enqueueDue_safe entry hturned)
        intro called u _
        apply TickSafe.bind ih
        exact fun _ _ _ => TickSafe.ret trivial

theorem collectDue_safe (parse : String → Option Schedule) (now : DateTime) (index : Nat)
    (jobs : List CronJob) :
    TickSafe key pid (fun _ _ => True) (collectDue parse worker now index jobs) t := by
  induction jobs generalizing index t with
  | nil => exact TickSafe.ret trivial
  | cons job jobs ih =>
      apply quiet_call (by simp)
      intro u stop
      cases stop with
      | true => exact TickSafe.ret trivial
      | false =>
          apply TickSafe.bind (ih (index + 1))
          intro found u _
          cases found with
          | none => exact TickSafe.ret trivial
          | some found => exact TickSafe.ret trivial

theorem cronLoop_safe (parse : String → Option Schedule) (fuel : Nat) (jobs : List CronJob) :
    TickSafe key pid (fun _ _ => True) (cronLoop parse settings worker fuel jobs) t := by
  induction fuel generalizing jobs t with
  | zero => exact TickSafe.ret trivial
  | succ fuel ih =>
      apply quiet_call (by simp)
      intro u stop
      split_ifs
      · exact TickSafe.ret trivial
      apply quiet_call (by simp)
      intro u now
      apply TickSafe.bind (collectDue_safe parse now 0 jobs)
      intro found u _
      cases found with
      | none => exact TickSafe.ret trivial
      | some found =>
          obtain ⟨due, after⟩ := found
          apply TickSafe.bind (enqueueAll_safe due)
          intro result u _
          obtain ⟨left, called⟩ := result
          dsimp only
          split_ifs
          · exact TickSafe.ret trivial
          · apply TickSafe.bind (ih _)
            exact fun _ _ _ => TickSafe.ret trivial

end Programs

namespace Tick

theorem cronProgram_safe {key : String} {pid : Pid} {t : Tick} (parse : String → Option Schedule)
    (settings : RRQSettings) (worker : WorkerId) (fuel : Nat) (jobs : List CronJob) :
    (singleArgument key).Safe pid () (cronProgram parse settings worker fuel jobs) t := by
  apply TickSafe.bind (cronLoop_safe parse fuel jobs)
  exact fun _ _ _ => TickSafe.ret trivial

-- The surroundings move nothing but the clock, and the lock outlives it.
theorem aside_move {key : String} {event : CronEvent} {t u : Tick}
    (hm : (cronLoops key).move event t = some u) (ha : (sameTick key).env event t u) (pid : Pid) :
    Aside key pid t u := by
  cases event with
  | advance now =>
      obtain ⟨-, hu⟩ := Option.ite_none_right_eq_some.mp hm
      obtain rfl := Option.some.inj hu
      apply aside_world
      show (t.store.uniqueLocks key).filter _ = _
      cases hcell : t.store.uniqueLocks key with
      | none => rfl
      | some cell => exact Option.filter_eq_some_iff.mpr ⟨rfl, ha cell hcell⟩
  | start pid parse settings worker fuel jobs =>
      obtain rfl := Option.some.inj hm
      exact aside_world rfl
  | stop pid =>
      obtain rfl := Option.some.inj hm
      exact aside_world rfl

theorem singleArgument_sound (key : String) : (singleArgument key).Sound where
  forks _ _ _ _ _ _ _ _ _ _ h := nomatch h
  moves event t u ht hm ha := (aside_move hm ha 0).single ht
  survives _ _ _ pid _ _ hm ha _ :=
    (aside_move hm ha (pid + 1)).spares (Nat.ne_of_lt pid.lt_succ_self)
  spawns event t u child role prog _ _ _ h := by
    cases event with
    | start pid parse settings worker fuel jobs =>
        obtain ⟨-, -, rfl⟩ := by simpa [cronLoops] using h
        exact cronProgram_safe parse settings worker fuel jobs
    | advance now => nomatch h
    | stop pid => nomatch h

abbrev Ticks := Pool Op Op.Reply Tick Pid Unit

-- Nobody has come yet to the tick.
def opening (world : World) : Ticks where
  state := { world }
  procs _ := none

theorem holds_opening (key : String) (world : World) :
    (singleArgument key).Holds (opening world) :=
  ⟨⟨Nat.zero_le 1, rfl, fun h => absurd rfl h, fun h => absurd rfl h⟩, nofun⟩

-- The key of an entry marked unique is `cron:` and the name of its function. As long as the lock
-- is free whenever a client looks for it, at most one job of the tick comes into a queue, and
-- none of a process that has found the lock held.
theorem entered_once {key : String} {world : World} {pool : Ticks}
    (hr : Machine.Reach (cronLoops key) (undisturbed key) (opening world) pool) :
    pool.state.entered.length ≤ 1 ∧ pool.state.behind = [] := by
  have hsingle := (Machine.Argument.holds_reach (singleArgument_sound key)
    (holds_opening key world) hr).1
  exact ⟨hsingle.entered, hsingle.behind⟩

-- Two workers with the same entry, forty seconds past the minute.

def uniqueJob : CronJob := { CronLoop.minuteJob with unique := true }

def begin (pid : Pid) (worker : WorkerId) : Label Chance Pid CronEvent :=
  .env (.start pid (fun _ => some (.atSecond 30)) {} worker 1 [uniqueJob])

def run (pid : Pid) (id : JobId) : Label Chance Pid CronEvent :=
  .run pid { now := ⟨40000000000⟩, text := id }

def free (key : String) (pool : Ticks) : Label Chance Pid CronEvent → Bool
  | .run pid _ =>
      match pool.procs pid with
      | some (_, .call (.redis (.getLockTtl asked)) _) =>
          !(asked = key && pool.state.calling pid && (pool.state.store.uniqueLocks key).isSome)
      | some (_, .call (.redis (.acquireUniqueJobLock asked _ _)) _) =>
          !(asked = key && (pool.state.store.uniqueLocks key).isSome)
      | _ => true
  | .env (.advance _) => false
  | .env _ => true

theorem admitted_of_free {key : String} (pool : Ticks) (label : Label Chance Pid CronEvent)
    (h : free key pool label = true) :
    (cronLoops key).Admitted (undisturbed key) pool label := by
  cases label with
  | run pid chance =>
      intro role op next hp
      simp only [free, hp] at h
      cases op
      case redis c =>
        cases c
        case getLockTtl asked =>
          intro hk hcalling hheld
          simp only [Held] at hheld
          simp [hk, hcalling, hheld] at h
        case acquireUniqueJobLock asked id ttl =>
          intro hk hheld
          simp only [Held] at hheld
          simp [hk, hheld] at h
        all_goals trivial
      all_goals trivial
  | env event =>
      cases event with
      | advance now => cases h
      | start pid parse settings worker fuel jobs => exact fun _ _ => trivial
      | stop pid => exact fun _ _ => trivial

-- One worker after the other.
theorem entered_once_minute : ∃ pool : Ticks,
    (pool.state.entered = ["a"] ∧ pool.state.sawHeld 1 = true) ∧
      pool.state.entered.length ≤ 1 ∧ pool.state.behind = [] := by
  have htest : ((cronLoops "cron:f").stepsWhere (free "cron:f")
      ([begin 0 "u"] ++ List.replicate 10 (run 0 "a") ++ [begin 1 "v"] ++
        List.replicate 5 (run 1 "b")) (opening (.ofStore .empty))).map
      (fun pool => decide (pool.state.entered = ["a"] ∧ pool.state.sawHeld 1 = true)) =
        some true := by
    decide +kernel
  obtain ⟨pool, hr, hpool⟩ := Machine.exists_reach_where .start admitted_of_free htest
  exact ⟨pool, of_decide_eq_true hpool, entered_once hr⟩

def steady (_ : Ticks) : Label Chance Pid CronEvent → Bool
  | .env (.advance _) => false
  | _ => true

theorem admitted_of_steady {key : String} (pool : Ticks) (label : Label Chance Pid CronEvent)
    (h : steady pool label = true) : (cronLoops key).Admitted (sameTick key) pool label := by
  cases label with
  | run pid chance => exact fun _ _ _ _ => trivial
  | env event =>
      cases event with
      | advance now => cases h
      | start pid parse settings worker fuel jobs => exact fun _ _ => trivial
      | stop pid => exact fun _ _ => trivial

-- Both pass the check of the loop before either takes the lock.
theorem entered_twice : ¬ ∀ pool : Ticks,
    Machine.Reach (cronLoops "cron:f") (sameTick "cron:f") (opening (.ofStore .empty)) pool →
      pool.state.entered.length ≤ 1 ∧ pool.state.behind = [] := by
  intro h
  have htest : ((cronLoops "cron:f").stepsWhere steady
      ([begin 0 "u", begin 1 "v"] ++ List.replicate 5 (run 0 "a") ++
        List.replicate 5 (run 1 "b") ++ List.replicate 5 (run 0 "a") ++
        List.replicate 4 (run 1 "b")) (opening (.ofStore .empty))).map
      (fun pool => decide (pool.state.entered = ["b", "a"] ∧ pool.state.behind = ["b"])) =
        some true := by
    decide +kernel
  obtain ⟨pool, hr, hpool⟩ := Machine.exists_reach_where .start admitted_of_steady htest
  obtain ⟨-, hbehind⟩ := of_decide_eq_true hpool
  rw [(h pool hr).2] at hbehind
  cases hbehind

end Tick

end Rrq
