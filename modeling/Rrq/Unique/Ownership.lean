import Rrq.Concurrent.Pool
import Rrq.Unique.Lifetime

-- Who deletes the unique lock of whom, when the operations on jobs interleave.

namespace Rrq

open Store

-- The past of the unique locks: for which job a call of a client took one, and until when the
-- lock that a job took lasts, as long as no transition of the job has deleted it.
structure Ledger where
  world : World
  subject : Pid → Option JobId := fun _ => none
  terms : JobId → String → Option Int := fun _ _ => none

namespace Ledger

def store (l : Ledger) : Store := l.world.store

def take (l : Ledger) (pid : Pid) (key : String) (id : JobId) (ttlSeconds : Int) : Ledger :=
  { l with
    subject := Function.update l.subject pid (some id)
    terms := fun other name =>
      if other = id ∧ name = key then some (l.store.now + ttlSeconds * 1000)
      else l.terms other name }

def note (l : Ledger) (pid : Pid) : (op : Op) → op.Reply → Ledger
  | .redis (.acquireUniqueJobLock key id ttlSeconds), .ok true => l.take pid key id ttlSeconds
  | _, _ => l

-- What was held before and is not held now, a transition of the job has deleted.
def settle (l : Ledger) (before : Store) (actor : Option JobId) : Ledger :=
  { l with terms := fun id key =>
      if actor = some id ∧ (before.uniqueLocks key).isSome ∧ (l.store.uniqueLocks key).isNone
      then none else l.terms id key }

-- The job whose transition a process is, if it is known by then.
def actor (l : Ledger) (pid : Pid) (role : Option JobId) : Option JobId := role.or (l.subject pid)

-- The job's own enqueue took the lock, its time has not run out since, and no transition of the
-- job has deleted it.
def Current (l : Ledger) (id : JobId) (key : String) : Prop :=
  ∃ deadline, l.terms id key = some deadline ∧ l.store.now < deadline

end Ledger

-- The job whose transition an operation is. A call of a client may make its id up later.
def Operation.subject : Operation → Option JobId
  | claim _ => none
  | execute _ job _ => some job.id
  | quarantine _ _ id _ => some id
  | cancel id => some id
  | enqueue _ _ _ _ => none

inductive Occurrence where
  | advance (now : Int)
  | begins (pid : Pid) (operation : Operation)
  | stop (pid : Pid)

def transitions : Machine Op Op.Reply Chance Ledger Pid (Option JobId) Occurrence where
  exec pid role op chance l :=
    let (reply, world) := World.exec pid .client op chance l.world
    (reply, ({ l with world }.settle l.store (l.actor pid role)).note pid op reply)
  fork _ _ _ _ := none
  move event l :=
    match event with
    | .advance now =>
        if l.store.now ≤ now then
          some { l with world := { l.world with store := l.store.advance now } }
        else none
    | .begins _ _ => some l
    | .stop _ => some l
  stops event pid _ :=
    match event with
    | .stop stopped => pid = stopped
    | _ => false
  spawn
    | .begins pid operation => some (pid, operation.subject, operation.program)
    | _ => none

abbrev Transitions := Pool Op Op.Reply Ledger Pid (Option JobId)

-- Every step is admitted.
def unrestricted : Machine.Assume Op Chance Ledger Pid (Option JobId) Occurrence where
  run _ _ _ _ _ := True
  env _ _ _ := True

-- A transition that comes to delete a unique lock finds it free, or its job took the lock and
-- has it still by the clock.
def entitled : Machine.Assume Op Chance Ledger Pid (Option JobId) Occurrence where
  run pid role op chance l := ∀ c key, op = .redis c → c.Deletes chance.fault l.store key →
    l.store.uniqueLocks key = none ∨ ∃ id, l.actor pid role = some id ∧ l.Current id key
  env _ _ _ := True

-- A unique lock that is gone after a step was deleted by a transition of the job that it named,
-- or has expired.
def KeepsOthers (pool : Transitions) (label : Label Chance Pid Occurrence) : Prop :=
  ∀ after, transitions.step pool label = some after →
    ∀ key owner, pool.state.store.Names key owner → ¬ after.state.store.Names key owner →
      match label with
      | .run pid _ => ∃ role prog, pool.procs pid = some (role, prog) ∧
          pool.state.actor pid role = some owner
      | .env (.advance now) => ∃ cell ∈ pool.state.store.uniqueLocks key, ¬ cell.liveAt now
      | .env _ => False

-- A unique lock names a job that took it and has it still, and every job that has one still is
-- named by it.
structure Ledger.Kept (l : Ledger) : Prop where
  termed : ∀ key cell, l.store.uniqueLocks key = some cell → ∃ deadline,
    cell.expireAt = some deadline ∧ l.terms cell.value key = some deadline ∧
      l.store.now < deadline
  named : ∀ id key, l.Current id key → l.store.Names key id

section Steps

variable {l : Ledger} {pid : Pid} {role : Option JobId}

theorem Ledger.Kept.current (hl : l.Kept) {key : String} {owner : JobId}
    (h : l.store.Names key owner) : l.Current owner key := by
  obtain ⟨cell, hcell, rfl⟩ := Option.map_eq_some_iff.mp h
  obtain ⟨deadline, -, hterms, hlive⟩ := hl.termed key cell hcell
  exact ⟨deadline, hterms, hlive⟩

theorem store_note (l : Ledger) (pid : Pid) (op : Op) (reply : op.Reply) :
    (l.note pid op reply).store = l.store := by
  unfold Ledger.note
  split <;> rfl

theorem store_exec_redis (c : Cmd) (chance : Chance) :
    (transitions.exec pid role (.redis c) chance l).2.store =
      (c.exec chance.fault chance.page l.store).2 := by
  simp only [transitions, store_note]
  rfl

-- Only the taking of a lock gives a job a new term.
theorem exec_eq_settle {op : Op}
    (hop : ∀ key id ttl, op ≠ .redis (.acquireUniqueJobLock key id ttl)) (chance : Chance) :
    (transitions.exec pid role op chance l).2 =
      { l with world := (World.exec pid .client op chance l.world).2 }.settle l.store
        (l.actor pid role) := by
  simp only [transitions]
  unfold Ledger.note
  split
  · exact absurd rfl (hop _ _ _)
  · rfl

-- A step leaves the terms alone when nothing that was held is free after it.
theorem settle_of_held {before : Store} {actor : Option JobId}
    (h : ∀ key, (before.uniqueLocks key).isSome → (l.store.uniqueLocks key).isSome) :
    l.settle before actor = l := by
  have hterms : ∀ id key, ¬ (actor = some id ∧ (before.uniqueLocks key).isSome ∧
      (l.store.uniqueLocks key).isNone) := by
    rintro id key ⟨-, hheld, hfree⟩
    have hsome := h key hheld
    rw [Option.isNone_iff_eq_none.mp hfree] at hsome
    cases hsome
  simp only [Ledger.settle, hterms, if_false]

theorem kept_take (hl : l.Kept) (pid : Pid) {key : String} (hfree : l.store.uniqueLocks key = none)
    {id : JobId} {ttlSeconds : Int} (httl : 0 < ttlSeconds) {later : Ledger}
    (hstore : later.store = l.store.setUniqueLock key
      (some { value := id, expireAt := some (l.store.now + ttlSeconds * 1000) }))
    (hterms : later.terms = (l.take pid key id ttlSeconds).terms) : later.Kept where
  termed found cell hcell := by
    rw [hstore, Store.setUniqueLock_now, hterms]
    rw [hstore, Store.setUniqueLock_uniqueLocks, Function.update_apply] at hcell
    by_cases hfound : found = key
    · rw [if_pos hfound] at hcell
      obtain rfl := Option.some.inj hcell
      exact ⟨_, rfl, if_pos ⟨rfl, hfound⟩, by omega⟩
    · rw [if_neg hfound] at hcell
      obtain ⟨deadline, hexpire, hold, hlive⟩ := hl.termed found cell hcell
      exact ⟨deadline, hexpire, (if_neg fun h => hfound h.2).trans hold, hlive⟩
  named other found := by
    rintro ⟨deadline, hcurrent, hlive⟩
    rw [hstore, Store.setUniqueLock_now] at hlive
    rw [hterms] at hcurrent
    unfold Names
    rw [hstore, Store.setUniqueLock_uniqueLocks, Function.update_apply]
    by_cases hnew : other = id ∧ found = key
    · rw [if_pos hnew.2, hnew.1]
      rfl
    · have hold := hl.named other found ⟨deadline, (if_neg hnew).symm.trans hcurrent, hlive⟩
      have hne : found ≠ key := by
        rintro rfl
        unfold Names at hold
        rw [hfree] at hold
        cases hold
      rw [if_neg hne]
      exact hold

theorem Ledger.Kept.congr (hl : l.Kept) {later : Ledger} (hstore : later.store = l.store)
    (hterms : later.terms = l.terms) : later.Kept where
  termed key cell hcell := by
    rw [hstore] at hcell ⊢
    rw [hterms]
    exact hl.termed key cell hcell
  named id key := by
    unfold Ledger.Current
    rw [hstore, hterms]
    exact hl.named id key

theorem kept_acquire (hl : l.Kept) (key : String) (id : JobId) (ttl : Int) (chance : Chance) :
    (transitions.exec pid role (.redis (.acquireUniqueJobLock key id ttl)) chance l).2.Kept := by
  simp only [transitions, World.exec]
  cases hexec : (Cmd.acquireUniqueJobLock key id ttl).exec chance.fault chance.page l.store with
  | mk answer after =>
      have hworld : (Cmd.acquireUniqueJobLock key id ttl).exec chance.fault chance.page
        l.world.store = (answer, after) := hexec
      rw [hworld]
      cases answer with
      | error error =>
          obtain rfl := Cmd.acquireUniqueJobLock_error hexec
          have hsettled : l.settle l.store (l.actor pid role) = l := settle_of_held fun _ h => h
          exact hl.congr rfl (congrArg Ledger.terms hsettled)
      | ok acquired =>
          obtain ⟨rfl, -, rfl⟩ | ⟨rfl, hfree, rfl⟩ := Cmd.acquireUniqueJobLock_inv hexec
          · have hsettled : l.settle l.store (l.actor pid role) = l := settle_of_held fun _ h => h
            exact hl.congr rfl (congrArg Ledger.terms hsettled)
          · refine kept_take hl pid hfree (Cmd.acquireUniqueJobLock_pos hexec) rfl ?_
            -- A lock that is taken was free, so nothing is settled.
            rw [settle_of_held]
            · rfl
            · intro found hheld
              have hne : found ≠ key := by
                rintro rfl
                rw [hfree] at hheld
                cases hheld
              show (Function.update l.store.uniqueLocks key _ found).isSome
              rwa [Function.update_of_ne hne]

theorem entitled_names (hl : l.Kept) {actor : Option JobId} {key : String} {owner : JobId}
    (hnames : l.store.Names key owner)
    (h : l.store.uniqueLocks key = none ∨ ∃ id, actor = some id ∧ l.Current id key) :
    actor = some owner := by
  rcases h with hfree | ⟨id, hactor, hcurrent⟩
  · unfold Names at hnames
    rw [hfree] at hnames
    cases hnames
  · rw [hactor, (hl.named id key hcurrent).unique hnames]

-- The locks that a command deletes are those of the job whose transition it is, whose terms end.
theorem kept_redis (hl : l.Kept) {c : Cmd}
    (hc : ∀ key id ttl, c ≠ .acquireUniqueJobLock key id ttl) (chance : Chance)
    (ha : entitled.run pid role (.redis c) chance l) :
    (transitions.exec pid role (.redis c) chance l).2.Kept := by
  have hstore : (transitions.exec pid role (.redis c) chance l).2.store =
      (c.exec chance.fault chance.page l.store).2 := store_exec_redis c chance
  have hnow : (transitions.exec pid role (.redis c) chance l).2.store.now = l.store.now := by
    rw [hstore]
    exact Cmd.frame_exec frame_sameNow (fun _ _ => trivial) (fun _ _ => trivial) _ _ _
  have hlocks : ∀ key cell, (transitions.exec pid role (.redis c) chance l).2.store.uniqueLocks
      key = some cell → l.store.uniqueLocks key = some cell := by
    intro key cell h
    rw [hstore] at h
    exact Cmd.uniqueLocks_of_exec hc h
  have hterms : ∀ id key, (transitions.exec pid role (.redis c) chance l).2.terms id key =
      if l.actor pid role = some id ∧ (l.store.uniqueLocks key).isSome ∧
        ((transitions.exec pid role (.redis c) chance l).2.store.uniqueLocks key).isNone
      then none else l.terms id key := by
    have hsettle : (transitions.exec pid role (.redis c) chance l).2 =
        { l with world := (World.exec pid .client (.redis c) chance l.world).2 }.settle l.store
          (l.actor pid role) :=
      exec_eq_settle (fun key id ttl h => hc key id ttl (Op.redis.inj h)) chance
    intro id key
    rw [hsettle]
    rfl
  generalize (transitions.exec pid role (.redis c) chance l).2 = later at hstore hnow hlocks hterms
  constructor
  · intro key cell hcell
    obtain ⟨deadline, hexpire, hold, hlive⟩ := hl.termed key cell (hlocks key cell hcell)
    refine ⟨deadline, hexpire, ?_, hnow ▸ hlive⟩
    rw [hterms, if_neg, hold]
    rintro ⟨-, -, hnone⟩
    rw [hcell] at hnone
    cases hnone
  · rintro id key ⟨deadline, hcurrent, hlive⟩
    rw [hterms] at hcurrent
    obtain ⟨hkept, hold⟩ := Option.ite_none_left_eq_some.mp hcurrent
    have hnames := hl.named id key ⟨deadline, hold, hnow ▸ hlive⟩
    rw [hstore, Cmd.names_exec c hnames]
    intro hdeletes
    have hactor := entitled_names hl hnames (ha c key rfl hdeletes)
    obtain ⟨cell, hcell, -⟩ := Option.map_eq_some_iff.mp hnames
    refine hkept ⟨hactor, by rw [hcell]; rfl, ?_⟩
    by_contra hheld
    obtain ⟨found, hfound⟩ := Option.ne_none_iff_exists'.mp (by simpa using hheld)
    obtain rfl := Option.some.inj (hcell.symm.trans (hlocks key found hfound))
    have hafter : later.store.Names key id := by
      unfold Names at hnames ⊢
      rw [hfound, ← hcell]
      exact hnames
    rw [hstore, Cmd.names_exec c hnames] at hafter
    exact hafter hdeletes

theorem kept_exec (hl : l.Kept) (op : Op) (chance : Chance)
    (ha : entitled.run pid role op chance l) :
    (transitions.exec pid role op chance l).2.Kept := by
  by_cases hop : ∃ key id ttl, op = .redis (.acquireUniqueJobLock key id ttl)
  · obtain ⟨key, id, ttl, rfl⟩ := hop
    exact kept_acquire hl key id ttl chance
  · have hne : ∀ key id ttl, op ≠ .redis (.acquireUniqueJobLock key id ttl) :=
      fun key id ttl h => hop ⟨key, id, ttl, h⟩
    by_cases hredis : ∃ c, op = .redis c
    · obtain ⟨c, rfl⟩ := hredis
      exact kept_redis hl (fun key id ttl h => hne key id ttl (congrArg Op.redis h)) chance ha
    · have hstore : (World.exec pid .client op chance l.world).2.store = l.store := by
        cases op
        case redis c => exact absurd ⟨c, rfl⟩ hredis
        all_goals rfl
      rw [exec_eq_settle hne]
      have hsettled : { l with world := (World.exec pid .client op chance l.world).2 }.settle
          l.store (l.actor pid role) =
            { l with world := (World.exec pid .client op chance l.world).2 } :=
        settle_of_held fun key h =>
          (congrArg (fun s => (Store.uniqueLocks s key).isSome) hstore).trans h
      rw [hsettled]
      exact hl.congr hstore rfl

theorem kept_advance (hl : l.Kept) {now : Int} (hnow : l.store.now ≤ now) {later : Ledger}
    (hstore : later.store = l.store.advance now) (hterms : later.terms = l.terms) :
    later.Kept where
  termed key cell hcell := by
    rw [hstore] at hcell ⊢
    obtain ⟨hbefore, hlive⟩ := Option.filter_eq_some_iff.mp hcell
    obtain ⟨deadline, hexpire, hold, -⟩ := hl.termed key cell hbefore
    have hlate : now < deadline := by simpa [Volatile.liveAt, hexpire] using hlive
    exact ⟨deadline, hexpire, hterms ▸ hold, hlate⟩
  named id key := by
    rintro ⟨deadline, hcurrent, hlive⟩
    rw [hterms] at hcurrent
    rw [hstore] at hlive ⊢
    have hbefore : l.store.Names key id :=
      hl.named id key ⟨deadline, hcurrent, lt_of_le_of_lt hnow hlive⟩
    obtain ⟨cell, hcell, rfl⟩ := Option.map_eq_some_iff.mp hbefore
    obtain ⟨found, hexpire, hold, -⟩ := hl.termed key cell hcell
    obtain rfl := Option.some.inj (hold.symm.trans hcurrent)
    have hlate : now < found := hlive
    have hkept : (l.store.advance now).uniqueLocks key = some cell :=
      Option.filter_eq_some_iff.mpr ⟨hcell, by simpa [Volatile.liveAt, hexpire] using hlate⟩
    unfold Names
    rw [hkept]
    rfl

theorem move_cases {event : Occurrence} {later : Ledger}
    (h : transitions.move event l = some later) : later = l ∨ ∃ now, event = .advance now ∧
      l.store.now ≤ now ∧ later.store = l.store.advance now ∧ later.terms = l.terms := by
  cases event with
  | advance now =>
      simp only [transitions, Option.ite_none_right_eq_some, Option.some.injEq] at h
      obtain ⟨hnow, rfl⟩ := h
      exact .inr ⟨now, rfl, hnow, rfl, rfl⟩
  | begins pid operation => exact .inl (Option.some.inj h).symm
  | stop pid => exact .inl (Option.some.inj h).symm

theorem kept_move (hl : l.Kept) {event : Occurrence} {later : Ledger}
    (h : transitions.move event l = some later) : later.Kept := by
  obtain rfl | ⟨now, -, hnow, hstore, hterms⟩ := move_cases h
  · exact hl
  · exact kept_advance hl hnow hstore hterms

end Steps

section Runs

variable {pool after : Transitions}

-- What a step of the machine is.
theorem run_cases {pid : Pid} {chance : Chance}
    (h : transitions.step pool (.run pid chance) = some after) :
    ∃ role op next, pool.procs pid = some (role, .call op next) ∧
      after.state = (transitions.exec pid role op chance pool.state).2 := by
  simp only [Machine.step] at h
  split at h
  case h_2 => cases h
  case h_1 role op next hp =>
    obtain ⟨procs, -, rfl⟩ := Option.map_eq_some_iff.mp h
    exact ⟨role, op, next, hp, rfl⟩

theorem env_cases {event : Occurrence} (h : transitions.step pool (.env event) = some after) :
    transitions.move event pool.state = some after.state := by
  simp only [Machine.step, Option.bind_eq_some_iff, Option.map_eq_some_iff] at h
  obtain ⟨state, hmove, procs, -, rfl⟩ := h
  exact hmove

theorem Transitions.kept_reach {start : Transitions} (hstart : start.state.Kept)
    (h : Machine.Reach transitions entitled start pool) : pool.state.Kept := by
  induction h with
  | start => exact hstart
  | step label _ ha hs ih =>
      cases label with
      | run pid chance =>
          obtain ⟨role, op, next, hp, hstate⟩ := run_cases hs
          rw [hstate]
          exact kept_exec ih op chance (ha role op next hp)
      | env event => exact kept_move ih (env_cases hs)

theorem keepsOthers_env (pool : Transitions) (event : Occurrence) :
    KeepsOthers pool (.env event) := by
  intro after hs key owner hbefore hafter
  obtain hsame | ⟨now, rfl, -, hstore, -⟩ := move_cases (env_cases hs)
  · rw [hsame] at hafter
    exact absurd hbefore hafter
  · obtain ⟨cell, hcell, hvalue⟩ := Option.map_eq_some_iff.mp hbefore
    refine ⟨cell, hcell, fun hlive => hafter ?_⟩
    have hkept : (pool.state.store.advance now).uniqueLocks key = some cell :=
      Option.filter_eq_some_iff.mpr ⟨hcell, hlive⟩
    unfold Names
    rw [hstore, hkept]
    exact congrArg some hvalue

-- After steps that were entitled to what they deleted, one more leaves the locks of others alone
-- exactly when it is entitled too.
theorem keepsOthers_iff_entitled (hl : pool.state.Kept) {label : Label Chance Pid Occurrence}
    (hs : transitions.step pool label = some after) :
    KeepsOthers pool label ↔ transitions.Admitted entitled pool label := by
  cases label with
  | env event => exact iff_of_true (keepsOthers_env pool event) fun _ _ => trivial
  | run pid chance =>
      obtain ⟨role, op, next, hp, hstate⟩ := run_cases hs
      constructor
      · intro hkeeps other found rest hother c key hop hdeletes
        obtain ⟨rfl, hcall⟩ : other = role ∧ _ :=
          Prod.mk.injEq .. ▸ Option.some.inj (hother.symm.trans hp)
        obtain ⟨rfl, -⟩ := Prog.call.inj hcall
        subst hop
        cases hcell : pool.state.store.uniqueLocks key with
        | none => exact .inl rfl
        | some cell =>
            have hnames : pool.state.store.Names key cell.value := congrArg (Option.map _) hcell
            have hgone : ¬ after.state.store.Names key cell.value := by
              rw [hstate, store_exec_redis, Cmd.names_exec c hnames]
              exact not_not_intro hdeletes
            obtain ⟨role, prog, hproc, hactor⟩ := hkeeps after hs key _ hnames hgone
            obtain ⟨rfl, -⟩ : role = other ∧ _ :=
              Prod.mk.injEq .. ▸ Option.some.inj (hproc.symm.trans hp)
            exact .inr ⟨cell.value, hactor, hl.current hnames⟩
      · intro hentitled later hlater key owner hbefore hafter
        obtain rfl := Option.some.inj (hs.symm.trans hlater)
        refine ⟨role, _, hp, ?_⟩
        cases op
        case redis c =>
          rw [hstate, store_exec_redis, Cmd.names_exec c hbefore, not_not] at hafter
          exact entitled_names hl hbefore (hentitled role _ next hp c key rfl hafter)
        all_goals
          rw [hstate] at hafter
          exact absurd hbefore hafter

-- In every run, no step deletes the unique lock of another job exactly when each step that comes
-- to delete one finds it free or belongs to a job that took it and has it still by the clock.
theorem deletes_own_iff {start : Transitions} (hstart : start.state.Kept)
    (labels : List (Label Chance Pid Occurrence)) :
    transitions.Along KeepsOthers labels start ↔
      transitions.Along (transitions.Admitted entitled) labels start :=
  Machine.along_iff
    (fun _ hr _ _ hs => keepsOthers_iff_entitled (Transitions.kept_reach hstart hr) hs)
    (fun _ _ ha => ha) .start labels

end Runs

def Transitions.start : Transitions where
  state := { world := .ofStore .empty }
  procs _ := none

theorem Transitions.kept_start : Transitions.start.state.Kept where
  termed _ _ hcell := by cases hcell
  named _ _ h := by
    obtain ⟨deadline, hterms, -⟩ := h
    cases hterms

def claimAt (nowMs : Int) : Scripts.ClaimArgs where
  queueKey := "rrq:queue:default"
  workerId := "w"
  nowMs
  maxClaims := 10
  defaultLockTimeoutMs := 360000
  lockTimeoutExtensionSeconds := 60
  startTime := ⟨0⟩

-- A job is enqueued and takes the lock, a worker claims it, and it completes.
def ownRun : List (Label Chance Pid Occurrence) :=
  [.env (.begins 0 (keyed "first"))] ++ List.replicate 4 (.run 0 {}) ++
    [.env (.advance 1000), .env (.begins 1 (.claim (claimAt 1000))), .run 1 {},
      .env (.begins 2 (completion "first"))] ++ List.replicate 8 (.run 2 succeeding)

-- The command that is next deletes no lock, or the lock is one that the job has still.
def isEntitled (pool : Transitions) : Label Chance Pid Occurrence → Bool
  | .env _ => true
  | .run pid _ =>
      match pool.procs pid with
      | some (role, .call (.redis (.releaseUniqueJobLock key)) _) =>
          (pool.state.actor pid role).any fun id =>
            (pool.state.terms id key).any (pool.state.store.now < ·)
      | some (_, .call (.redis (.atomicMoveJobToDlq _ _ _ _ _ _)) _) => false
      | _ => true

theorem entitled_of_isEntitled (pool : Transitions) (label : Label Chance Pid Occurrence)
    (h : isEntitled pool label = true) : transitions.Admitted entitled pool label := by
  cases label with
  | env event => exact fun _ _ => trivial
  | run pid chance =>
      rintro role op next hp c key rfl hdeletes
      cases c
      case releaseUniqueJobLock released =>
        obtain ⟨rfl, -⟩ := hdeletes
        simp only [isEntitled, hp, Option.any_eq_true, decide_eq_true_eq] at h
        obtain ⟨id, hactor, deadline, hterms, hlive⟩ := h
        exact .inr ⟨id, hactor, deadline, hterms, hlive⟩
      case atomicMoveJobToDlq =>
        simp only [isEntitled, hp] at h
        cases h
      all_goals cases hdeletes

-- Whether the lock names the job after these steps.
def namesFirst (labels : List (Label Chance Pid Occurrence)) : Option Bool :=
  (transitions.steps labels Transitions.start).map fun pool =>
    pool.state.store.Names "k" "first"

theorem deletes_own_orderly : transitions.Along KeepsOthers ownRun Transitions.start ∧
    namesFirst ownRun.dropLast = some true ∧ namesFirst ownRun = some false := by
  have htest : (transitions.stepsWhere isEntitled ownRun Transitions.start).isSome := by
    decide +kernel
  refine ⟨?_, by decide +kernel, by decide +kernel⟩
  exact (deletes_own_iff Transitions.kept_start ownRun).mpr
    (Machine.along_of_stepsWhere entitled_of_isEntitled htest)

-- The second job is enqueued while the first one holds the lock, the lock expires, the third
-- job takes it, and then the second one completes.

def lateRun : List (Label Chance Pid Occurrence) :=
  [.env (.begins 0 (keyed "first"))] ++ List.replicate 4 (.run 0 {}) ++
    [.env (.begins 1 (keyed "second"))] ++ List.replicate 3 (.run 1 {}) ++
    [.env (.advance 22000000), .env (.begins 2 (keyed "third"))] ++
    List.replicate 4 (.run 2 {}) ++
    [.env (.begins 3 (.claim (claimAt 22000000))), .run 3 {},
      .env (.begins 4 (completion "second"))] ++ List.replicate 7 (.run 4 succeeding)

def deletesThird (pool : Transitions) : Bool :=
  (pool.procs 4).map Prod.fst = some (some "second") && pool.state.store.Names "k" "third" &&
    match transitions.step pool (.run 4 {}) with
    | some after => !(after.state.store.Names "k" "third" : Bool)
    | none => false

theorem deletes_foreign : ¬ ∀ (pool : Transitions) (label : Label Chance Pid Occurrence),
    Machine.Reach transitions unrestricted Transitions.start pool → KeepsOthers pool label := by
  intro h
  have htest : (transitions.steps lateRun Transitions.start).map deletesThird = some true := by
    decide +kernel
  have hadmitted : ∀ label ∈ lateRun, ∀ pool, transitions.Admitted unrestricted pool label := by
    intro label _ pool
    cases label with
    | run pid chance => exact fun _ _ _ _ => trivial
    | env event => exact fun _ _ => trivial
  obtain ⟨pool, hr, hdeletes⟩ := Machine.exists_reach .start hadmitted htest
  unfold deletesThird at hdeletes
  split at hdeletes
  case h_2 => simp at hdeletes
  case h_1 after hs =>
    obtain ⟨⟨hrole, hbefore⟩, hafter⟩ := by simpa using hdeletes
    obtain ⟨role, prog, hp, hactor⟩ := h pool (.run 4 {}) hr after hs "k" "third" hbefore hafter
    rw [hp] at hrole
    have hsecond : role = some "second" := by simpa using hrole
    rw [hsecond] at hactor
    exact absurd hactor (by simp [Ledger.actor])

end Rrq
