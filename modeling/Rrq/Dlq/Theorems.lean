import Rrq.Dlq
import Rrq.Store.Claim
import Rrq.Store.Unique

namespace Rrq.Dlq

open Machine

-- A requeue alone. It may be cut short anywhere, and any of its commands may fail.
def alone : Assume Op Chance State Pid Unit EnvEvent where
  run _ _ _ _ _ := True
  env
    | .crash _, _, _ => True
    | .advance _, _, _ => True
    | _, _, _ => False

section Alone

variable (s : Store) (dlqKey : String) (target : QueueKey)

-- The job is still in the list, or already in the queue.
def Kept (st : State) (id : JobId) : Prop :=
  id ∈ st.store.dlq dlqKey ∨ id ∈ st.store.queues target

-- Where the jobs of the list are while the requeue moves them.
structure Moving (st : State) : Prop where
  kept : ∀ id ∈ s.dlq dlqKey, Kept dlqKey target st id ∨ (st.watch 0).moving = some id
  listed : ∀ id ∈ st.store.dlq dlqKey, id ∈ s.dlq dlqKey
  moved : ∀ id, (st.watch 0).moving = some id → id ∈ s.dlq dlqKey

-- What the requeue sees does not change between its commands.
structure Still (st later : State) : Prop where
  dlq : later.store.dlq = st.store.dlq
  queues : later.store.queues = st.store.queues
  watch : later.watch = st.watch

def aloneArgument : Argument system alone where
  inv := Moving s dlqKey target
  rely pid _ st later := pid = 0 → Still st later
  guar pid _ _ _ := pid = 0
  begins _ _ _ _ _ := True
  rely_refl _ _ _ _ := ⟨rfl, rfl, rfl⟩
  rely_trans _ _ _ _ _ hab hbc hpid :=
    ⟨(hbc hpid).dlq.trans (hab hpid).dlq, (hbc hpid).queues.trans (hab hpid).queues,
      (hbc hpid).watch.trans (hab hpid).watch⟩
  rely_of_guar _ _ _ _ _ _ hpq _ _ hp hq := absurd (hp.trans hq.symm) hpq

variable {s dlqKey target}

theorem Moving.still {st later : State} (h : Moving s dlqKey target st) (hs : Still st later) :
    Moving s dlqKey target later := by
  constructor
  · intro id hid
    have hkept := h.kept id hid
    unfold Kept at hkept ⊢
    rwa [hs.dlq, hs.queues, hs.watch]
  · intro id hid
    exact h.listed id (hs.dlq ▸ hid)
  · intro id hid
    exact h.moved id (hs.watch ▸ hid)

-- What the requeue holds: taken from the list, and not yet entered into the queue.
def Holds (held : Option JobId) (st : State) : Prop := (st.watch 0).moving = held

theorem Holds.still {held : Option JobId} {st later : State} (h : Holds held st)
    (hs : Still st later) : Holds held later := by
  unfold Holds
  rw [hs.watch]
  exact h

def Op.Reads (op : Op) : Prop := ∀ chance st, Still st (State.exec 0 op chance st).2

theorem reads_utcNow : Op.utcNow.Reads := fun _ _ => ⟨rfl, rfl, rfl⟩

theorem reads_getDlqJobIds (key : String) : (Op.getDlqJobIds key).Reads := by
  intro chance st
  simp only [State.exec]
  split <;> exact ⟨rfl, rfl, rfl⟩

theorem reads_getJobDataMap (id : JobId) : (Op.getJobDataMap id).Reads := by
  intro chance st
  simp only [State.exec]
  split <;> exact ⟨rfl, rfl, rfl⟩

theorem reads_updateJobFields (id : JobId) (status : JobStatus) (queueName : QueueKey) :
    (Op.updateJobFields id status queueName).Reads := by
  intro chance st
  simp only [State.exec]
  split
  · unfold Store.hset
    split <;> exact ⟨rfl, rfl, rfl⟩
  · exact ⟨rfl, rfl, rfl⟩

abbrev Safe (s : Store) (dlqKey : String) (target : QueueKey) {α : Type}
    (post : α → State → Prop) (prog : Task α) (st : State) : Prop :=
  ((aloneArgument s dlqKey target).discipline 0 ()).Safe post prog st

section Programs

variable {α : Type} {post : α → State → Prop} {st : State}

theorem safe_read {op : Op} (hop : op.Reads) {held : Option JobId} {next : op.Reply → Task α}
    (hh : Holds held st)
    (hn : ∀ reply st, Holds held st → Safe s dlqKey target post (next reply) st) :
    Safe s dlqKey target post (perform op >>= next) st := by
  intro before hrely chance reply after hstep
  obtain ⟨hinv, -, hexec⟩ := hstep
  have hstill := hop chance before
  have hafter : (State.exec 0 op chance before).2 = after := congrArg Prod.snd hexec
  rw [hafter] at hstill
  refine ⟨hinv.still hstill, rfl, trivial, ?_⟩
  exact hn reply after ((hh.still (hrely rfl)).still hstill)

-- A job is taken from the list.
theorem moving_remove {id : JobId} (h : Moving s dlqKey target st) (hh : Holds none st)
    (hid : id ∈ st.store.dlq dlqKey) :
    Moving s dlqKey target (State.setWatch
      { st with store := st.store.setDlq dlqKey ((st.store.dlq dlqKey).erase id) } 0
      { st.watch 0 with moving := some id }) := by
  constructor
  · intro other ho
    rcases h.kept other ho with hkept | hmoving
    · by_cases heq : other = id
      · right
        simp [State.setWatch, heq]
      · left
        rcases hkept with hlist | hqueue
        · left
          simpa [State.setWatch] using (List.mem_erase_of_ne heq).mpr hlist
        · right
          exact hqueue
    · rw [hh] at hmoving
      cases hmoving
  · intro other ho
    apply h.listed
    exact List.mem_of_mem_erase (by simpa [State.setWatch] using ho)
  · intro other ho
    have heq : id = other := by simpa [State.setWatch] using ho
    exact h.listed other (heq ▸ hid)

theorem safe_remove {id : JobId} {next : Except RedisError Int → Task α} (hh : Holds none st)
    (hn : ∀ reply st, (∀ removed, reply = .ok removed → 0 < removed → Holds (some id) st) →
      ((∀ removed, reply = .ok removed → ¬ 0 < removed) → Holds none st) →
      Safe s dlqKey target post (next reply) st) :
    Safe s dlqKey target post (perform (.dlqRemoveJob dlqKey id) >>= next) st := by
  intro before hrely chance reply after hstep
  obtain ⟨hinv, -, hexec⟩ := hstep
  have hbefore := hh.still (hrely rfl)
  replace hexec : State.exec 0 (.dlqRemoveJob dlqKey id) chance before = (reply, after) := hexec
  simp only [State.exec] at hexec
  split at hexec
  · split at hexec
    · rename_i hid
      obtain ⟨rfl, rfl⟩ := Prod.mk.injEq .. ▸ hexec
      refine ⟨moving_remove hinv hbefore hid, rfl, trivial, hn _ _ (fun _ _ _ => ?_) fun h => ?_⟩
      · simp [Holds, State.setWatch]
      · exact absurd Int.one_pos (h 1 rfl)
    · obtain ⟨rfl, rfl⟩ := Prod.mk.injEq .. ▸ hexec
      refine ⟨hinv, rfl, trivial, hn _ _ (fun removed hr hpos => ?_) fun _ => hbefore⟩
      obtain rfl := Except.ok.inj hr
      exact absurd hpos (lt_irrefl 0)
  · obtain ⟨rfl, rfl⟩ := Prod.mk.injEq .. ▸ hexec
    exact ⟨hinv, rfl, trivial, hn _ _ nofun fun _ => hbefore⟩

-- The job that was taken is entered.
theorem moving_enter {id : JobId} {watch : Watch} (score : ℚ) (h : Moving s dlqKey target st)
    (hh : Holds (some id) st) (hwatch : watch.moving = none) :
    Moving s dlqKey target
      (State.setWatch { st with store := st.store.zadd target id score } 0 watch) := by
  constructor
  · intro other ho
    left
    rcases h.kept other ho with hkept | hmoving
    · rcases hkept with hlist | hqueue
      · left
        exact hlist
      · right
        simp [State.setWatch, Store.zadd, hqueue]
    · right
      rw [hh] at hmoving
      obtain rfl := Option.some.inj hmoving
      simp [State.setWatch, Store.zadd]
  · exact h.listed
  · intro other ho
    simp [State.setWatch, hwatch] at ho

theorem safe_enter {id : JobId} {score : ℚ} {next : Except RedisError Unit → Task α}
    (hh : Holds (some id) st)
    (hn : ∀ st, Holds none st → Safe s dlqKey target post (next (.ok ())) st)
    (he : ∀ error st, Safe s dlqKey target post (next (.error error)) st) :
    Safe s dlqKey target post (perform (.addJobToQueue target id score) >>= next) st := by
  intro before hrely chance reply after hstep
  obtain ⟨hinv, -, hexec⟩ := hstep
  have hbefore := hh.still (hrely rfl)
  replace hexec : State.exec 0 (.addJobToQueue target id score) chance before = (reply, after) :=
    hexec
  simp only [State.exec] at hexec
  split at hexec
  · obtain ⟨rfl, rfl⟩ := Prod.mk.injEq .. ▸ hexec
    refine ⟨moving_enter score hinv hbefore rfl, rfl, trivial, hn _ ?_⟩
    simp [Holds, State.setWatch]
  · obtain ⟨rfl, rfl⟩ := Prod.mk.injEq .. ▸ hexec
    exact ⟨hinv, rfl, trivial, he _ _⟩

-- The program, loop by loop.

theorem safe_collect (options : Options) (ids : List JobId) (jobs : List JobHash)
    (hh : Holds none st) :
    Safe s dlqKey target (fun _ st => Holds none st) (collect options ids jobs) st := by
  induction ids generalizing jobs st with
  | nil => exact Discipline.safe_ret hh
  | cons id ids ih =>
      apply safe_read (reads_getJobDataMap id) hh
      intro reply later hlater
      match reply with
      | .error error => exact Discipline.safe_ret hlater
      | .ok none => exact ih jobs hlater
      | .ok (some jobMap) => exact ih _ hlater

theorem safe_requeueEach (jobs : List JobHash) (requeued : Nat) (hh : Holds none st) :
    Safe s dlqKey target (fun _ _ => True) (requeueEach dlqKey target jobs requeued) st := by
  induction jobs generalizing requeued st with
  | nil => exact Discipline.safe_ret trivial
  | cons job jobs ih =>
      unfold requeueEach
      dsimp only
      split
      · exact ih requeued hh
      · apply safe_remove hh
        intro reply st htaken hnot
        match reply with
        | .error error => exact Discipline.safe_ret trivial
        | .ok removed =>
            dsimp only
            split
            · rename_i hpos
              apply safe_read reads_utcNow (htaken removed rfl hpos)
              intro now st hholds
              apply safe_enter hholds
              · intro st hholds
                apply safe_read (reads_updateJobFields _ _ _) hholds
                intro _ st hholds
                exact ih (requeued + 1) hholds
              · intro error st
                exact Discipline.safe_ret trivial
            · rename_i hpos
              apply ih requeued
              apply hnot
              intro other ho
              obtain rfl := Except.ok.inj ho
              exact hpos

theorem safe_dlqRequeue (settings : RRQSettings) (options : Options) (hh : Holds none st) :
    Safe s (options.dlqKey settings) (options.target settings) (fun _ _ => True)
      (dlqRequeue settings options) st := by
  unfold dlqRequeue
  split
  · exact Discipline.safe_ret trivial
  · apply safe_read (reads_getDlqJobIds _) hh
    intro reply st hh
    match reply with
    | .error error => exact Discipline.safe_ret trivial
    | .ok ids =>
        apply Discipline.safe_bind (safe_collect options ids [] hh)
        intro reply st hh
        match reply with
        | .error error => exact Discipline.safe_ret trivial
        | .ok jobs =>
            dsimp only
            split
            · exact Discipline.safe_ret trivial
            · apply Discipline.safe_bind (safe_requeueEach _ 0 hh)
              intro reply st _
              match reply with
              | .error error => exact Discipline.safe_ret trivial
              | .ok requeued => exact Discipline.safe_ret trivial

end Programs

theorem still_move {event : EnvEvent} {st after : State} (h : event.move st = some after)
    (ha : alone.env event st after) : Still st after := by
  cases event with
  | crash pid =>
      obtain rfl := Option.some.inj h
      exact ⟨rfl, rfl, rfl⟩
  | advance now =>
      obtain ⟨-, hafter⟩ := Option.ite_none_right_eq_some.mp h
      obtain rfl := Option.some.inj hafter
      exact ⟨rfl, rfl, rfl⟩
  | call pid settings options => exact False.elim ha
  | worker command fault page => exact False.elim ha
  | client command fault page => exact False.elim ha

theorem alone_sound : (aloneArgument s dlqKey target).Sound where
  forks _ _ _ _ _ _ _ _ _ _ hfork := nomatch hfork
  moves _ _ _ hinv hmove ha := hinv.still (still_move hmove ha)
  survives _ _ _ _ _ _ hmove ha _ _ := still_move hmove ha
  spawns event _ _ _ _ _ _ _ ha hspawn := by
    cases event with
    | call pid settings options => exact False.elim ha
    | crash pid => cases hspawn
    | advance now => cases hspawn
    | worker command fault page => cases hspawn
    | client command fault page => cases hspawn

theorem alone_start (s : Store) (settings : RRQSettings) (options : Options) :
    (aloneArgument s (options.dlqKey settings) (options.target settings)).Holds
      (System.requeueing s settings options) := by
  constructor
  · exact ⟨fun id hid => .inl (.inl hid), fun id hid => hid, nofun⟩
  · intro pid role prog hp
    obtain ⟨rfl, hprog⟩ := Option.ite_none_right_eq_some.mp hp
    obtain ⟨-, rfl⟩ := Prod.mk.injEq .. ▸ Option.some.inj hprog
    have hholds : Holds none { store := s } := rfl
    apply Discipline.safe_bind (safe_dlqRequeue settings options hholds)
    exact fun _ _ _ => Discipline.safe_ret trivial

end Alone

-- Wherever a requeue is cut, a job can only be missing if the cut falls between the removal
-- of its id from the list and its entry into the queue.
theorem kept_iff {s : Store} {settings : RRQSettings} {options : Options} {pool : System}
    (hr : Reach system alone (System.requeueing s settings options) pool) :
    (∀ id ∈ s.dlq (options.dlqKey settings), (s.hash id).isSome →
      Kept (options.dlqKey settings) (options.target settings) pool.state id) ↔
    ∀ id, (pool.state.watch 0).moving = some id → (s.hash id).isSome →
      Kept (options.dlqKey settings) (options.target settings) pool.state id := by
  have hinv := (Argument.holds_reach alone_sound (alone_start s settings options) hr).1
  constructor
  · intro h id hmoving hsome
    exact h id (hinv.moved id hmoving) hsome
  · intro h id hid hsome
    rcases hinv.kept id hid with hkept | hmoving
    · exact hkept
    · exact h id hmoving hsome

-- One job in the list.
def failed : Store :=
  { Store.empty with
    jobs := fun id => if id = "j" then
        some { value := { id := some "j", status := some JobStatus.Failed.asStr } }
      else none
    dlq := fun key => if key = "rrq:dlq:default" then ["j"] else [] }

def everything : Options := { all := true }

def completeRun : List (Label Chance Pid EnvEvent) := List.replicate 6 (.run 0 {})

-- The requeue dies when it has taken the job from the list.
def cutRun : List (Label Chance Pid EnvEvent) :=
  List.replicate 3 (.run 0 {}) ++ [.env (.crash 0)]

def entered (pool : System) : Bool :=
  decide ("j" ∈ pool.state.store.queues "rrq:queue:default") &&
    decide ((pool.state.watch 0).moving = none)

def lost (pool : System) : Bool :=
  decide ("j" ∉ pool.state.store.dlq "rrq:dlq:default") &&
    decide ("j" ∉ pool.state.store.queues "rrq:queue:default")

theorem kept_iff_failed : ∃ pool, Reach system alone (System.requeueing failed {} everything) pool ∧
    "j" ∈ pool.state.store.queues "rrq:queue:default" ∧
    ∀ id ∈ failed.dlq (everything.dlqKey {}), (failed.hash id).isSome →
      Kept (everything.dlqKey {}) (everything.target {}) pool.state id := by
  have htest : (system.steps completeRun (System.requeueing failed {} everything)).map entered =
      some true := by decide +kernel
  have hadmitted : ∀ label ∈ completeRun, ∀ pool, system.Admitted alone pool label := by
    intro label hlabel pool
    obtain rfl := (List.mem_replicate.mp hlabel).2
    exact fun _ _ _ _ => trivial
  obtain ⟨pool, hreach, hentered⟩ := exists_reach .start hadmitted htest
  obtain ⟨hqueue, hmoving⟩ := by simpa [entered] using hentered
  refine ⟨pool, hreach, hqueue, (kept_iff hreach).mpr fun id h => ?_⟩
  rw [hmoving] at h
  cases h

theorem kept_fails : ¬ ∀ (s : Store) (settings : RRQSettings) (options : Options) (pool : System),
    Reach system alone (System.requeueing s settings options) pool →
      ∀ id ∈ s.dlq (options.dlqKey settings), (s.hash id).isSome →
        Kept (options.dlqKey settings) (options.target settings) pool.state id := by
  intro h
  have htest : (system.steps cutRun (System.requeueing failed {} everything)).map lost =
      some true := by decide +kernel
  have hadmitted : ∀ label ∈ cutRun, ∀ pool, system.Admitted alone pool label := by
    intro label hlabel pool
    rcases List.mem_append.mp hlabel with hrun | hcrash
    · obtain rfl := (List.mem_replicate.mp hrun).2
      exact fun _ _ _ _ => trivial
    · obtain rfl := List.mem_singleton.mp hcrash
      exact fun _ _ => trivial
  obtain ⟨pool, hreach, hlost⟩ := exists_reach .start hadmitted htest
  obtain ⟨hlist, hqueue⟩ := by simpa [lost] using hlost
  rcases h failed {} everything pool hreach "j" (by decide) rfl with hkept | hkept
  · exact hlist hkept
  · exact hqueue hkept

-- Requeues among workers.

section Status

variable {s t : Store} {id : JobId} {fault : Fault} {page : Nat × List String}

theorem status_aside {c : Cmd} (hk : ∀ kind ∈ c.kinds, kind ≠ .hash ∧ kind ≠ .definition)
    (s : Store) (fault : Fault) (page : Nat × List String) :
    (c.exec fault page s).2.status id = s.status id := by
  have hjobs := Cmd.frame_exec Store.frame_sameJobs hk (fun _ _ => trivial) fault page s
  unfold Store.status Store.hash
  rw [congrFun hjobs id]

theorem status_other {c : Cmd} {other : JobId} (hc : c.concerns = (· = other)) (ho : other ≠ id)
    (s : Store) (fault : Fault) (page : Nat × List String) :
    (c.exec fault page s).2.status id = s.status id := by
  apply Store.SameJob.status
  apply Cmd.sameJob_exec id
  intro found hfound heq
  rw [hc] at hfound
  exact ho (heq.trans hfound).symm

-- A command that does not settle the job leaves its status alone, whatever befalls it.
theorem status_unsettled {c : Cmd} (h : settles id s c = false) :
    (c.exec fault page s).2.status id = s.status id := by
  cases c
  case atomicClaimReadyJobs args =>
    apply Store.SameJob.status
    exact Cmd.sameJob_atomicClaimReadyJobs (of_decide_eq_false h) fault page
  case updateJobNextScheduledRunTime other time =>
    simp only [Cmd.exec]
    unfold Cmd.single
    split
    · by_cases ho : other = id
      · subst ho
        exact Store.status_hset_same s other _ fun _ => rfl
      · exact (Store.sameJob_hset (Ne.symm ho) s _).status
    · rfl
  case markJobPending => exact status_other rfl (of_decide_eq_false h) s fault page
  case updateJobStatus => exact status_other rfl (of_decide_eq_false h) s fault page
  case atomicRetryJob => exact status_other rfl (of_decide_eq_false h) s fault page
  case atomicMoveJobToDlq => exact status_other rfl (of_decide_eq_false h) s fault page
  case moveJobToDlq => exact status_other rfl (of_decide_eq_false h) s fault page
  case atomicRequeueJob => exact status_other rfl (of_decide_eq_false h) s fault page
  case saveJobResult => exact status_other rfl (of_decide_eq_false h) s fault page
  case atomicEnqueueJob => exact status_other rfl (of_decide_eq_false h) s fault page
  case producerEnqueue => exact status_other rfl (of_decide_eq_false h) s fault page
  case producerRateLimit => exact status_other rfl (of_decide_eq_false h) s fault page
  case producerDebounce => cases h
  all_goals exact status_aside (by simp [Cmd.kinds]) s fault page

theorem claimed_unsettled {c : Cmd} {answer : Except RedisError c.Answer}
    (hexec : c.exec fault page s = (answer, t)) (h : settles id s c = false) :
    claimed id c answer = false := by
  cases c
  case atomicClaimReadyJobs args =>
    cases answer with
    | error error => rfl
    | ok ids =>
        apply decide_eq_false
        intro hid
        exact of_decide_eq_false h (Cmd.atomicClaimReadyJobs_mem hexec hid)
  all_goals rfl

end Status

-- No requeue updates the hash of a job that a worker may have settled since the requeue
-- entered it, unless the job has that status anyway.
def unraced : Assume Op Chance State Pid Unit EnvEvent where
  run
    | pid, _, .updateJobFields id status _, chance, st => chance.fault = .none →
        (st.watch pid).touched id = true → st.store.status id = some status.asStr
    | _, _, _, _, _ => True
  env _ _ _ := True

-- What a worker wrote, it wrote by a command that may set a status.
def Noted (st : State) : Prop :=
  ∀ pid id, (st.watch pid).wrote id = true → (st.watch pid).touched id = true

theorem noted_note {watch : Watch} (h : ∀ id, watch.wrote id = true → watch.touched id = true)
    {c : Cmd} {fault : Fault} {page : Nat × List String} {answer : Except RedisError c.Answer}
    {s t : Store} (hexec : c.exec fault page s = (answer, t)) (id : JobId)
    (hw : (watch.note c answer s t).wrote id = true) :
    (watch.note c answer s t).touched id = true := by
  simp only [Watch.note, Bool.or_eq_true, Bool.and_eq_true] at hw ⊢
  rcases hw with hold | ⟨hshown, hnow⟩
  · exact .inl (h id hold)
  · right
    refine ⟨hshown, ?_⟩
    by_contra hunsettled
    rw [Bool.not_eq_true] at hunsettled
    rcases hnow with hclaimed | hstatus
    · rw [claimed_unsettled hexec hunsettled] at hclaimed
      cases hclaimed
    · have hsame : (c.exec fault page s).2.status id = s.status id := status_unsettled hunsettled
      rw [hexec] at hsame
      exact of_decide_eq_true hstatus hsame

theorem noted_setWatch {st : State} {pid : Pid} {watch : Watch} (h : Noted st)
    (htouched : watch.touched = (st.watch pid).touched)
    (hwrote : watch.wrote = (st.watch pid).wrote) : Noted (st.setWatch pid watch) := by
  intro other id hw
  by_cases ho : other = pid
  · subst ho
    simp only [State.setWatch, Function.update_self, htouched, hwrote] at hw ⊢
    exact h other id hw
  · simp only [State.setWatch, Function.update_of_ne ho] at hw ⊢
    exact h other id hw

theorem noted_exec (pid : Pid) (op : Op) (chance : Chance) {st : State} (h : Noted st) :
    Noted (State.exec pid op chance st).2 := by
  cases op with
  | utcNow => exact h
  | getDlqJobIds key =>
      simp only [State.exec]
      split <;> exact h
  | getJobDataMap id =>
      simp only [State.exec]
      split <;> exact h
  | dlqRemoveJob key id =>
      simp only [State.exec]
      split
      · split
        · exact noted_setWatch h rfl rfl
        · exact h
      · exact h
  | addJobToQueue queue id score =>
      simp only [State.exec]
      split
      · exact noted_setWatch h rfl rfl
      · exact h
  | updateJobFields id status queue =>
      simp only [State.exec]
      split <;> exact h

theorem noted_move {event : EnvEvent} {st after : State} (h : Noted st)
    (hm : event.move st = some after) : Noted after := by
  cases event with
  | call pid settings options =>
      obtain rfl := Option.some.inj hm
      exact h
  | crash pid =>
      obtain rfl := Option.some.inj hm
      exact h
  | advance now =>
      obtain ⟨-, hafter⟩ := Option.ite_none_right_eq_some.mp hm
      obtain rfl := Option.some.inj hafter
      exact h
  | worker command fault page =>
      obtain rfl := Option.some.inj hm
      exact fun pid id hw => noted_note (h pid) rfl id hw
  | client command fault page =>
      obtain rfl := Option.some.inj hm
      exact h

theorem noted_reach {s : Store} {pool : System}
    (hr : Reach system unraced (System.idle s) pool) : Noted pool.state := by
  induction hr with
  | start => exact nofun
  | step label _ _ hs ih =>
      cases label with
      | run pid chance =>
          simp only [Machine.step] at hs
          split at hs
          · obtain ⟨procs, -, rfl⟩ := Option.map_eq_some_iff.mp hs
            exact noted_exec pid _ chance ih
          · cases hs
      | env event =>
          obtain ⟨state, hmove, hs⟩ := Option.bind_eq_some_iff.mp hs
          obtain ⟨procs, -, rfl⟩ := Option.map_eq_some_iff.mp hs
          exact noted_move ih hmove

-- One operation of a requeue leaves the status of a job alone that it has not to update.
theorem status_exec {pid : Pid} {op : Op} {chance : Chance} {st : State} {id : JobId}
    (h : ∀ status queue, op = .updateJobFields id status queue → chance.fault = .none →
      st.store.status id = some status.asStr) :
    (State.exec pid op chance st).2.store.status id = st.store.status id := by
  cases op with
  | utcNow => rfl
  | getDlqJobIds key =>
      simp only [State.exec]
      split <;> rfl
  | getJobDataMap other =>
      simp only [State.exec]
      split <;> rfl
  | dlqRemoveJob key other =>
      simp only [State.exec]
      split
      · split <;> rfl
      · rfl
  | addJobToQueue queue other score =>
      simp only [State.exec]
      split <;> rfl
  | updateJobFields other status queue =>
      simp only [State.exec]
      split
      · by_cases ho : other = id
        · subst ho
          rw [Store.status_hset]
          exact (h status queue rfl ‹_›).symm
        · exact (Store.sameJob_hset (Ne.symm ho) st.store _).status
      · rfl

-- In every run of that kind no requeue changes the status of a job that a worker has written
-- since the requeue entered the job.
theorem status_kept {s : Store} {pool after : System} {pid : Pid} {chance : Chance} {id : JobId}
    (hr : Reach system unraced (System.idle s) pool)
    (ha : system.Admitted unraced pool (.run pid chance))
    (hs : system.step pool (.run pid chance) = some after)
    (hw : (pool.state.watch pid).wrote id = true) :
    after.state.store.status id = pool.state.store.status id := by
  have htouched := noted_reach hr pid id hw
  simp only [Machine.step] at hs
  split at hs
  case h_2 => cases hs
  case h_1 role op next hp =>
    obtain ⟨procs, -, rfl⟩ := Option.map_eq_some_iff.mp hs
    have hadmits := ha role op next hp
    apply status_exec
    rintro status queue rfl hfault
    exact hadmits hfault htouched

-- Two jobs in the list.
def failedPair : Store :=
  { Store.empty with
    jobs := fun id => if id = "j" ∨ id = "k" then
        some { value := { id := some id, status := some JobStatus.Failed.asStr } }
      else none
    dlq := fun key => if key = "rrq:dlq:default" then ["j", "k"] else [] }

def claimNext : EnvEvent :=
  .worker (.atomicClaimReadyJobs {
    queueKey := "rrq:queue:default"
    workerId := "w"
    nowMs := 0
    maxClaims := 1
    defaultLockTimeoutMs := 1000
    lockTimeoutExtensionSeconds := 0
    startTime := ⟨0⟩ })

-- A test that admits no update of a job that has been touched.
def untouched (pool : System) : Label Chance Pid EnvEvent → Bool
  | .run pid _ =>
      match pool.procs pid with
      | some (_, .call (.updateJobFields id _ _) _) => !(pool.state.watch pid).touched id
      | _ => true
  | .env _ => true

theorem admitted_of_untouched (pool : System) (label : Label Chance Pid EnvEvent)
    (h : untouched pool label = true) : system.Admitted unraced pool label := by
  cases label with
  | run pid chance =>
      intro role op next hp
      cases op with
      | updateJobFields id status queue =>
          intro _ htouched
          simp [untouched, hp, htouched] at h
      | _ => trivial
  | env event => exact fun _ _ => trivial

def wroteActive (pool : System) : Bool :=
  (pool.state.watch 0).wrote "j" && pool.state.store.status "j" = some JobStatus.Active.asStr

-- A worker claims a job once its hash is updated, and the requeue goes on with the next.
def orderlyRun : List (Label Chance Pid EnvEvent) :=
  .env (.call 0 {} everything) :: List.replicate 7 (.run 0 {}) ++ [.env claimNext]

-- A worker claims a job before its hash is updated.
def racingRun : List (Label Chance Pid EnvEvent) :=
  .env (.call 0 {} everything) :: List.replicate 6 (.run 0 {}) ++ [.env claimNext]

def statusAfter (pool : System) : Option (Option String) :=
  (system.step pool (.run 0 {})).map fun after => after.state.store.status "j"

theorem status_kept_orderly : ∃ pool after : System,
    Reach system unraced (System.idle failedPair) pool ∧
      system.step pool (.run 0 {}) = some after ∧
      after.state.store.status "j" = some JobStatus.Active.asStr := by
  have htest : (system.stepsWhere untouched orderlyRun (System.idle failedPair)).map
      (fun pool => wroteActive pool && untouched pool (.run 0 {}) &&
        (system.step pool (.run 0 {})).isSome) = some true := by decide +kernel
  obtain ⟨pool, hreach, htest⟩ := exists_reach_where .start admitted_of_untouched htest
  simp only [Bool.and_eq_true] at htest
  obtain ⟨⟨hactive, huntouched⟩, hstep⟩ := htest
  obtain ⟨hwrote, hactive⟩ := by simpa [wroteActive] using hactive
  obtain ⟨after, hafter⟩ := Option.isSome_iff_exists.mp hstep
  refine ⟨pool, after, hreach, hafter, ?_⟩
  rw [status_kept hreach (admitted_of_untouched pool _ huntouched) hafter hwrote]
  exact hactive

-- Nothing is assumed of a run.
def unrestricted : Assume Op Chance State Pid Unit EnvEvent where
  run _ _ _ _ _ := True
  env _ _ _ := True

theorem status_overwritten : ¬ ∀ (s : Store) (pool after : System) (pid : Pid) (chance : Chance)
    (id : JobId), Reach system unrestricted (System.idle s) pool →
      system.step pool (.run pid chance) = some after →
        (pool.state.watch pid).wrote id = true →
          after.state.store.status id = pool.state.store.status id := by
  intro h
  have htest : (system.steps racingRun (System.idle failedPair)).map (fun pool =>
      wroteActive pool &&
        decide (statusAfter pool = some (some JobStatus.Pending.asStr))) = some true := by
    decide +kernel
  have hadmitted : ∀ label ∈ racingRun, ∀ pool, system.Admitted unrestricted pool label := by
    intro label _ pool
    cases label with
    | run pid chance => exact fun _ _ _ _ => trivial
    | env event => exact fun _ _ => trivial
  obtain ⟨pool, hreach, htest⟩ := exists_reach .start hadmitted htest
  simp only [Bool.and_eq_true] at htest
  obtain ⟨hactive, hpending⟩ := htest
  obtain ⟨hwrote, hactive⟩ := by simpa [wroteActive] using hactive
  obtain ⟨after, hafter, hstatus⟩ := Option.map_eq_some_iff.mp (of_decide_eq_true hpending)
  have hsame := h failedPair pool after 0 {} "j" hreach hafter hwrote
  rw [hstatus, hactive] at hsame
  exact absurd hsame (by decide)

end Rrq.Dlq
