import Rrq.Producer
import Rrq.Producer.Created

-- Calls of enqueue under one idempotency key, side by side. Each runs its script as one step.

namespace Rrq.Producer

open Script

-- A call, and what is left of its program.
structure Call where
  options : EnqueueOptions
  program : Proc (Except EnqueueError JobId)

structure Session where
  world : World
  calls : Nat → Option Call

def Session.start (world : World) : Session := ⟨world, fun _ => none⟩

def Session.Returned (t : Session) (call : Nat) (answer : Except EnqueueError JobId) : Prop :=
  ∃ found, t.calls call = some found ∧ found.program = .ret answer

def Session.put (t : Session) (world : World) (call : Nat) (found : Call) : Session :=
  ⟨world, Function.update t.calls call (some found)⟩

theorem Session.put_self (t : Session) (world : World) (call : Nat) (found : Call) :
    (t.put world call found).calls call = some found :=
  Function.update_self ..

theorem Session.put_of_ne {t : Session} {world : World} {call other : Nat} {found : Call}
    (h : other ≠ call) : (t.put world call found).calls other = t.calls other :=
  Function.update_of_ne h ..

-- The store as the script of a call found it and left it.
structure Moment where
  call : Nat
  before : Store
  after : Store

-- The script stored a new job and queued it.
def Moment.Creates (m : Moment) : Prop :=
  ∃ id, m.before.jobs id = none ∧ (m.after.jobs id).isSome ∧ m.after.Queued id

def moments (call : Nat) (op : Op) (before after : Store) : List Moment :=
  match op with
  | .redis _ => [⟨call, before, after⟩]
  | _ => []

-- Others neither end the key nor store or delete the job that it names.
structure Undisturbed (idemKey : String) (s t : Store) : Prop where
  key : (t.idempotency idemKey).map Volatile.value = (s.idempotency idemKey).map Volatile.value
  job : ∀ id, (s.idempotency idemKey).map Volatile.value = some id →
    ((t.jobs id).isSome ↔ (s.jobs id).isSome)

-- A script runs as a whole or not at all.
def Whole (fault : Fault) : Prop := fault = .none ∨ fault = .refused

-- The calls under a key in any order, with what each script found and left.
inductive Runs (key : String) (start : Session) : List Moment → Session → Prop
  | start : Runs key start [] start
  | call {trace t} (call : Nat) (config : Config) (functionName : String) (params : Params)
      (options : EnqueueOptions) : Runs key start trace t → t.calls call = none →
      options.idempotencyKey = some key →
      Runs key start trace
        (t.put t.world call ⟨options, enqueue config functionName params options⟩)
  | act {trace t} (call : Nat) (chance : Chance) {options : EnqueueOptions} {op : Op}
      {next : op.Reply → Proc (Except EnqueueError JobId)} : Runs key start trace t →
      t.calls call = some ⟨options, .call op next⟩ → Whole chance.fault →
      Runs key start
        (trace ++ moments call op t.world.store (World.exec call .client op chance t.world).2.store)
        (t.put (World.exec call .client op chance t.world).2 call
          ⟨options, next (World.exec call .client op chance t.world).1⟩)
  | other {trace t} (world : World) : Runs key start trace t →
      Undisturbed (IDEMPOTENCY_KEY_PREFIX ++ key) t.world.store world.store →
      Runs key start trace { t with world }

-- What a call makes of the answer of the script.
def answered : Except RedisError Reply → Except EnqueueError JobId
  | .error error => .error (.redis error)
  | .ok (status, id) =>
      if status = 1 ∨ status = 0 then .ok id
      else if status = -1 then .error .jobIdExists
      else .error .unexpectedStatus

variable {idemKey : String} {args : JobArgs} {ttlSeconds : Int}

theorem enqueueJob_eq (idempotencyKey : Option String) :
    enqueueJob args idempotencyKey ttlSeconds =
      .call (.redis (.producerEnqueue args idempotencyKey ttlSeconds))
        fun answer => .ret (answered answer) := by
  refine congrArg (Prog.call (Op.redis (.producerEnqueue args idempotencyKey ttlSeconds)))
    (funext fun answer => ?_)
  cases answer with
  | error error => rfl
  | ok reply =>
      obtain ⟨status, id⟩ := reply
      simp only [answered, Prog.bind]
      split_ifs <;> rfl

-- The program has its script still to come, or was rejected without one.
inductive Asks (idemKey : String) (jobId : Option JobId) :
    Proc (Except EnqueueError JobId) → Prop
  | rejected (error : EnqueueError) : Asks idemKey jobId (.ret (.error error))
  | script (args : JobArgs) (ttlSeconds : Int) : (∀ id ∈ jobId, args.id = id) →
      Asks idemKey jobId (.call (.redis (.producerEnqueue args (some idemKey) ttlSeconds))
        fun answer => .ret (answered answer))
  | newId {next : String → Proc (Except EnqueueError JobId)} :
      (∀ text, Asks idemKey jobId (next text)) → Asks idemKey jobId (.call .newId next)
  | utcNow {next : DateTime → Proc (Except EnqueueError JobId)} :
      (∀ now, Asks idemKey jobId (next now)) → Asks idemKey jobId (.call .utcNow next)

theorem asks_jobArgs {jobId : Option JobId} {config : Config} {functionName : String}
    {params : Params} {options : EnqueueOptions} {schedule : DateTime → Option DateTime}
    {next : Except EnqueueError JobArgs → Proc (Except EnqueueError JobId)}
    (herror : ∀ error, Asks idemKey jobId (next (.error error)))
    (hargs : ∀ args, (∀ id ∈ options.jobId, args.id = id) → Asks idemKey jobId (next (.ok args))) :
    Asks idemKey jobId (jobArgs config functionName params options schedule >>= next) := by
  have hrest : ∀ id enqueueTime, (∀ given ∈ options.jobId, id = given) →
      Asks idemKey jobId (jobArgs config functionName params
        { options with jobId := some id, enqueueTime := some enqueueTime } schedule >>= next) := by
    intro id enqueueTime hid
    unfold jobArgs given
    simp only [Prog.pure_eq_ret, Prog.ret_bind]
    split
    · exact herror _
    · split_ifs
      · exact herror _
      · exact hargs _ hid
  unfold jobArgs given at *
  simp only [Prog.pure_eq_ret, Prog.ret_bind] at hrest
  cases hjob : options.jobId with
  | some id =>
      simp only [Prog.pure_eq_ret, Prog.ret_bind]
      cases henqueue : options.enqueueTime with
      | some time => exact hrest id time (by simp [hjob])
      | none => exact .utcNow fun now => hrest id now (by simp [hjob])
  | none =>
      refine .newId fun id => ?_
      cases henqueue : options.enqueueTime with
      | some time => exact hrest id time (by simp [hjob])
      | none => exact .utcNow fun now => hrest id now (by simp [hjob])

theorem enqueue_asks {key : String} (config : Config) (functionName : String) (params : Params)
    {options : EnqueueOptions} (hkey : options.idempotencyKey = some key) :
    Asks (IDEMPOTENCY_KEY_PREFIX ++ key) options.jobId
      (enqueue config functionName params options) := by
  unfold enqueue
  split
  · exact .rejected _
  · exact .rejected _
  · refine asks_jobArgs (fun error => .rejected error) fun args hid => ?_
    rw [hkey]
    simp only [Prog.pure_eq_ret]
    split
    · exact .rejected _
    · split_ifs
      · exact .rejected _
      · rw [enqueueJob_eq]
        exact .script args _ hid

-- What the script of a call does to the store, and what the call answers.
inductive Effect (idemKey : String) (args : JobArgs) (s : Store) :
    Except EnqueueError JobId → Store → Prop
  | found {id : JobId} : s.Hits (s.idempotency idemKey) id → Effect idemKey args s (.ok id) s
  | created (expireAt : Option Int) : (∀ id, ¬ s.Hits (s.idempotency idemKey) id) →
      s.jobs args.id = none →
      Effect idemKey args s (.ok args.id)
        (created args (s.setIdempotency idemKey (some ⟨args.id, expireAt⟩)))
  | rejected (error : EnqueueError) : (∀ id, ¬ s.Hits (s.idempotency idemKey) id) →
      Effect idemKey args s (.error error) (s.setIdempotency idemKey none)
  | refused (error : EnqueueError) : Effect idemKey args s (.error error) s

theorem effect_exec {fault : Fault} (hf : Whole fault) (page : Nat × List String) (s : Store) :
    Effect idemKey args s
      (answered (Cmd.exec fault page (.producerEnqueue args (some idemKey) ttlSeconds) s).1)
      (Cmd.exec fault page (.producerEnqueue args (some idemKey) ttlSeconds) s).2 := by
  rcases hf with rfl | rfl
  case inr => exact .refused _
  simp only [Cmd.exec, Cmd.script]
  by_cases hhit : ∃ id, s.Hits (s.idempotency idemKey) id
  · obtain ⟨id, hid⟩ := hhit
    rw [run_enqueueScript_hit hid]
    exact .found hid
  · have hmiss : ∀ id, ¬ s.Hits (s.idempotency idemKey) id := not_exists.mp hhit
    cases hjob : s.jobs args.id with
    | some cell =>
        rw [run_enqueueScript_taken hmiss (by rw [hjob]; rfl)]
        exact .rejected _ hmiss
    | none =>
        rcases run_enqueueScript_free ttlSeconds hmiss hjob with hrun | ⟨expireAt, hrun⟩
        · rw [hrun]
          exact .rejected _ hmiss
        · rw [hrun]
          exact .created expireAt hmiss hjob

section Effects

variable {s t : Store} {answer : Except EnqueueError JobId}

theorem hits_created (expireAt : Option Int) (h : s.jobs args.id = none) :
    let t := created args (s.setIdempotency idemKey (some ⟨args.id, expireAt⟩))
    t.Hits (t.idempotency idemKey) args.id := by
  intro t
  refine ⟨?_, ?_⟩
  · have hkey : t.idempotency idemKey = some ⟨args.id, expireAt⟩ := by
      simp [t, created_idempotency]
    rw [hkey]
    rfl
  · have hjobs := created_jobs (s := s.setIdempotency idemKey (some ⟨args.id, expireAt⟩)) h
    simp [t, hjobs]

theorem creates_created (idemKey : String) (call : Nat) (expireAt : Option Int)
    (h : s.jobs args.id = none) :
    (Moment.mk call s
      (created args (s.setIdempotency idemKey (some ⟨args.id, expireAt⟩)))).Creates := by
  have hqueues := created_queues (s := s.setIdempotency idemKey (some ⟨args.id, expireAt⟩)) h
  refine ⟨args.id, h, (hits_created expireAt h).2, args.queueName, ?_⟩
  simp [hqueues]

theorem not_creates_of_jobs {m : Moment} (h : m.after.jobs = m.before.jobs) : ¬ m.Creates := by
  rintro ⟨id, hnone, hsome, -⟩
  rw [h, hnone] at hsome
  cases hsome

-- What is on record of a script once its call has its answer.
inductive Done (idemKey : String) (jobId : Option JobId) (m : Moment) :
    Except EnqueueError JobId → Prop
  | found {id : JobId} : m.before.Hits (m.before.idempotency idemKey) id →
      m.after = m.before → Done idemKey jobId m (.ok id)
  | created {id : JobId} : (∀ given ∈ jobId, m.before.jobs given = none) → m.Creates →
      Done idemKey jobId m (.ok id)
  | rejected (error : EnqueueError) : m.after.jobs = m.before.jobs →
      m.after.queues = m.before.queues → Done idemKey jobId m (.error error)

theorem done_effect {jobId : Option JobId} (hid : ∀ id ∈ jobId, args.id = id) (call : Nat)
    (he : Effect idemKey args s answer t) : Done idemKey jobId ⟨call, s, t⟩ answer := by
  cases he with
  | found hhit => exact .found hhit rfl
  | created expireAt hmiss hfree =>
      exact .created (fun id hmem => hid id hmem ▸ hfree) (creates_created idemKey call expireAt hfree)
  | rejected error hmiss => exact .rejected error rfl rfl
  | refused error => exact .rejected error rfl rfl

end Effects

section Sessions

variable {key : String} {start t : Session} {trace : List Moment}

theorem returned_put {world : World} {call other : Nat} {found : Call}
    {answer : Except EnqueueError JobId} :
    (t.put world call found).Returned other answer ↔
      if other = call then found.program = .ret answer else t.Returned other answer := by
  unfold Session.Returned
  by_cases h : other = call
  · subst h
    simp [Session.put_self]
  · simp [Session.put_of_ne h, h]

def Session.Hits (idemKey : String) (t : Session) (id : JobId) : Prop :=
  t.world.store.Hits (t.world.store.idempotency idemKey) id

-- Until the key hits a job no call has come back with one. From then on it stays with that job.
inductive Phase (idemKey : String) (start : Session) (trace : List Moment) (t : Session) : Prop
  | waiting : (∀ id, ¬ start.Hits idemKey id) → (∀ id, ¬ t.Hits idemKey id) →
      (∀ m ∈ trace, ¬ m.Creates) → (∀ call id, ¬ t.Returned call (.ok id)) →
      Phase idemKey start trace t
  | settled (id : JobId) : t.Hits idemKey id →
      (∀ call other, t.Returned call (.ok other) → other = id) →
      ((∃ id, start.Hits idemKey id) ∨ ∃ m ∈ trace, m.Creates) →
      (∀ m ∈ trace, ∀ n ∈ trace, m.Creates → n.Creates → m.call = n.call) →
      Phase idemKey start trace t

theorem Phase.quiet {after : Session} (hp : Phase idemKey start trace t)
    (hhits : ∀ id, after.Hits idemKey id ↔ t.Hits idemKey id)
    (hok : ∀ call id, after.Returned call (.ok id) → t.Returned call (.ok id)) :
    Phase idemKey start trace after := by
  cases hp with
  | waiting hstart hnow hnone hnot =>
      exact .waiting hstart (fun id h => hnow id ((hhits id).mp h)) hnone
        fun call id h => hnot call id (hok call id h)
  | settled id hnow hsame hcreated honce =>
      exact .settled id ((hhits id).mpr hnow) (fun call other h => hsame call other (hok _ _ h))
        hcreated honce

theorem Phase.settledLater {m : Moment} {world : World} {call : Nat} {options : EnqueueOptions}
    {answer : Except EnqueueError JobId} {id : JobId} (hnow : t.Hits idemKey id)
    (hsame : ∀ call other, t.Returned call (.ok other) → other = id)
    (hcreated : (∃ id, start.Hits idemKey id) ∨ ∃ m ∈ trace, m.Creates)
    (honce : ∀ m ∈ trace, ∀ n ∈ trace, m.Creates → n.Creates → m.call = n.call)
    (hstore : world.store = t.world.store) (hm : ¬ m.Creates)
    (hanswer : ∀ other, answer = .ok other → other = id) :
    Phase idemKey start (trace ++ [m]) (t.put world call ⟨options, .ret answer⟩) := by
  have hlater : (t.put world call ⟨options, .ret answer⟩).Hits idemKey id := by
    change world.store.Hits (world.store.idempotency idemKey) id
    rw [hstore]
    exact hnow
  refine .settled id hlater (fun other found h => ?_) ?_ ?_
  · rw [returned_put] at h
    split_ifs at h with hc
    · exact hanswer found (Prog.ret.inj h)
    · exact hsame other found h
  · rcases hcreated with h | ⟨n, hn, hcreates⟩
    · exact .inl h
    · exact .inr ⟨n, List.mem_append_left _ hn, hcreates⟩
  · intro a ha b hb hca hcb
    rcases List.mem_append.mp ha with ha | ha
    · rcases List.mem_append.mp hb with hb | hb
      · exact honce a ha b hb hca hcb
      · exact absurd (List.mem_singleton.mp hb ▸ hcb) hm
    · exact absurd (List.mem_singleton.mp ha ▸ hca) hm

theorem Phase.waitingLater {m : Moment} {world : World} {call : Nat} {options : EnqueueOptions}
    {error : EnqueueError} (hstart : ∀ id, ¬ start.Hits idemKey id)
    (hnone : ∀ m ∈ trace, ¬ m.Creates) (hnot : ∀ call id, ¬ t.Returned call (.ok id))
    (hnow : ∀ id, ¬ world.store.Hits (world.store.idempotency idemKey) id) (hm : ¬ m.Creates) :
    Phase idemKey start (trace ++ [m]) (t.put world call ⟨options, .ret (.error error)⟩) := by
  refine .waiting hstart hnow (fun a ha => ?_) fun other id h => ?_
  · rcases List.mem_append.mp ha with ha | ha
    · exact hnone a ha
    · exact List.mem_singleton.mp ha ▸ hm
  · rw [returned_put] at h
    split_ifs at h
    · cases h
    · exact hnot other id h

theorem Phase.script {world : World} {call : Nat} {options : EnqueueOptions} {u : Store}
    {answer : Except EnqueueError JobId} (hp : Phase idemKey start trace t)
    (hu : world.store = u) (he : Effect idemKey args t.world.store answer u) :
    Phase idemKey start (trace ++ [⟨call, t.world.store, u⟩])
      (t.put world call ⟨options, .ret answer⟩) := by
  have hsame : ¬ (Moment.mk call t.world.store t.world.store).Creates :=
    not_creates_of_jobs rfl
  cases hp with
  | waiting hstart hnow hnone hnot =>
      cases he with
      | found hhit => exact absurd hhit (hnow _)
      | rejected error hmiss =>
          refine .waitingLater hstart hnone hnot (fun id h => ?_) (not_creates_of_jobs rfl)
          rw [hu] at h
          simp [Store.Hits] at h
      | refused error => exact .waitingLater hstart hnone hnot (hu ▸ hnow) hsame
      | created expireAt hmiss hfree =>
          have hcreates := creates_created idemKey call expireAt hfree
          refine .settled args.id ?_ (fun other id h => ?_)
            (.inr ⟨_, List.mem_append_right _ List.mem_cons_self, hcreates⟩) ?_
          · change world.store.Hits (world.store.idempotency idemKey) args.id
            rw [hu]
            exact hits_created expireAt hfree
          · rw [returned_put] at h
            split_ifs at h
            · exact (Except.ok.inj (Prog.ret.inj h)).symm
            · exact absurd h (hnot other id)
          · intro m hm n hn hcm hcn
            have hlast : ∀ {last m : Moment}, m ∈ trace ++ [last] → m.Creates → m = last := by
              intro last m hm hc
              rcases List.mem_append.mp hm with hm | hm
              · exact absurd hc (hnone m hm)
              · exact List.mem_singleton.mp hm
            rw [hlast hm hcm, hlast hn hcn]
  | settled id hnow hids hcreated honce =>
      cases he with
      | found hhit =>
          refine .settledLater hnow hids hcreated honce hu hsame fun other h => ?_
          exact Except.ok.inj h ▸ hhit.unique hnow
      | rejected error hmiss => exact absurd hnow (hmiss id)
      | refused error => exact .settledLater hnow hids hcreated honce hu hsame nofun
      | created expireAt hmiss hfree => exact absurd hnow (hmiss id)

-- What holds of the calls after any run.
structure Kept (idemKey : String) (start : Session) (trace : List Moment) (t : Session) :
    Prop where
  calls : ∀ call found, t.calls call = some found →
    (Asks idemKey found.options.jobId found.program ∧ ∀ m ∈ trace, m.call ≠ call) ∨
      ∃ answer, found.program = .ret answer
  done : ∀ m ∈ trace, ∃ found answer, t.calls m.call = some found ∧
    found.program = .ret answer ∧ Done idemKey found.options.jobId m answer
  once : trace.Pairwise fun m n => m.call ≠ n.call
  phase : Phase idemKey start trace t

theorem kept_start (world : World) : Kept idemKey (.start world) [] (.start world) where
  calls call found h := by cases h
  done m hm := absurd hm List.not_mem_nil
  once := .nil
  phase := by
    have hnot : ∀ call answer, ¬ (Session.start world).Returned call answer := by
      rintro call answer ⟨found, h, -⟩
      cases h
    have hempty : ∀ m ∈ ([] : List Moment), ¬ m.Creates := fun m hm =>
      absurd hm List.not_mem_nil
    by_cases h : ∃ id, (Session.start world).Hits idemKey id
    · obtain ⟨id, hid⟩ := h
      exact .settled id hid (fun call other h => absurd h (hnot call _)) (.inl ⟨id, hid⟩)
        fun m hm => absurd hm List.not_mem_nil
    · exact .waiting (not_exists.mp h) (not_exists.mp h) hempty fun call id => hnot call _

-- A call that starts, or goes on without its script.
theorem Kept.go {call : Nat} {options : EnqueueOptions}
    {program : Proc (Except EnqueueError JobId)} (hk : Kept idemKey start trace t)
    (hfree : ∀ m ∈ trace, m.call ≠ call)
    (hasks : Asks idemKey options.jobId program) :
    Kept idemKey start trace (t.put t.world call ⟨options, program⟩) where
  calls other found h := by
    by_cases ho : other = call
    · subst ho
      obtain rfl := Option.some.inj ((t.put_self _ _ _).symm.trans h)
      exact .inl ⟨hasks, hfree⟩
    · rw [Session.put_of_ne ho] at h
      exact hk.calls other found h
  done m hm := by
    obtain ⟨found, answer, hfound, hdone⟩ := hk.done m hm
    exact ⟨found, answer, (Session.put_of_ne (hfree m hm)).trans hfound, hdone⟩
  once := hk.once
  phase := hk.phase.quiet (fun _ => .rfl) fun other id h => by
    rw [returned_put] at h
    split_ifs at h
    · cases hasks with
      | rejected error => cases Prog.ret.inj h
      | script args ttlSeconds hid => cases h
      | newId hnext => cases h
      | utcNow hnext => cases h
    · exact h

-- A call runs its script and has its answer.
theorem Kept.finish {call : Nat} {options : EnqueueOptions} {world : World} {u : Store}
    {answer : Except EnqueueError JobId} (hk : Kept idemKey start trace t)
    (hfree : ∀ m ∈ trace, m.call ≠ call) (hid : ∀ id ∈ options.jobId, args.id = id)
    (hu : world.store = u) (he : Effect idemKey args t.world.store answer u) :
    Kept idemKey start (trace ++ [⟨call, t.world.store, u⟩])
      (t.put world call ⟨options, .ret answer⟩) where
  calls other found h := by
    by_cases ho : other = call
    · subst ho
      obtain rfl := Option.some.inj ((t.put_self _ _ _).symm.trans h)
      exact .inr ⟨answer, rfl⟩
    · rw [Session.put_of_ne ho] at h
      rcases hk.calls other found h with ⟨hasks, hnot⟩ | hret
      · refine .inl ⟨hasks, fun m hm => ?_⟩
        rcases List.mem_append.mp hm with hm | hm
        · exact hnot m hm
        · exact List.mem_singleton.mp hm ▸ Ne.symm ho
      · exact .inr hret
  done m hm := by
    rcases List.mem_append.mp hm with hm | hm
    · obtain ⟨found, answer, hfound, hdone⟩ := hk.done m hm
      exact ⟨found, answer, (Session.put_of_ne (hfree m hm)).trans hfound, hdone⟩
    · obtain rfl := List.mem_singleton.mp hm
      exact ⟨_, answer, t.put_self _ _ _, rfl, done_effect hid call he⟩
  once := by
    refine List.pairwise_append.mpr ⟨hk.once, List.pairwise_singleton _ _, fun m hm n hn => ?_⟩
    exact List.mem_singleton.mp hn ▸ hfree m hm
  phase := hk.phase.script hu he

theorem Kept.disturbed {world : World} (hk : Kept idemKey start trace t)
    (hd : Undisturbed idemKey t.world.store world.store) :
    Kept idemKey start trace { t with world } where
  calls := hk.calls
  done := hk.done
  once := hk.once
  phase := hk.phase.quiet (fun id => by
    unfold Session.Hits Store.Hits
    rw [hd.key]
    exact and_congr_right fun hkey => hd.job id hkey) fun _ _ h => h

theorem kept_runs {key : String} {world : World} {trace : List Moment} {t : Session}
    (h : Runs key (.start world) trace t) :
    Kept (IDEMPOTENCY_KEY_PREFIX ++ key) (.start world) trace t := by
  induction h with
  | start => exact kept_start world
  | call call config functionName params options _ hnew hkey ih =>
      refine ih.go (fun m hm hcall => ?_) (enqueue_asks config functionName params hkey)
      obtain ⟨found, answer, hfound, -⟩ := ih.done m hm
      rw [hcall, hnew] at hfound
      cases hfound
  | @act trace t call chance options op next _ hcall hwhole ih =>
      rcases ih.calls call _ hcall with ⟨hasks, hfree⟩ | ⟨answer, hret⟩
      · cases hasks with
        | script args ttlSeconds hid =>
            exact ih.finish hfree hid rfl (effect_exec hwhole chance.page t.world.store)
        | newId hnext =>
            rw [show moments call .newId _ _ = [] from rfl, List.append_nil]
            exact ih.go hfree (hnext chance.text)
        | utcNow hnext =>
            rw [show moments call .utcNow _ _ = [] from rfl, List.append_nil]
            exact ih.go hfree (hnext chance.now)
      · cases hret
  | other world _ hd ih => exact ih.disturbed hd

theorem Kept.same {call other : Nat} {id found : JobId} (hk : Kept idemKey start trace t)
    (h : t.Returned call (.ok id)) (ho : t.Returned other (.ok found)) : id = found := by
  cases hk.phase with
  | waiting hstart hnow hnone hnot => exact absurd h (hnot call id)
  | settled job hnow hsame hcreated honce =>
      exact (hsame call id h).trans (hsame other found ho).symm

theorem Kept.exists_job {call : Nat} {id : JobId} (hk : Kept idemKey start trace t)
    (h : t.Returned call (.ok id)) : (t.world.store.jobs id).isSome := by
  cases hk.phase with
  | waiting hstart hnow hnone hnot => exact absurd h (hnot call id)
  | settled job hnow hsame hcreated honce =>
      rw [hsame call id h]
      exact hnow.2

theorem Kept.creates_once (hk : Kept idemKey start trace t) :
    trace.Pairwise fun m n => ¬ (m.Creates ∧ n.Creates) := by
  refine List.Pairwise.imp_of_mem (fun {m n} hm hn hne => ?_) hk.once
  rintro ⟨hcm, hcn⟩
  cases hk.phase with
  | waiting hstart hnow hnone hnot => exact hnone m hm hcm
  | settled job hnow hsame hcreated honce => exact hne (honce m hm n hn hcm hcn)

theorem Kept.creates {call : Nat} {id : JobId} (hk : Kept idemKey start trace t)
    (hstart : ∀ id, ¬ start.Hits idemKey id) (h : t.Returned call (.ok id)) :
    ∃ m ∈ trace, m.Creates := by
  cases hk.phase with
  | waiting _ hnow hnone hnot => exact absurd h (hnot call id)
  | settled job hnow hsame hcreated honce =>
      rcases hcreated with ⟨other, ho⟩ | hm
      · exact absurd ho (hstart other)
      · exact hm

theorem Kept.done_of {m : Moment} {found : Call} (hk : Kept idemKey start trace t)
    (hm : m ∈ trace) (hfound : t.calls m.call = some found) :
    ∃ answer, found.program = .ret answer ∧ Done idemKey found.options.jobId m answer := by
  obtain ⟨other, answer, hother, hret, hdone⟩ := hk.done m hm
  obtain rfl := Option.some.inj (hother.symm.trans hfound)
  exact ⟨answer, hret, hdone⟩

theorem Kept.unchanged {m : Moment} {id : JobId} (hk : Kept idemKey start trace t)
    (hm : m ∈ trace) (h : t.Returned m.call (.ok id)) (hnot : ¬ m.Creates) :
    m.after = m.before := by
  obtain ⟨found, hfound, hret⟩ := h
  obtain ⟨answer, hanswer, hdone⟩ := hk.done_of hm hfound
  obtain rfl := Prog.ret.inj (hret.symm.trans hanswer)
  cases hdone with
  | found hhit hsame => exact hsame
  | created hfree hcreates => exact absurd hcreates hnot

-- An explicit id that is taken is turned down, unless the key hits a job.
theorem Kept.taken {m : Moment} {found : Call} {id : JobId} (hk : Kept idemKey start trace t)
    (hm : m ∈ trace) (hfound : t.calls m.call = some found)
    (hid : found.options.jobId = some id) (htaken : (m.before.jobs id).isSome)
    (hmiss : ∀ other, ¬ m.before.Hits (m.before.idempotency idemKey) other) :
    (∃ error, t.Returned m.call (.error error)) ∧ m.after.jobs = m.before.jobs ∧
      m.after.queues = m.before.queues := by
  obtain ⟨answer, hret, hdone⟩ := hk.done_of hm hfound
  cases hdone with
  | found hhit hsame => exact absurd hhit (hmiss _)
  | created hfree hcreates =>
      rw [hfree id hid] at htaken
      cases htaken
  | rejected error hjobs hqueues => exact ⟨⟨error, found, hfound, hret⟩, hjobs, hqueues⟩

-- While the key lasts and keeps its job, all calls that succeed come back with one id, one of
-- them at most creates the job, and the others change nothing.
theorem enqueue_idempotent {key : String} {world : World} {trace : List Moment} {t : Session}
    (h : Runs key (.start world) trace t) :
    (∀ call other id found, t.Returned call (.ok id) → t.Returned other (.ok found) →
      id = found) ∧
    (∀ call id, t.Returned call (.ok id) → (t.world.store.jobs id).isSome) ∧
    trace.Pairwise (fun m n => ¬ (m.Creates ∧ n.Creates)) ∧
    ((∀ id, ¬ (Session.start world).Hits (IDEMPOTENCY_KEY_PREFIX ++ key) id) →
      ∀ call id, t.Returned call (.ok id) → ∃ m ∈ trace, m.Creates) ∧
    (∀ m ∈ trace, ∀ id, t.Returned m.call (.ok id) → ¬ m.Creates → m.after = m.before) ∧
    (∀ m ∈ trace, ∀ found id, t.calls m.call = some found → found.options.jobId = some id →
      (m.before.jobs id).isSome →
      (∀ other, ¬ m.before.Hits (m.before.idempotency (IDEMPOTENCY_KEY_PREFIX ++ key)) other) →
      (∃ error, t.Returned m.call (.error error)) ∧ m.after.jobs = m.before.jobs ∧
        m.after.queues = m.before.queues) := by
  have hk := kept_runs h
  refine ⟨fun _ _ _ _ hc ho => hk.same hc ho, fun _ _ hc => hk.exists_job hc, hk.creates_once,
    fun hstart _ _ hc => hk.creates hstart hc, fun _ hm _ hc hnot => hk.unchanged hm hc hnot, ?_⟩
  exact fun _ hm _ _ hfound hid htaken hmiss => hk.taken hm hfound hid htaken hmiss

-- Two calls with ids of their own: the second comes back with the id of the first.

def sampleOptions (id : JobId) : EnqueueOptions :=
  { jobId := some id, idempotencyKey := some "k", enqueueTime := some ⟨0⟩ }

def sampleArgs (id : JobId) : JobArgs where
  id
  functionName := "f"
  jobParams := []
  enqueueTime := ⟨0⟩
  scheduledTime := ⟨0⟩
  maxRetries := 5
  jobTimeoutSeconds := 300
  resultTtlSeconds := 86400
  queueName := "rrq:queue:default"
  traceContext := none
  correlationContext := none

theorem correlationContextOf_unmapped {config : Config} (params : Params) (options : EnqueueOptions)
    (h : config.correlationMappings = []) : correlationContextOf config params options = none := by
  rw [correlationContextOf, h]
  rfl

theorem enqueue_sampleOptions (id : JobId) :
    enqueue {} "f" [] (sampleOptions id) =
      enqueueJob (sampleArgs id) (some (IDEMPOTENCY_KEY_PREFIX ++ "k")) 21600 := by
  have hname : validateName "function_name" "f" = .ok () := by decide
  have hqueue : validateName "queue_name" "rrq:queue:default" = .ok () := by decide
  have hkey : validateName "idempotency_key" "k" = .ok () := by decide
  have hnormal : normalizeQueueName "rrq:queue:default" = "rrq:queue:default" := by decide
  have hcontext : traceContextOf
      { jobId := some id, idempotencyKey := some "k", enqueueTime := some ⟨0⟩ } = none := rfl
  simp [enqueue, jobArgs, given, sampleOptions, sampleArgs, queueNameOf, idempotencyTtl, hname,
    hqueue, hkey, hnormal, hcontext, correlationContextOf_unmapped]

theorem Session.put_program {t : Session} {world : World} {call : Nat} {options : EnqueueOptions}
    {program other : Proc (Except EnqueueError JobId)} (h : program = other) :
    (t.put world call ⟨options, program⟩).calls call = some ⟨options, other⟩ :=
  h ▸ t.put_self world call _

-- What the script answers the call for a job.
def sampleAnswer (id : JobId) (s : Store) : Except RedisError Reply × Store :=
  Cmd.exec .none (0, [])
    (.producerEnqueue (sampleArgs id) (some (IDEMPOTENCY_KEY_PREFIX ++ "k")) 21600) s

theorem enqueue_idempotent_twice :
    ∃ trace : List Moment, ∃ t : Session, t.Returned 0 (.ok "a") ∧ t.Returned 1 (.ok "a") ∧
      (∃ m ∈ trace, m.Creates) ∧ (t.world.store.jobs "a").isSome := by
  have hprogram := fun id => (enqueue_sampleOptions id).trans (enqueueJob_eq _)
  have hstart : Runs "k" (.start (.ofStore .empty)) [] (.start (.ofStore .empty)) := .start
  have hcalls := (hstart.call 0 {} "f" [] (sampleOptions "a") rfl rfl).call 1 {} "f" []
    (sampleOptions "b") rfl rfl
  have hfirst := hcalls.act 0 {}
    ((Session.put_of_ne zero_ne_one).trans (Session.put_program (hprogram "a"))) (.inl rfl)
  have hsecond := hfirst.act 1 {}
    ((Session.put_of_ne one_ne_zero).trans (Session.put_program (hprogram "b"))) (.inl rfl)
  obtain ⟨hsame, hjob, -, hcreates, -⟩ := enqueue_idempotent hsecond
  have hanswer : answered (sampleAnswer "a" .empty).1 = .ok "a" := by decide +kernel
  have hother : answered (sampleAnswer "b" (sampleAnswer "a" .empty).2).1 = .ok "a" := by
    decide +kernel
  have ha : ∀ (t : Session) (first second : World) (found : Call),
      ((t.put first 0 ⟨sampleOptions "a", .ret (answered (sampleAnswer "a" .empty).1)⟩).put second 1
        found).Returned 0 (.ok "a") := fun t first second found =>
    ⟨_, (Session.put_of_ne zero_ne_one).trans (t.put_self ..), congrArg Prog.ret hanswer⟩
  have hb : ∀ (t : Session) (world : World),
      (t.put world 1 ⟨sampleOptions "b",
        .ret (answered (sampleAnswer "b" (sampleAnswer "a" .empty).2).1)⟩).Returned 1 (.ok "a") :=
    fun t world => ⟨_, t.put_self .., congrArg Prog.ret hother⟩
  exact ⟨_, _, ha _ _ _ _, hb _ _, hcreates (fun id hid => nomatch hid.1) 0 "a" (ha _ _ _ _),
    hjob 0 "a" (ha _ _ _ _)⟩

end Sessions

end Rrq.Producer
