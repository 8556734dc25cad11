import Rrq.Producer.Calls

-- Calls under one rate limit key, side by side. Each runs its script as one step.

namespace Rrq

theorem asI64_intCast {n : Int} (h : InI64 n) : asI64 n = n := by
  obtain ⟨hlow, hhigh⟩ := h
  unfold asI64
  simp only [Int.floor_intCast, Int.ceil_intCast, ite_self]
  omega

namespace Producer

-- The window rounded up to seconds, exactly.
def Duration.secondsUp (window : Duration) : Int :=
  window.seconds + if window.nanos = 0 then 0 else 1

-- A window that a caller can give and that a rate limit is exact about.
structure Duration.Fits (window : Duration) : Prop where
  seconds : window.seconds < 2 ^ 53
  nanos : window.nanos < 1000000000

section Window

variable {window : Duration}

-- The part of a second, as the call has it in floating point.
def Duration.fraction (window : Duration) : ℚ := Double.round (window.nanos / 1000000000)

theorem Duration.Fits.fraction (h : window.Fits) :
    0 ≤ window.fraction ∧ window.fraction < 1 ∧ (window.nanos = 0 → window.fraction = 0) ∧
      (0 < window.nanos → 1 / 2 ^ 30 < window.fraction) := by
  have hbound : (window.nanos : ℚ) ≤ 999999999 := by
    exact_mod_cast Nat.le_of_lt_succ h.nanos
  have hnonneg : (0 : ℚ) ≤ window.nanos / 1000000000 := by positivity
  by_cases hzero : window.nanos = 0
  · have hfraction : window.fraction = 0 := by simp [Duration.fraction, hzero, Double.round]
    rw [hfraction]
    exact ⟨le_rfl, by norm_num, fun _ => rfl, fun hpos => absurd hzero hpos.ne'⟩
  · have hone : (1 : ℚ) ≤ window.nanos := by exact_mod_cast Nat.one_le_iff_ne_zero.mpr hzero
    have hne : (window.nanos / 1000000000 : ℚ) ≠ 0 := by positivity
    have hless : |(window.nanos / 1000000000 : ℚ)| < (2 : ℚ) ^ (0 : Int) := by
      rw [abs_of_nonneg hnonneg, zpow_zero, div_lt_one (by norm_num)]
      linarith
    have hunit := Double.unit_le hne hless
    have herror := Double.abs_round_sub_le (window.nanos / 1000000000)
    rw [abs_le] at herror
    change 0 ≤ Double.round _ ∧ Double.round _ < 1 ∧ _ ∧ (_ → _ < Double.round _)
    refine ⟨?_, ?_, fun h => absurd h hzero, fun _ => ?_⟩ <;> norm_num at hunit ⊢ <;> linarith

-- The window in seconds, as the call has it in floating point.
def Duration.secsF64 (window : Duration) : ℚ := Double.round (window.seconds + window.fraction)

-- Adding the fraction may lose it, and never rounds past the next second.
theorem Duration.Fits.secsF64_bounds (h : window.Fits) :
    (window.seconds : ℚ) ≤ window.secsF64 ∧ window.secsF64 ≤ window.secondsUp := by
  obtain ⟨hlow, hhigh, hzero, -⟩ := h.fraction
  have hseconds : (window.seconds : ℚ) + 1 ≤ 2 ^ 53 := by exact_mod_cast h.seconds
  have habs : |(window.seconds : ℚ) + window.fraction| < 2 ^ 53 := by
    rw [abs_of_nonneg (by positivity)]
    linarith
  constructor
  · have hdown : ((window.seconds : Int) : ℚ) ≤ window.secsF64 :=
      Double.le_round habs (by push_cast; linarith)
    exact_mod_cast hdown
  · refine Double.round_le habs ?_
    unfold Duration.secondsUp
    split_ifs with hnanos
    · simp [hzero hnanos]
    · push_cast
      linarith

theorem Duration.Fits.ceilSeconds_ceil (h : window.Fits) :
    window.ceilSeconds = ⌈window.secsF64⌉ := by
  have hseconds := h.seconds
  obtain ⟨hlow, hhigh⟩ := h.secsF64_bounds
  have hfirst : (window.seconds : Int) ≤ ⌈window.secsF64⌉ := by
    exact_mod_cast hlow.trans (Int.le_ceil _)
  have hlast : ⌈window.secsF64⌉ ≤ window.secondsUp := Int.ceil_le.mpr hhigh
  have htop : window.secondsUp ≤ window.seconds + 1 := by
    unfold Duration.secondsUp
    split_ifs <;> omega
  have hwhole : Double.round (window.seconds : ℚ) = window.seconds := by
    have hsmall : |(window.seconds : Int)| < 2 ^ 53 := by
      rw [abs_of_nonneg (by positivity)]
      exact_mod_cast hseconds
    exact_mod_cast Double.round_intCast hsmall
  have hrange : InI64 ⌈window.secsF64⌉ := by
    unfold InI64 I64_MIN I64_MAX
    omega
  unfold Duration.ceilSeconds Double.add
  rw [hwhole]
  exact asI64_intCast hrange

theorem Duration.Fits.ceilSeconds_bounds (h : window.Fits) :
    window.seconds ≤ window.ceilSeconds ∧ window.ceilSeconds ≤ window.secondsUp := by
  obtain ⟨hlow, hhigh⟩ := h.secsF64_bounds
  rw [h.ceilSeconds_ceil]
  exact ⟨by exact_mod_cast hlow.trans (Int.le_ceil _), Int.ceil_le.mpr hhigh⟩

-- A window below 2^23 seconds, or of whole seconds, is rounded up as it should be.
theorem Duration.Fits.ceilSeconds_eq (h : window.Fits)
    (hw : window.seconds < 2 ^ 23 ∨ window.nanos = 0) :
    window.ceilSeconds = window.secondsUp := by
  obtain ⟨hlow, hhigh⟩ := h.ceilSeconds_bounds
  by_cases hnanos : window.nanos = 0
  · have hwhole : window.secondsUp = window.seconds := by simp [Duration.secondsUp, hnanos]
    omega
  · have hsmall : window.seconds < 2 ^ 23 := hw.resolve_right hnanos
    obtain ⟨hnonneg, hless, -, hpos⟩ := h.fraction
    have hfraction := hpos (Nat.pos_of_ne_zero hnanos)
    have htotal : (window.seconds : ℚ) + 1 ≤ 2 ^ 23 := by exact_mod_cast hsmall
    have hunit : Double.unit (window.seconds + window.fraction) ≤ (2 : ℚ) ^ (24 - 53 : Int) := by
      refine Double.unit_le (by positivity) ?_
      rw [abs_of_nonneg (by positivity)]
      norm_num at htotal ⊢
      linarith
    have herror := Double.abs_round_sub_le (window.seconds + window.fraction)
    rw [abs_le] at herror
    have habove : ((window.seconds : Int) : ℚ) < window.secsF64 := by
      unfold Duration.secsF64
      norm_num at hunit hfraction ⊢
      linarith
    have hnext : window.seconds + 1 ≤ ⌈window.secsF64⌉ := Int.lt_ceil.mpr habove
    have htop : window.secondsUp = window.seconds + 1 := by simp [Duration.secondsUp, hnanos]
    rw [h.ceilSeconds_ceil] at hhigh ⊢
    omega

end Window

-- Redis tells the time in milliseconds, and a window beyond it is still a 64-bit number.
def ClockOk (now : Int) : Prop := 0 ≤ now ∧ now + 2 ^ 53 * 1000 ≤ I64_MAX

theorem luaSeconds_eq {n : Int} (hn : 0 ≤ n) (h : n ≤ 2 ^ 53) : luaSeconds n = n := by
  rcases h.lt_or_eq with hlt | rfl
  · have hround : Double.round n = n := Double.round_intCast (by rwa [abs_of_nonneg hn])
    rw [luaSeconds, hround, Rat.num_intCast]
  · decide +kernel

section Script

open Script

variable {s : Store} {args : JobArgs} {rateKey : String} {window : Duration}

-- The cell that a call puts under a free key.
def rateCell (args : JobArgs) (window : Duration) (s : Store) : Volatile JobId :=
  ⟨args.id, some (s.now + window.ceilSeconds * 1000)⟩

theorem setRateLimitNx (hw : window.Fits) (hpos : 0 < window.ceilSeconds) (hclock : ClockOk s.now) :
    s.setKeyNx (s.rateLimits rateKey) (s.setRateLimit rateKey) args.id
        (some (luaSeconds window.ceilSeconds)) =
      if (s.rateLimits rateKey).isSome then some (false, s)
      else some (true, s.setRateLimit rateKey (some (rateCell args window s))) := by
  have hseconds := hw.seconds
  obtain ⟨-, hhigh⟩ := hw.ceilSeconds_bounds
  have htop : window.secondsUp ≤ window.seconds + 1 := by
    unfold Duration.secondsUp
    split_ifs <;> omega
  obtain ⟨hnow, hfar⟩ := hclock
  have hexpiry : 0 < window.ceilSeconds ∧ s.ExpiryOk (window.ceilSeconds * 1000) := by
    unfold Store.ExpiryOk InI64
    unfold I64_MIN I64_MAX at *
    omega
  rw [luaSeconds_eq hpos.le (by omega), Store.setKeyNx, if_pos hexpiry]
  rfl

theorem run_rateLimitScript (hw : window.Fits) (hpos : 0 < window.ceilSeconds)
    (hclock : ClockOk s.now) :
    (rateLimitScript args rateKey window.ceilSeconds).run none s =
      if (s.rateLimits rateKey).isSome then (some (2, ""), s)
      else if (s.jobs args.id).isSome then (some (-1, args.id), s)
      else (some (1, args.id),
        created args (s.setRateLimit rateKey (some (rateCell args window s)))) := by
  unfold rateLimitScript
  rw [if_neg (not_le.mpr hpos), run_call_bind, setRateLimitNx hw hpos hclock]
  by_cases hheld : (s.rateLimits rateKey).isSome
  · simp only [if_pos hheld, Bool.false_eq_true, if_false, pure_eq, run_pure]
  · have hfree : s.rateLimits rateKey = none := by simpa using hheld
    have hundone : (s.setRateLimit rateKey (some (rateCell args window s))).setRateLimit rateKey
        none = s := by
      simp [Store.setRateLimit, ← hfree]
    simp only [if_neg hheld, if_true, run_ask_bind, Store.setRateLimit_jobs]
    by_cases htaken : (s.jobs args.id).isSome
    · simp only [if_pos htaken, run_write_bind, pure_eq, run_pure, hundone]
    · simp only [if_neg htaken, run_create]

end Script

-- A call, its window and what is left of its program.
structure LimitedCall where
  window : Duration
  program : Proc (Except EnqueueError (Option JobId))

structure Throttle where
  world : World
  calls : Nat → Option LimitedCall

def Throttle.start (world : World) : Throttle := ⟨world, fun _ => none⟩

def Throttle.Returned (t : Throttle) (call : Nat) (answer : Except EnqueueError (Option JobId)) :
    Prop :=
  ∃ window, t.calls call = some ⟨window, .ret answer⟩

def Throttle.put (t : Throttle) (world : World) (call : Nat) (found : LimitedCall) : Throttle :=
  ⟨world, Function.update t.calls call (some found)⟩

-- The store as the script of a call found it and left it, and whether Redis refused the script.
structure Turn extends Moment where
  window : Duration
  fault : Fault

-- When a key that the turn has taken ends.
def Turn.ends (m : Turn) : Int := m.before.now + m.window.ceilSeconds * 1000

def turns (call : Nat) (window : Duration) (fault : Fault) (op : Op) (before after : Store) :
    List Turn :=
  match op with
  | .redis _ => [⟨⟨call, before, after⟩, window, fault⟩]
  | _ => []

-- The calls under a key in any order, with what each script found and left. Time passes
-- between them, and others leave the key alone.
inductive Throttled (rateKey : String) (start : Throttle) : List Turn → Throttle → Prop
  | start : Throttled rateKey start [] start
  | call {trace t} (call : Nat) (config : Config) (functionName : String) (params : Params)
      (options : EnqueueOptions) (key : String) (window : Duration) :
      Throttled rateKey start trace t → t.calls call = none →
      withPrefix RATE_LIMIT_KEY_PREFIX key = rateKey → window.Fits →
      Throttled rateKey start trace (t.put t.world call
        ⟨window, enqueueWithRateLimit config functionName params options key window⟩)
  | act {trace t} (call : Nat) (chance : Chance) {window : Duration} {op : Op}
      {next : op.Reply → Proc (Except EnqueueError (Option JobId))} :
      Throttled rateKey start trace t → t.calls call = some ⟨window, .call op next⟩ →
      Whole chance.fault →
      Throttled rateKey start
        (trace ++ turns call window chance.fault op t.world.store
          (World.exec call .client op chance t.world).2.store)
        (t.put (World.exec call .client op chance t.world).2 call
          ⟨window, next (World.exec call .client op chance t.world).1⟩)
  | pass {trace t} (now : Int) : Throttled rateKey start trace t → t.world.store.now ≤ now →
      ClockOk now →
      Throttled rateKey start trace
        { t with world := { t.world with store := t.world.store.advance now } }
  | other {trace t} (world : World) : Throttled rateKey start trace t →
      world.store.now = t.world.store.now →
      world.store.rateLimits rateKey = t.world.store.rateLimits rateKey →
      Throttled rateKey start trace { t with world }

section Throttled

variable {rateKey : String} {start t : Throttle} {trace : List Turn}

theorem Throttle.put_self (t : Throttle) (world : World) (call : Nat) (found : LimitedCall) :
    (t.put world call found).calls call = some found :=
  Function.update_self ..

theorem Throttle.put_of_ne {world : World} {call other : Nat} {found : LimitedCall}
    (h : other ≠ call) : (t.put world call found).calls other = t.calls other :=
  Function.update_of_ne h ..

-- What a script does, and what the call makes of it.
inductive Outcome (rateKey : String) (m : Turn) : Except EnqueueError (Option JobId) → Prop
  | refused : m.fault ≠ .none → m.after = m.before → Outcome rateKey m (.error (.redis .failed))
  | held : m.fault = .none → (m.before.rateLimits rateKey).isSome → m.after = m.before →
      Outcome rateKey m (.ok none)
  | taken : m.fault = .none → m.before.rateLimits rateKey = none → m.after = m.before →
      Outcome rateKey m (.error .jobIdExists)
  | created {id : JobId} : m.fault = .none → m.before.rateLimits rateKey = none → m.Creates →
      m.after.now = m.before.now →
      m.after.rateLimits rateKey = some ⟨id, some m.ends⟩ →
      Outcome rateKey m (.ok (some id))

theorem Outcome.quiet {m : Turn} {answer : Except EnqueueError (Option JobId)}
    (h : Outcome rateKey m answer) :
    (¬ m.Creates ∧ m.after = m.before) ∨ ∃ id, answer = .ok (some id) ∧ m.Creates := by
  have hsame : m.after = m.before → ¬ m.Creates := fun hafter =>
    not_creates_of_jobs (congrArg Store.jobs hafter)
  cases h with
  | refused _ hafter => exact .inl ⟨hsame hafter, hafter⟩
  | held _ _ hafter => exact .inl ⟨hsame hafter, hafter⟩
  | taken _ _ hafter => exact .inl ⟨hsame hafter, hafter⟩
  | created _ _ hcreates _ _ => exact .inr ⟨_, rfl, hcreates⟩

theorem created_rateLimits (args : JobArgs) (s : Store) :
    (created args s).rateLimits = s.rateLimits ∧ (created args s).now = s.now := by
  unfold created Store.hset
  cases s.jobs args.id <;> exact ⟨rfl, rfl⟩

theorem outcome_exec {args : JobArgs} {window : Duration} {fault : Fault} (hf : Whole fault)
    (hw : window.Fits) (hpos : 0 < window.ceilSeconds) (call : Nat) (page : Nat × List String)
    (s : Store) (hclock : ClockOk s.now) :
    Outcome rateKey ⟨⟨call, s, (Cmd.exec fault page
        (.producerRateLimit args rateKey window.ceilSeconds) s).2⟩, window, fault⟩
      (limited (Cmd.exec fault page (.producerRateLimit args rateKey window.ceilSeconds) s).1) := by
  rcases hf with rfl | rfl
  case inr => exact .refused nofun rfl
  simp only [Cmd.exec, Cmd.script, run_rateLimitScript hw hpos hclock]
  by_cases hheld : (s.rateLimits rateKey).isSome
  · simp only [if_pos hheld]
    exact .held rfl hheld rfl
  · have hfree : s.rateLimits rateKey = none := by simpa using hheld
    simp only [if_neg hheld]
    by_cases htaken : (s.jobs args.id).isSome
    · simp only [if_pos htaken]
      exact .taken rfl hfree rfl
    · have hnew : s.jobs args.id = none := by simpa using htaken
      simp only [if_neg htaken]
      obtain ⟨hkeys, hnow⟩ := created_rateLimits args
        (s.setRateLimit rateKey (some (rateCell args window s)))
      have hjobs := created_jobs (s := s.setRateLimit rateKey (some (rateCell args window s))) hnew
      have hqueues :=
        created_queues (s := s.setRateLimit rateKey (some (rateCell args window s))) hnew
      refine .created rfl hfree ⟨args.id, hnew, ?_, args.queueName, ?_⟩ hnow ?_
      · simp [hjobs]
      · simp [hqueues]
      · rw [hkeys]
        exact Function.update_self ..

-- What a call still has to do.
abbrev Asking (rateKey : String) (found : LimitedCall) : Prop :=
  Prepares TurnedDown (fun program => ∃ args, 0 < found.window.ceilSeconds ∧
    program = rateLimitCall args rateKey found.window.ceilSeconds) found.program

-- What holds of the calls after any run.
structure Limits (rateKey : String) (trace : List Turn) (t : Throttle) : Prop where
  clock : ClockOk t.world.store.now
  fits : ∀ call found, t.calls call = some found → found.window.Fits
  calls : ∀ call found, t.calls call = some found → (∀ m ∈ trace, m.call ≠ call) →
    Asking rateKey found
  turns : ∀ m ∈ trace, ∃ answer, t.calls m.call = some ⟨m.window, .ret answer⟩ ∧
    Outcome rateKey m answer
  -- A key that was taken is held until it ends.
  held : ∀ m ∈ trace, m.Creates → m.ends ≤ t.world.store.now ∨
    ∃ cell time, t.world.store.rateLimits rateKey = some cell ∧ cell.expireAt = some time ∧
      m.ends ≤ time
  apart : trace.Pairwise fun m n => m.Creates → n.Creates → m.ends ≤ n.before.now

-- A call that starts, or goes on without its script.
theorem Limits.go {call : Nat} {found : LimitedCall} (hk : Limits rateKey trace t)
    (hfree : ∀ m ∈ trace, m.call ≠ call) (hfits : found.window.Fits)
    (hasks : Asking rateKey found) : Limits rateKey trace (t.put t.world call found) where
  clock := hk.clock
  fits other known h := by
    by_cases ho : other = call
    · subst ho
      obtain rfl := Option.some.inj ((t.put_self _ _ _).symm.trans h)
      exact hfits
    · exact hk.fits other known ((Throttle.put_of_ne ho).symm.trans h)
  calls other known h hnot := by
    by_cases ho : other = call
    · subst ho
      obtain rfl := Option.some.inj ((t.put_self _ _ _).symm.trans h)
      exact hasks
    · exact hk.calls other known ((Throttle.put_of_ne ho).symm.trans h) hnot
  turns m hm := by
    obtain ⟨answer, hanswer, hout⟩ := hk.turns m hm
    exact ⟨answer, (Throttle.put_of_ne (hfree m hm)).trans hanswer, hout⟩
  held := hk.held
  apart := hk.apart

-- A script that creates a job finds the key free.
theorem Outcome.free {m : Turn} {answer : Except EnqueueError (Option JobId)}
    (h : Outcome rateKey m answer) (hm : m.Creates) :
    m.before.rateLimits rateKey = none ∧ m.after.now = m.before.now ∧
      ∃ id, m.after.rateLimits rateKey = some ⟨id, some m.ends⟩ := by
  have hnot : m.after = m.before → ¬ m.Creates := fun hafter =>
    not_creates_of_jobs (congrArg Store.jobs hafter)
  cases h with
  | refused _ hafter => exact absurd hm (hnot hafter)
  | held _ _ hafter => exact absurd hm (hnot hafter)
  | taken _ _ hafter => exact absurd hm (hnot hafter)
  | created _ hfree _ hnow hkey => exact ⟨hfree, hnow, _, hkey⟩

-- A call runs its script and has its answer.
theorem Limits.finish {call : Nat} {window : Duration} {fault : Fault} {world : World}
    {answer : Except EnqueueError (Option JobId)} (hk : Limits rateKey trace t)
    (hfree : ∀ m ∈ trace, m.call ≠ call) (hfits : window.Fits)
    (hout : Outcome rateKey ⟨⟨call, t.world.store, world.store⟩, window, fault⟩ answer) :
    Limits rateKey (trace ++ [⟨⟨call, t.world.store, world.store⟩, window, fault⟩])
      (t.put world call ⟨window, .ret answer⟩) := by
  let last : Turn := ⟨⟨call, t.world.store, world.store⟩, window, fault⟩
  have hnow : world.store.now = t.world.store.now := by
    by_cases hc : last.Creates
    · exact (hout.free hc).2.1
    · rcases hout.quiet with ⟨-, hafter⟩ | ⟨-, -, hcreates⟩
      · exact congrArg Store.now hafter
      · exact absurd hcreates hc
  -- Where the key is free, all that was taken before has ended.
  have hended : last.Creates → ∀ m ∈ trace, m.Creates → m.ends ≤ t.world.store.now := by
    intro hc m hm hmc
    rcases hk.held m hm hmc with h | ⟨cell, time, hcell, -⟩
    · exact h
    · have hnone : t.world.store.rateLimits rateKey = none := (hout.free hc).1
      rw [hnone] at hcell
      cases hcell
  constructor
  case clock => exact hnow ▸ hk.clock
  case fits =>
    intro other known h
    by_cases ho : other = call
    · subst ho
      obtain rfl := Option.some.inj ((t.put_self _ _ _).symm.trans h)
      exact hfits
    · exact hk.fits other known ((Throttle.put_of_ne ho).symm.trans h)
  case calls =>
    intro other known h hnot
    by_cases ho : other = call
    · exact absurd ho.symm (hnot _ (List.mem_append_right _ List.mem_cons_self))
    · exact hk.calls other known ((Throttle.put_of_ne ho).symm.trans h)
        fun m hm => hnot m (List.mem_append_left _ hm)
  case turns =>
    intro m hm
    rcases List.mem_append.mp hm with hm | hm
    · obtain ⟨answer, hanswer, hout⟩ := hk.turns m hm
      exact ⟨answer, (Throttle.put_of_ne (hfree m hm)).trans hanswer, hout⟩
    · obtain rfl := List.mem_singleton.mp hm
      exact ⟨answer, t.put_self _ _ _, hout⟩
  case held =>
    intro m hm hmc
    change m.ends ≤ world.store.now ∨ ∃ cell time, world.store.rateLimits rateKey = some cell ∧ _
    rcases List.mem_append.mp hm with hm | hm
    · by_cases hc : last.Creates
      · exact .inl (hnow ▸ hended hc m hm hmc)
      · rcases hout.quiet with ⟨-, hafter⟩ | ⟨-, -, hcreates⟩
        · have hstore : world.store = t.world.store := hafter
          rw [hstore]
          exact hk.held m hm hmc
        · exact absurd hcreates hc
    · obtain rfl := List.mem_singleton.mp hm
      obtain ⟨-, -, id, hkey⟩ := hout.free hmc
      exact .inr ⟨_, _, hkey, rfl, le_rfl⟩
  case apart =>
    refine List.pairwise_append.mpr ⟨hk.apart, List.pairwise_singleton _ _, fun m hm n hn => ?_⟩
    obtain rfl := List.mem_singleton.mp hn
    exact fun hmc hc => hended hc m hm hmc

theorem Limits.pass {now : Int} (hk : Limits rateKey trace t)
    (hlater : t.world.store.now ≤ now) (hclock : ClockOk now) :
    Limits rateKey trace
      { t with world := { t.world with store := t.world.store.advance now } } where
  clock := hclock
  fits := hk.fits
  calls := hk.calls
  turns := hk.turns
  held m hm hc := by
    change m.ends ≤ now ∨ ∃ cell time,
      (t.world.store.rateLimits rateKey).filter (Volatile.liveAt now) = some cell ∧ _
    rcases hk.held m hm hc with h | ⟨cell, time, hcell, htime, hends⟩
    · exact .inl (h.trans hlater)
    · by_cases hlive : now < time
      · have hkept : Volatile.liveAt now cell = true := by simp [Volatile.liveAt, htime, hlive]
        exact .inr ⟨cell, time, by rw [hcell, Option.filter_some, if_pos hkept], htime, hends⟩
      · exact .inl (hends.trans (not_lt.mp hlive))
  apart := hk.apart

theorem Limits.other {world : World} (hk : Limits rateKey trace t)
    (hnow : world.store.now = t.world.store.now)
    (hkey : world.store.rateLimits rateKey = t.world.store.rateLimits rateKey) :
    Limits rateKey trace { t with world } where
  clock := hnow ▸ hk.clock
  fits := hk.fits
  calls := hk.calls
  turns := hk.turns
  held m hm hc := by
    change m.ends ≤ world.store.now ∨ ∃ cell time, world.store.rateLimits rateKey = some cell ∧ _
    rw [hnow, hkey]
    exact hk.held m hm hc
  apart := hk.apart

theorem limits_throttled {world : World} (hclock : ClockOk world.store.now)
    (h : Throttled rateKey (.start world) trace t) : Limits rateKey trace t := by
  induction h with
  | start =>
      refine ⟨hclock, nofun, nofun, fun m hm => ?_, fun m hm => ?_, .nil⟩ <;>
        exact absurd hm List.not_mem_nil
  | call call config functionName params options key window _ hnew hkey hfits ih =>
      refine ih.go (fun m hm hcall => ?_) hfits ?_
      · obtain ⟨answer, hanswer, -⟩ := ih.turns m hm
        rw [hcall, hnew] at hanswer
        cases hanswer
      · refine enqueueWithRateLimit_prepares.mono ?_
        rintro program ⟨args, -, hpos, rfl⟩
        exact ⟨args, hpos, hkey ▸ rfl⟩
  | @act trace t call chance window op next _ hcall hwhole ih =>
      have hfree : ∀ m ∈ trace, m.call ≠ call := by
        intro m hm heq
        obtain ⟨answer, hanswer, -⟩ := ih.turns m hm
        rw [heq, hcall] at hanswer
        cases hanswer
      have hfits := ih.fits call _ hcall
      have hasks := ih.calls call _ hcall hfree
      unfold Asking at hasks
      dsimp only at hasks
      cases hasks with
      | script hscript =>
          obtain ⟨args, hpos, hprogram⟩ := hscript
          unfold rateLimitCall at hprogram
          obtain ⟨rfl, hnext⟩ := Prog.call.inj hprogram
          obtain rfl := eq_of_heq hnext
          exact ih.finish hfree hfits (outcome_exec hwhole hfits hpos call chance.page _ ih.clock)
      | newId hnext =>
          simp only [turns, List.append_nil]
          exact ih.go hfree hfits (hnext _)
      | utcNow hnext =>
          simp only [turns, List.append_nil]
          exact ih.go hfree hfits (hnext _)
  | pass now _ hlater hclock ih => exact ih.pass hlater hclock
  | other world _ hnow hkey ih => exact ih.other hnow hkey

-- Two jobs are as far apart as the first call's window, a call that reaches its script finds
-- the key held if and only if it comes back with nothing, and it changes nothing unless it
-- creates a job.
theorem enqueueWithRateLimit_exact {world : World} (hclock : ClockOk world.store.now)
    (h : Throttled rateKey (.start world) trace t) :
    trace.Pairwise (fun m n => m.Creates → n.Creates →
      m.before.now + m.window.ceilSeconds * 1000 ≤ n.before.now) ∧
    (∀ m ∈ trace, m.window.seconds ≤ m.window.ceilSeconds ∧
      m.window.ceilSeconds ≤ m.window.secondsUp ∧
      (m.window.seconds < 2 ^ 23 ∨ m.window.nanos = 0 →
        m.window.ceilSeconds = m.window.secondsUp)) ∧
    (∀ m ∈ trace, ∃ answer, t.Returned m.call answer ∧
      ((∃ id, answer = .ok (some id)) ↔ m.Creates) ∧
      (answer = .ok none ↔ m.fault = .none ∧ (m.before.rateLimits rateKey).isSome) ∧
      (¬ m.Creates → m.after = m.before)) ∧
    ∀ call answer, t.Returned call answer → (∀ m ∈ trace, m.call ≠ call) →
      TurnedDown answer := by
  have hk := limits_throttled hclock h
  refine ⟨hk.apart, fun m hm => ?_, fun m hm => ?_, fun call answer hret hnot => ?_⟩
  · obtain ⟨answer, hanswer, -⟩ := hk.turns m hm
    have hfits := hk.fits _ _ hanswer
    exact ⟨hfits.ceilSeconds_bounds.1, hfits.ceilSeconds_bounds.2, hfits.ceilSeconds_eq⟩
  · obtain ⟨answer, hanswer, hout⟩ := hk.turns m hm
    refine ⟨answer, ⟨m.window, hanswer⟩, ⟨?_, ?_⟩, ⟨?_, ?_⟩, ?_⟩
    · rintro ⟨id, rfl⟩
      cases hout
      assumption
    · intro hc
      rcases hout.quiet with ⟨hnot, -⟩ | ⟨id, hid, -⟩
      · exact absurd hc hnot
      · exact ⟨id, hid⟩
    · rintro rfl
      cases hout with
      | held hfault hheld _ => exact ⟨hfault, hheld⟩
    · rintro ⟨hfault, hheld⟩
      cases hout with
      | refused hne _ => exact absurd hfault hne
      | held _ _ _ => rfl
      | taken _ hfree _ => simp [hfree] at hheld
      | created _ hfree _ _ _ => simp [hfree] at hheld
    · intro hc
      rcases hout.quiet with ⟨-, hafter⟩ | ⟨-, -, hcreates⟩
      · exact hafter
      · exact absurd hcreates hc
  · obtain ⟨window, hcall⟩ := hret
    have hasks := hk.calls call _ hcall hnot
    unfold Asking at hasks
    dsimp only at hasks
    cases hasks with
    | rejected hanswer => exact hanswer
    | script hscript =>
        obtain ⟨args, -, hprogram⟩ := hscript
        cases hprogram

-- Two calls with a window whose nanosecond is lost in floating point.

def longWindow : Duration := ⟨2 ^ 24, 1⟩

def limitOptions (id : JobId) : EnqueueOptions := { jobId := some id, enqueueTime := some ⟨0⟩ }

def limitedReply (id : JobId) (s : Store) : Except RedisError Reply × Store :=
  Cmd.exec .none (0, []) (.producerRateLimit (sampleArgs id) "rrq:rate_limit:k"
    longWindow.ceilSeconds) s

def longTurn (call : Nat) (id : JobId) (s : Store) : Turn :=
  ⟨⟨call, s, (limitedReply id s).2⟩, longWindow, .none⟩

-- The store when the key of the first call has ended.
def laterStore : Store := (limitedReply "a" .empty).2.advance (2 ^ 24 * 1000)

theorem enqueueWithRateLimit_limitOptions (id : JobId) :
    enqueueWithRateLimit {} "f" [] (limitOptions id) "k" longWindow =
      rateLimitCall (sampleArgs id) "rrq:rate_limit:k" longWindow.ceilSeconds := by
  have hname : validateName "function_name" "f" = .ok () := by decide
  have hkey : validateName "rate_limit_key" "k" = .ok () := by decide
  have hqueue : validateName "queue_name" "rrq:queue:default" = .ok () := by decide
  have hnormal : normalizeQueueName "rrq:queue:default" = "rrq:queue:default" := by decide
  have hpos : ¬ longWindow.ceilSeconds ≤ 0 := by decide +kernel
  simp only [enqueueWithRateLimit, jobArgs, given, limitOptions, queueNameOf, Option.getD_none,
    hname, hkey, hqueue, hnormal, Prog.pure_eq_ret, Prog.ret_bind, Option.none_or]
  rw [if_neg (by decide)]
  simp only [Prog.ret_bind, if_neg hpos]
  refine congrArg (Prog.call _) (funext fun answer => ?_)
  cases answer with
  | error error => rfl
  | ok reply =>
      obtain ⟨status, id⟩ := reply
      simp only [limited, Prog.bind]
      split_ifs <;> rfl

theorem Throttle.put_program {world : World} {call : Nat} {window : Duration}
    {program other : Proc (Except EnqueueError (Option JobId))} (h : program = other) :
    (t.put world call ⟨window, program⟩).calls call = some ⟨window, other⟩ :=
  h ▸ t.put_self world call _

theorem throttled_long :
    ∃ t, Throttled "rrq:rate_limit:k" (.start (.ofStore .empty))
        [longTurn 0 "a" .empty, longTurn 1 "b" laterStore] t := by
  have hprogram := enqueueWithRateLimit_limitOptions
  have hfits : longWindow.Fits := ⟨by decide, by decide⟩
  have hpre : withPrefix RATE_LIMIT_KEY_PREFIX "k" = "rrq:rate_limit:k" := by decide
  have hstart : Throttled "rrq:rate_limit:k" (.start (.ofStore .empty)) []
    (.start (.ofStore .empty)) := .start
  have hcall := hstart.call 0 {} "f" [] (limitOptions "a") "k" longWindow rfl hpre hfits
  have hfirst := hcall.act 0 {} (Throttle.put_program (hprogram "a")) (.inl rfl)
  have hpass := hfirst.pass (2 ^ 24 * 1000) (by decide +kernel) (by unfold ClockOk I64_MAX; decide)
  have hnext := hpass.call 1 {} "f" [] (limitOptions "b") "k" longWindow rfl hpre hfits
  have hlast := hnext.act 1 {} (Throttle.put_program (hprogram "b")) (.inl rfl)
  exact ⟨_, hlast⟩

theorem longTurn_creates {call : Nat} {id : JobId} {s : Store} (hclock : ClockOk s.now)
    (h : limited (limitedReply id s).1 = .ok (some id)) : (longTurn call id s).Creates := by
  have hfits : longWindow.Fits := ⟨by decide, by decide⟩
  have hout : Outcome "rrq:rate_limit:k" (longTurn call id s) (limited (limitedReply id s).1) :=
    outcome_exec (.inl rfl) hfits (by decide +kernel) call (0, []) s hclock
  rw [h] at hout
  cases hout
  assumption

-- The first window is a nanosecond longer than what lies between the two jobs. And a call that
-- asks for what it cannot have is turned down though the key is held.
theorem enqueueWithRateLimit_inexact :
    (∃ t, Throttled "rrq:rate_limit:k" (.start (.ofStore .empty))
        [longTurn 0 "a" .empty, longTurn 1 "b" laterStore] t) ∧
      (longTurn 0 "a" .empty).Creates ∧ (longTurn 1 "b" laterStore).Creates ∧
      laterStore.now < Store.empty.now + longWindow.secondsUp * 1000 ∧
      ((limitedReply "a" .empty).2.rateLimits "rrq:rate_limit:k").isSome ∧
      (Prog.run (World.exec 0 .client) (fun _ _ => {})
        (enqueueWithRateLimit {} "f" []
          { jobId := some "b", enqueueTime := some ⟨0⟩, jobTimeoutSeconds := some 0 } "k" longWindow)
        0 (.ofStore (limitedReply "a" .empty).2)).1 =
        .error (.notPositive "job_timeout_seconds") := by
  refine ⟨throttled_long, longTurn_creates ?_ (by decide +kernel), longTurn_creates ?_ ?_, ?_, ?_, ?_⟩
  · unfold ClockOk I64_MAX
    decide +kernel
  · unfold ClockOk I64_MAX
    decide +kernel
  · decide +kernel
  · decide +kernel
  · decide +kernel
  · decide +kernel

theorem enqueueWithRateLimit_exact_long :
    Store.empty.now + longWindow.ceilSeconds * 1000 ≤ laterStore.now := by
  obtain ⟨t, h⟩ := throttled_long
  have hclock : ClockOk (World.ofStore Store.empty).store.now := by
    unfold ClockOk I64_MAX
    decide
  have hlater : ClockOk laterStore.now := by
    unfold ClockOk I64_MAX
    decide +kernel
  have hapart := (enqueueWithRateLimit_exact hclock h).1
  rw [List.pairwise_cons] at hapart
  exact hapart.1 _ List.mem_cons_self (longTurn_creates hclock (by decide +kernel))
    (longTurn_creates hlater (by decide +kernel))

end Throttled

end Producer

end Rrq
