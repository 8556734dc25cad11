import Rrq.Float64
import Rrq.Producer
import Rrq.Worker.Routing

-- The settings that are floating numbers of seconds, and the spans of time a worker and its
-- runners make of them. A conversion that is not defined panics.

namespace Rrq

open Producer

-- Rounded to the nearest nanosecond, ties to the even one.
def Producer.Duration.fromSecsF64 : F64 → Option Duration
  | .finite seconds _ =>
      if seconds < 0 ∨ 2 ^ 64 ≤ seconds then none
      else
        let nanos := (Double.roundEven (seconds * 1000000000)).toNat
        some ⟨nanos / 1000000000, nanos % 1000000000⟩
  | _ => none

structure TimedSettings extends WorkerSettings where
  -- By the name of the runner.
  responseTimeoutSeconds : String → Option F64 := fun _ => none
  defaultPollDelaySeconds : F64 := .ofRat (1 / 10)
  runnerShutdownTermGraceSeconds : F64 := .ofRat 5
  workerShutdownGracePeriodSeconds : F64 := .ofRat 10
  -- The interval whose value, where it has one, is a setting of the worker already.
  healthCheckInterval : F64 := .ofRat 60
  healthCheckInterval_eq : ∀ {value h},
    healthCheckInterval = .finite value h → workerHealthCheckIntervalSeconds = value

namespace TimedSettings

-- Of the floating numbers one is checked, against the longest span in floating point.
def validateRunnerConfigs (settings : TimedSettings) (numCpus : Nat) : Bool :=
  Rrq.validateRunnerConfigs settings.toWorkerSettings numCpus &&
    settings.runnerShutdownTermGraceSeconds.isFinite &&
    !decide (settings.runnerShutdownTermGraceSeconds < .ofRat 0) &&
    !decide (.ofRat (2 ^ 64) < settings.runnerShutdownTermGraceSeconds)

end TimedSettings

-- What is drawn from a range, that includes its ends.
structure Rng where
  draw : F64 → F64 → F64
  within : ∀ {low high}, low ≤ high → low ≤ draw low high ∧ draw low high ≤ high

-- An empty range and one whose width is not finite panic.
def Rng.randomRange (rng : Rng) (low high : F64) : Option F64 :=
  if low ≤ high ∧ (high - low).isFinite then some (rng.draw low high) else none

namespace SocketRunner

def responseTimeout (responseTimeoutSeconds : Option F64) : Option (Option Duration) :=
  responseTimeoutSeconds.mapM Duration.fromSecsF64

end SocketRunner

namespace RRQWorker

def calculateJitteredDelay (rng : Rng) (baseDelay jitterFactor : F64) : Option Duration :=
  if baseDelay ≤ .ofRat 0 then some ⟨0, 0⟩
  else
    let jitter := jitterFactor.clamp (.ofRat 0) (.ofRat (99 / 100))
    let minDelay := max (baseDelay * (.ofRat 1 - jitter)) (.ofRat 0)
    let maxDelay := baseDelay * (.ofRat 1 + jitter)
    let maxDelay := if maxDelay < minDelay then minDelay else maxDelay
    (rng.randomRange minDelay maxDelay).bind Duration.fromSecsF64

def pollDelay (settings : TimedSettings) (rng : Rng) : Option Duration :=
  calculateJitteredDelay rng settings.defaultPollDelaySeconds (.ofRat (1 / 2))

def drainGrace (settings : TimedSettings) : Option Duration :=
  Duration.fromSecsF64 settings.workerShutdownGracePeriodSeconds

-- How long the command waits for the worker once it is told to stop.
def shutdownTimeout (settings : TimedSettings) : Option Duration :=
  Duration.fromSecsF64 (settings.workerShutdownGracePeriodSeconds + .ofRat 2)

def heartbeatSleep (settings : TimedSettings) : Option Duration :=
  Duration.fromSecsF64 (min settings.healthCheckInterval (.ofRat 60))

end RRQWorker

-- What the conversions of a worker come to, for a selection of queues.
structure ConversionsDefined (settings : TimedSettings) (queues : Option (List String)) :
    Prop where
  responseTimeout : ∀ runner ∈ settings.runners,
    runner.1 ∈ determineNeededRunners settings.toWorkerSettings queues →
      (SocketRunner.responseTimeout (settings.responseTimeoutSeconds runner.1)).isSome
  shutdownTimeout : (RRQWorker.shutdownTimeout settings).isSome
  drainGrace : (RRQWorker.drainGrace settings).isSome
  heartbeatSleep : (RRQWorker.heartbeatSleep settings).isSome
  pollDelay : ∀ rng, (RRQWorker.pollDelay settings rng).isSome

section Constants

theorem representable_zero : Float64.Representable 0 := by
  exact_mod_cast Float64.representable_intCast (m := 0) (by norm_num)

theorem representable_two : Float64.Representable 2 := by
  exact_mod_cast Float64.representable_intCast (m := 2) (by norm_num)

theorem representable_sixty : Float64.Representable 60 := by
  exact_mod_cast Float64.representable_intCast (m := 60) (by norm_num)

theorem representable_spanEnd : Float64.Representable (2 ^ 64) := by
  have h := Float64.representable_of_scaled (m := 1) (e := 64) (by norm_num) (by norm_num)
    (by norm_num)
  rw [Int.cast_one, one_mul] at h
  exact_mod_cast h

end Constants

-- A number of seconds that a span of time can hold.
def F64.Convertible (seconds : F64) : Prop := .ofRat 0 ≤ seconds ∧ seconds < .ofRat (2 ^ 64)

section Convertible

variable {seconds : F64}

theorem convertible_iff : F64.Convertible seconds ↔
    ∃ (value : ℚ) (h : Float64.Representable value),
      seconds = .finite value h ∧ 0 ≤ value ∧ value < 2 ^ 64 := by
  unfold F64.Convertible
  rw [F64.ofRat_eq representable_zero, F64.ofRat_eq representable_spanEnd]
  constructor
  · rintro ⟨hlow, hhigh⟩
    cases seconds with
    | nan => exact absurd hlow F64.not_le_nan
    | infinity negative =>
        cases negative
        · exact absurd hhigh Bool.false_ne_true
        · exact absurd hlow Bool.false_ne_true
    | finite value h => exact ⟨value, h, rfl, F64.finite_le.mp hlow, F64.finite_lt.mp hhigh⟩
  · rintro ⟨value, h, rfl, hlow, hhigh⟩
    exact ⟨F64.finite_le.mpr hlow, F64.finite_lt.mpr hhigh⟩

theorem fromSecsF64_isSome : (Duration.fromSecsF64 seconds).isSome ↔ F64.Convertible seconds := by
  rw [convertible_iff]
  cases seconds with
  | nan => simp [Duration.fromSecsF64]
  | infinity negative => simp [Duration.fromSecsF64]
  | finite value h =>
      by_cases hout : value < 0 ∨ 2 ^ 64 ≤ value
      · simp only [Duration.fromSecsF64, if_pos hout, Option.isSome_none, Bool.false_eq_true,
          false_iff, not_exists]
        rintro other hother ⟨heq, hlow, hhigh⟩
        cases heq
        exact hout.elim (not_lt.mpr hlow) (not_le.mpr hhigh)
      · simp only [Duration.fromSecsF64, if_neg hout, Option.isSome_some, true_iff]
        rw [not_or, not_lt, not_le] at hout
        exact ⟨value, h, rfl, hout⟩

theorem responseTimeout_isSome {given : Option F64} :
    (SocketRunner.responseTimeout given).isSome ↔
      ∀ seconds, given = some seconds → F64.Convertible seconds := by
  cases given with
  | none => simp [SocketRunner.responseTimeout]
  | some seconds =>
      have hmap : (SocketRunner.responseTimeout (some seconds)).isSome =
          (Duration.fromSecsF64 seconds).isSome := by
        cases h : Duration.fromSecsF64 seconds <;> simp [SocketRunner.responseTimeout, h]
      rw [hmap, fromSecsF64_isSome]
      simp

-- Two more seconds never take a number out of the range.
theorem shutdownTimeout_isSome {settings : TimedSettings}
    (h : F64.Convertible settings.workerShutdownGracePeriodSeconds) :
    (RRQWorker.shutdownTimeout settings).isSome := by
  obtain ⟨value, hvalue, heq, hlow, hhigh⟩ := convertible_iff.mp h
  have hlast : value ≤ (2 ^ 53 - 1) * (2 : ℚ) ^ (11 : Int) :=
    hvalue.le_last (by exact_mod_cast hhigh)
  have hrounded : Float64.nearest (value + 2) < (2 : ℚ) ^ (64 : Int) := by
    rw [Float64.nearest_lt_zpow (by norm_num) (by linarith)]
    norm_num at hlast ⊢
    linarith
  have hnonneg : 0 ≤ Float64.nearest (value + 2) := Float64.nearest_nonneg (by linarith)
  have hbelow : Float64.nearest (value + 2) < 2 ^ 64 := by exact_mod_cast hrounded
  have hrange : |Float64.nearest (value + 2)| < 2 ^ 1024 := by
    rw [abs_of_nonneg hnonneg]
    exact hbelow.trans (pow_lt_pow_right₀ (by norm_num) (by norm_num))
  rw [RRQWorker.shutdownTimeout, fromSecsF64_isSome, convertible_iff, heq,
    F64.ofRat_eq representable_two]
  exact ⟨_, _, F64.ofRat_of_lt hrange, hnonneg, hbelow⟩

theorem heartbeatSleep_isSome {settings : TimedSettings} :
    (RRQWorker.heartbeatSleep settings).isSome ↔ ¬ settings.healthCheckInterval < .ofRat 0 := by
  have hsixty : (60 : ℚ) < 2 ^ 64 := by norm_num
  rw [RRQWorker.heartbeatSleep, fromSecsF64_isSome, convertible_iff,
    F64.ofRat_eq representable_sixty, F64.ofRat_eq representable_zero]
  cases settings.healthCheckInterval with
  | nan => exact iff_of_true ⟨60, representable_sixty, rfl, by norm_num, hsixty⟩ F64.not_nan_lt
  | infinity negative =>
      cases negative
      · exact iff_of_true ⟨60, representable_sixty, rfl, by norm_num, hsixty⟩ Bool.false_ne_true
      · refine iff_of_false ?_ (not_not.mpr rfl)
        rintro ⟨value, h, heq, -⟩
        cases heq
  | finite interval h =>
      rw [F64.finite_lt, not_lt]
      change (∃ value k, (if F64.finite 60 representable_sixty < F64.finite interval h then
        F64.finite 60 representable_sixty else F64.finite interval h) = F64.finite value k ∧ _) ↔ _
      simp only [F64.finite_lt]
      split_ifs with hlarge
      · exact iff_of_true ⟨60, representable_sixty, rfl, by norm_num, hsixty⟩ (by linarith)
      · constructor
        · rintro ⟨value, k, heq, hlow, -⟩
          cases heq
          exact hlow
        · intro hlow
          exact ⟨interval, h, rfl, hlow, by linarith⟩

end Convertible

section Jitter

theorem representable_one : Float64.Representable 1 := by
  exact_mod_cast Float64.representable_intCast (m := 1) (by norm_num)

theorem representable_half : Float64.Representable (1 / 2) := by
  have h := Float64.representable_halves (m := 1) (by norm_num)
  rwa [Int.cast_one] at h

theorem representable_threeHalves : Float64.Representable (3 / 2) := by
  have h := Float64.representable_halves (m := 3) (by norm_num)
  rwa [Int.cast_ofNat] at h

-- Half as much again as a delay from here on is rounded to what no span of time holds.
def pollDelayEnd : ℚ := (2 ^ 65 - 2 ^ 11) / 3

theorem representable_pollDelayEnd : Float64.Representable pollDelayEnd := by
  have h := Float64.representable_of_scaled (m := 6004799503160661) (e := 11) (by norm_num)
    (by norm_num) (by norm_num)
  norm_num [pollDelayEnd] at h ⊢
  exact h

theorem jitter_eq : F64.clamp (.ofRat (1 / 2)) (.ofRat 0) (.ofRat (99 / 100)) =
    .finite (1 / 2) representable_half := by
  have hhalf : (1 / 2 : ℚ) ≤ Float64.nearest (99 / 100) := by
    have h := Float64.zpow_le_nearest (x := 99 / 100) (k := -1) (by norm_num) (by norm_num)
    norm_num at h ⊢
    exact h
  have hone : Float64.nearest (99 / 100) ≤ 1 := by
    have h := Float64.nearest_le_zpow (x := 99 / 100) (k := 0) (by norm_num) (by norm_num)
      (by norm_num)
    norm_num at h ⊢
    exact h
  have hrange : |Float64.nearest (99 / 100)| < 2 ^ 1024 := by
    rw [abs_of_nonneg (by linarith)]
    exact hone.trans_lt (one_lt_pow₀ (by norm_num) (by norm_num))
  unfold F64.clamp
  rw [F64.ofRat_eq representable_half, F64.ofRat_eq representable_zero, F64.ofRat_of_lt hrange]
  simp only [F64.finite_lt]
  have hnonneg : ¬ (1 / 2 : ℚ) < 0 := by norm_num
  simp only [hnonneg, if_false, F64.finite_lt, not_lt.mpr hhalf]

theorem lessJitter_eq : .ofRat 1 - .finite (1 / 2) representable_half =
    F64.finite (1 / 2) representable_half := by
  rw [F64.ofRat_eq representable_one]
  change F64.ofRat (1 + -(1 / 2)) = _
  rw [show (1 + -(1 / 2) : ℚ) = 1 / 2 by norm_num, F64.ofRat_eq representable_half]

theorem moreJitter_eq : .ofRat 1 + .finite (1 / 2) representable_half =
    F64.finite (3 / 2) representable_threeHalves := by
  rw [F64.ofRat_eq representable_one]
  change F64.ofRat (1 + 1 / 2) = _
  rw [show (1 + 1 / 2 : ℚ) = 3 / 2 by norm_num, F64.ofRat_eq representable_threeHalves]

-- The ends of the range that a delay is drawn from.
def shortestDelay (base : F64) : F64 :=
  max (base * .finite (1 / 2) representable_half) (.finite 0 representable_zero)

def longestDelay (base : F64) : F64 :=
  let delay := base * .finite (3 / 2) representable_threeHalves
  if delay < shortestDelay base then shortestDelay base else delay

theorem calculateJitteredDelay_eq {rng : Rng} {base : F64} :
    RRQWorker.calculateJitteredDelay rng base (.ofRat (1 / 2)) =
      if base ≤ .finite 0 representable_zero then some ⟨0, 0⟩
      else (rng.randomRange (shortestDelay base) (longestDelay base)).bind Duration.fromSecsF64 := by
  unfold RRQWorker.calculateJitteredDelay
  dsimp only
  rw [jitter_eq, lessJitter_eq, moreJitter_eq, F64.ofRat_eq representable_zero]
  rfl

def Rng.highest : Rng where
  draw _ high := high
  within h := ⟨h, F64.le_refl_of_le h⟩

section Range

variable {low high : ℚ} {hlow : Float64.Representable low} {hhigh : Float64.Representable high}

theorem width_isFinite (hnonneg : 0 ≤ low) (h : low ≤ high) :
    (F64.finite high hhigh - F64.finite low hlow).isFinite = true := by
  have hbound : Float64.nearest (high + -low) ≤ high := by
    calc
      Float64.nearest (high + -low) ≤ Float64.nearest high :=
        Float64.nearest_mono (by linarith) (by linarith)
      _ = high := hhigh.nearest_eq
  have hrange : |Float64.nearest (high + -low)| < 2 ^ 1024 := by
    rw [abs_of_nonneg (Float64.nearest_nonneg (by linarith))]
    exact hbound.trans_lt ((le_abs_self high).trans_lt hhigh.1)
  change (F64.ofRat (high + -low)).isFinite = true
  rw [F64.ofRat_of_lt hrange]
  rfl

-- The draws of a range are converted if the highest of them is.
theorem draws_isSome (hnonneg : 0 ≤ low) (h : low ≤ high) :
    (∀ rng : Rng, ((rng.randomRange (.finite low hlow) (.finite high hhigh)).bind
      Duration.fromSecsF64).isSome) ↔ high < 2 ^ 64 := by
  have hrange : F64.finite low hlow ≤ F64.finite high hhigh ∧
      (F64.finite high hhigh - F64.finite low hlow).isFinite = true :=
    ⟨F64.finite_le.mpr h, width_isFinite hnonneg h⟩
  have hdraw (rng : Rng) : rng.randomRange (.finite low hlow) (.finite high hhigh) =
      some (rng.draw (.finite low hlow) (.finite high hhigh)) := if_pos hrange
  simp only [hdraw, Option.bind_some, fromSecsF64_isSome, convertible_iff]
  constructor
  · intro hall
    obtain ⟨value, k, heq, -, hless⟩ := hall Rng.highest
    cases heq
    exact hless
  · intro hless rng
    obtain ⟨hfrom, hto⟩ := rng.within hrange.1
    obtain ⟨value, k, heq, hge, hle⟩ := F64.exists_of_between hfrom hto
    exact ⟨value, k, heq, hnonneg.trans hge, hle.trans_lt hless⟩

end Range

section Base

variable {base : ℚ} {hbase : Float64.Representable base}

theorem shortestDelay_eq (hbase : Float64.Representable base) (hpos : 0 < base) :
    ∃ h, shortestDelay (.finite base hbase) = .finite (Float64.nearest (base * (1 / 2))) h := by
  have hnonneg : 0 ≤ Float64.nearest (base * (1 / 2)) := Float64.nearest_nonneg (by linarith)
  have hrange : |Float64.nearest (base * (1 / 2))| < 2 ^ 1024 := by
    rw [abs_of_nonneg hnonneg]
    calc
      Float64.nearest (base * (1 / 2)) ≤ Float64.nearest base :=
        Float64.nearest_mono (by linarith) (by linarith)
      _ = base := hbase.nearest_eq
      _ < 2 ^ 1024 := (le_abs_self base).trans_lt hbase.1
  refine ⟨Float64.nearest_representable hrange, ?_⟩
  change max (F64.ofRat (base * (1 / 2))) _ = _
  rw [F64.ofRat_of_lt hrange]
  exact if_neg (by rw [F64.finite_lt, not_lt]; exact hnonneg)

theorem longestDelay_of_lt (hpos : 0 < base)
    (h : |Float64.nearest (base * (3 / 2))| < 2 ^ 1024) :
    longestDelay (.finite base hbase) =
      .finite (Float64.nearest (base * (3 / 2))) (Float64.nearest_representable h) := by
  obtain ⟨hshort, heq⟩ := shortestDelay_eq hbase hpos
  have hmono : Float64.nearest (base * (1 / 2)) ≤ Float64.nearest (base * (3 / 2)) :=
    Float64.nearest_mono (by linarith) (by linarith)
  have hdelay : F64.finite base hbase * .finite (3 / 2) representable_threeHalves =
      .finite (Float64.nearest (base * (3 / 2))) (Float64.nearest_representable h) :=
    F64.ofRat_of_lt h
  unfold longestDelay
  dsimp only
  rw [heq, hdelay]
  exact if_neg (by rw [F64.finite_lt, not_lt]; exact hmono)

theorem longestDelay_of_ge (hpos : 0 < base)
    (h : 2 ^ 1024 ≤ |Float64.nearest (base * (3 / 2))|) :
    longestDelay (.finite base hbase) = .infinity false := by
  have hdelay : F64.finite base hbase * .finite (3 / 2) representable_threeHalves =
      .infinity false := F64.ofRat_of_ge h (by linarith)
  unfold longestDelay
  dsimp only
  rw [hdelay]
  exact if_neg (by
    change ¬ F64.lt (.infinity false) _ = true
    cases shortestDelay (.finite base hbase) <;> exact Bool.false_ne_true)

theorem infinity_mul {x : ℚ} {h : Float64.Representable x} (hpos : 0 < x) :
    F64.infinity false * .finite x h = .infinity false := by
  change (if x = 0 then F64.nan else .infinity (false ^^ decide (x < 0))) = _
  rw [if_neg hpos.ne', decide_eq_false (not_lt.mpr hpos.le)]
  rfl

-- The width of a range of infinite delays is not finite.
theorem randomRange_infinity {rng : Rng} :
    rng.randomRange (shortestDelay (.infinity false)) (longestDelay (.infinity false)) = none := by
  have hshort : shortestDelay (.infinity false) = .infinity false := by
    rw [shortestDelay, infinity_mul (by norm_num)]
    rfl
  have hlong : longestDelay (.infinity false) = .infinity false := by
    rw [longestDelay, infinity_mul (by norm_num), hshort]
    rfl
  rw [hshort, hlong]
  rfl

theorem nearest_longest_lt (hpos : 0 < base) :
    Float64.nearest (base * (3 / 2)) < 2 ^ 64 ↔ base < pollDelayEnd := by
  have h := Float64.nearest_lt_zpow (x := base * (3 / 2)) (k := 64) (by norm_num) (by linarith)
  norm_num [pollDelayEnd] at h ⊢
  rw [h]
  constructor <;> intro hless <;> linarith

end Base

theorem pollDelay_isSome {settings : TimedSettings} :
    (∀ rng, (RRQWorker.pollDelay settings rng).isSome) ↔
      settings.defaultPollDelaySeconds < .ofRat pollDelayEnd := by
  unfold RRQWorker.pollDelay
  rw [F64.ofRat_eq representable_pollDelayEnd]
  simp only [calculateJitteredDelay_eq]
  cases settings.defaultPollDelaySeconds with
  | nan => exact iff_of_false (fun hall => Bool.false_ne_true (hall Rng.highest)) F64.not_nan_lt
  | infinity negative =>
      cases negative
      · refine iff_of_false (fun hall => ?_) Bool.false_ne_true
        have hsome := hall Rng.highest
        rw [randomRange_infinity] at hsome
        exact Bool.false_ne_true hsome
      · exact iff_of_true (fun rng => rfl) rfl
  | finite base hbase =>
      rw [F64.finite_lt]
      simp only [F64.finite_le]
      rcases le_or_gt base 0 with hsmall | hpos
      · have hend : (0 : ℚ) < pollDelayEnd := by norm_num [pollDelayEnd]
        simp only [if_pos hsmall, Option.isSome_some, implies_true, true_iff]
        exact hsmall.trans_lt hend
      · simp only [if_neg (not_le.mpr hpos)]
        obtain ⟨hshort, hshorteq⟩ := shortestDelay_eq hbase hpos
        have hnonneg : 0 ≤ Float64.nearest (base * (3 / 2)) :=
          Float64.nearest_nonneg (by linarith)
        rw [hshorteq, ← nearest_longest_lt hpos]
        rcases lt_or_ge |Float64.nearest (base * (3 / 2))| (2 ^ 1024) with hrange | hrange
        · rw [longestDelay_of_lt hpos hrange]
          exact draws_isSome (Float64.nearest_nonneg (by linarith))
            (Float64.nearest_mono (by linarith) (by linarith))
        · rw [longestDelay_of_ge hpos hrange]
          refine iff_of_false (fun hall => ?_) ?_
          · exact Bool.false_ne_true (hall Rng.highest)
          · rw [abs_of_nonneg hnonneg] at hrange
            exact not_lt.mpr ((pow_le_pow_right₀ (by norm_num) (by norm_num)).trans hrange)

end Jitter

-- The settings that loading lets through.
structure AcceptedSettings extends TimedSettings where
  numCpus : Nat
  accepted : toTimedSettings.validateRunnerConfigs numCpus = true

theorem conversionsDefined_iff (settings : AcceptedSettings) (queues : Option (List String)) :
    ConversionsDefined settings.toTimedSettings queues ↔
      (∀ runner ∈ settings.runners,
        runner.1 ∈ determineNeededRunners settings.toWorkerSettings queues →
          ∀ seconds, settings.responseTimeoutSeconds runner.1 = some seconds →
            F64.Convertible seconds) ∧
      F64.Convertible settings.workerShutdownGracePeriodSeconds ∧
      ¬ settings.healthCheckInterval < .ofRat 0 ∧
      settings.defaultPollDelaySeconds < .ofRat pollDelayEnd := by
  constructor
  · intro h
    refine ⟨fun runner hmem hneeded => responseTimeout_isSome.mp ?_, ?_, ?_, ?_⟩
    · exact h.responseTimeout runner hmem hneeded
    · exact fromSecsF64_isSome.mp h.drainGrace
    · exact heartbeatSleep_isSome.mp h.heartbeatSleep
    · exact pollDelay_isSome.mp h.pollDelay
  · rintro ⟨htimeouts, hgrace, hinterval, hdelay⟩
    exact
      { responseTimeout := fun runner hmem hneeded =>
          responseTimeout_isSome.mpr (htimeouts runner hmem hneeded)
        shutdownTimeout := shutdownTimeout_isSome hgrace
        drainGrace := fromSecsF64_isSome.mpr hgrace
        heartbeatSleep := heartbeatSleep_isSome.mpr hinterval
        pollDelay := pollDelay_isSome.mpr hdelay }

theorem default_healthCheckInterval {value : ℚ} {h : Float64.Representable value}
    (heq : F64.ofRat 60 = .finite value h) : (60 : ℚ) = value := by
  rw [F64.ofRat_eq representable_sixty] at heq
  cases heq
  rfl

-- The defaults, with a grace period below zero.
def negativeGrace : TimedSettings where
  workerShutdownGracePeriodSeconds := .ofRat (-1)
  healthCheckInterval_eq := default_healthCheckInterval

theorem negativeGrace_accepted : negativeGrace.validateRunnerConfigs 1 = true := by
  have hfive : Float64.Representable 5 := by
    exact_mod_cast Float64.representable_intCast (m := 5) (by norm_num)
  have hgrace : negativeGrace.runnerShutdownTermGraceSeconds = .finite 5 hfive :=
    F64.ofRat_eq hfive
  have hworker : validateRunnerConfigs negativeGrace.toWorkerSettings 1 = true := by
    decide +kernel
  unfold TimedSettings.validateRunnerConfigs
  rw [hworker, hgrace, F64.ofRat_eq representable_zero, F64.ofRat_eq representable_spanEnd]
  simp only [F64.finite_lt]
  norm_num [F64.isFinite]

theorem accepted_settings_panic : ∃ settings : AcceptedSettings,
    ¬ ConversionsDefined settings.toTimedSettings none := by
  refine ⟨⟨negativeGrace, 1, negativeGrace_accepted⟩, fun h => ?_⟩
  obtain ⟨value, hvalue, heq, hnonneg, -⟩ := convertible_iff.mp (fromSecsF64_isSome.mp h.drainGrace)
  have hminus : Float64.Representable (-1) := by
    exact_mod_cast Float64.representable_intCast (m := -1) (by norm_num)
  change F64.ofRat (-1) = _ at heq
  rw [F64.ofRat_eq hminus] at heq
  cases heq
  norm_num at hnonneg

end Rrq
