import Mathlib.Data.Option.Basic

-- Systems that events move, one at a time and in any order. An event that cannot happen in
-- a state moves nothing.

structure EventSystem (σ Event : Type) where
  step : Event → σ → Option σ

namespace EventSystem

variable {σ Event : Type}

-- The states that are reached by events which are admitted where they happen.
inductive Reach (system : EventSystem σ Event) (admits : Event → σ → Prop) (start : σ) : σ → Prop
  | start : Reach system admits start start
  | step {s t : σ} (event : Event) : Reach system admits start s → admits event s →
      system.step event s = some t → Reach system admits start t

variable {system : EventSystem σ Event} {admits : Event → σ → Prop} {start : σ}

-- What holds at the start and is kept by every event holds wherever a run comes.
theorem Reach.invariant {inv : σ → Prop} (hstart : inv start)
    (hstep : ∀ s event t, inv s → admits event s → system.step event s = some t → inv t)
    {s : σ} (h : Reach system admits start s) : inv s := by
  induction h with
  | start => exact hstart
  | step event _ ha hs ih => exact hstep _ event _ ih ha hs

theorem Reach.mono {later : Event → σ → Prop} (hmono : ∀ event s, admits event s → later event s)
    {s : σ} (h : Reach system admits start s) : Reach system later start s := by
  induction h with
  | start => exact .start
  | step event _ ha hs ih => exact .step event ih (hmono _ _ ha) hs

-- A run through a list of events, each of which a test admits where it happens.
def run (system : EventSystem σ Event) (ok : Event → σ → Bool) : List Event → σ → Option σ
  | [], s => some s
  | event :: events, s =>
      if ok event s then (system.step event s).bind (system.run ok events) else none

theorem reach_run {ok : Event → σ → Bool} (hok : ∀ event s, ok event s = true → admits event s)
    {events : List Event} {s t : σ} (hs : Reach system admits start s)
    (h : system.run ok events s = some t) : Reach system admits start t := by
  induction events generalizing s with
  | nil =>
      obtain rfl := Option.some.inj h
      exact hs
  | cons event events ih =>
      simp only [run, Option.ite_none_right_eq_some] at h
      obtain ⟨hadmits, h⟩ := h
      obtain ⟨mid, hmid, hrest⟩ := Option.bind_eq_some_iff.mp h
      exact ih (.step event hs (hok event s hadmits) hmid) hrest

-- A run that ends as a test of its last state says.
theorem exists_reach {ok : Event → σ → Bool} (hok : ∀ event s, ok event s = true → admits event s)
    {events : List Event} {test : σ → Bool}
    (h : (system.run ok events start).map test = some true) :
    ∃ s, Reach system admits start s ∧ test s = true := by
  obtain ⟨s, hrun, htest⟩ := Option.map_eq_some_iff.mp h
  exact ⟨s, reach_run hok .start hrun, htest⟩

-- What holds in all the states that a list of events leads through.
def Along (system : EventSystem σ Event) (P : σ → Prop) : List Event → σ → Prop
  | [], s => P s
  | event :: events, s => P s ∧ ∀ t, system.step event s = some t → system.Along P events t

-- Each event of a list is admitted where it happens.
def Admitted (system : EventSystem σ Event) (admits : Event → σ → Prop) : List Event → σ → Prop
  | [], _ => True
  | event :: events, s => ∀ t, system.step event s = some t →
      admits event s ∧ system.Admitted admits events t

theorem along_head {P : σ → Prop} {events : List Event} {s : σ} (h : system.Along P events s) :
    P s := by
  cases events with
  | nil => exact h
  | cons event events => exact h.1

-- An invariant that the admitted events keep, where the others leave what it is there for.
theorem along_iff {inv P : σ → Prop} (hP : ∀ s, inv s → P s)
    (hkeep : ∀ s event t, inv s → admits event s → system.step event s = some t → inv t)
    (hbreak : ∀ s event t, inv s → ¬ admits event s → system.step event s = some t → ¬ P t)
    {s : σ} (hs : inv s) (events : List Event) :
    system.Along P events s ↔ system.Admitted admits events s := by
  induction events generalizing s with
  | nil => exact iff_of_true (hP s hs) trivial
  | cons event events ih =>
      constructor
      · rintro ⟨-, h⟩ t ht
        have hadmits : admits event s := by
          by_contra hnot
          exact hbreak s event t hs hnot ht (along_head (h t ht))
        exact ⟨hadmits, (ih (hkeep s event t hs hadmits ht)).mp (h t ht)⟩
      · intro h
        refine ⟨hP s hs, fun t ht => ?_⟩
        obtain ⟨hadmits, hrest⟩ := h t ht
        exact (ih (hkeep s event t hs hadmits ht)).mpr hrest

end EventSystem
