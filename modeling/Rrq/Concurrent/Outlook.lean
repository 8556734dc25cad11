import Rrq.Concurrent.Prog

-- How far a run alone comes: to an operation that is waited for, or to one that should not
-- have been issued in the state that it meets.

inductive Outlook where
  | clear
  | met
  | failed
deriving DecidableEq

structure Watch (Op : Type) (Reply : Op → Type) (Chance σ : Type) where
  exec : (op : Op) → Chance → σ → Reply op × σ
  oracle : Nat → Op → Chance
  here : Op → Bool
  passes : Nat → Op → σ → Bool

namespace Watch

variable {Op : Type} {Reply : Op → Type} {Chance σ α β : Type}

open Prog

def outlook (watch : Watch Op Reply Chance σ) : Prog Op Reply α → Nat → σ → Outlook
  | ret _, _, _ => .clear
  | call op next, n, s =>
      if watch.passes n op s then
        if watch.here op then .met
        else
          let (reply, s) := watch.exec op (watch.oracle n op) s
          watch.outlook (next reply) (n + 1) s
      else .failed

-- What holds of the outlook, the answer and the state when a program run alone has returned.
def Ends (watch : Watch Op Reply Chance σ) (post : Outlook → α → σ → Prop)
    (prog : Prog Op Reply α) (n : Nat) (s : σ) : Prop :=
  Prog.Ends watch.exec watch.oracle (post (watch.outlook prog n s)) prog n s

variable {watch : Watch Op Reply Chance σ} {post : Outlook → α → σ → Prop} {n : Nat} {s : σ}

theorem ends_ret {value : α} (h : post .clear value s) : watch.Ends post (ret value) n s := h

theorem ends_fails {op : Op} {next : Reply op → Prog Op Reply α} (hp : watch.passes n op s = false)
    (h : Prog.Ends watch.exec watch.oracle (post .failed) (call op next) n s) :
    watch.Ends post (call op next) n s := by
  have ho : watch.outlook (call op next) n s = .failed := by simp [outlook, hp]
  unfold Ends
  rwa [ho]

theorem ends_meets {op : Op} {next : Reply op → Prog Op Reply α} (hp : watch.passes n op s = true)
    (hh : watch.here op = true)
    (h : Prog.Ends watch.exec watch.oracle (post .met) (call op next) n s) :
    watch.Ends post (call op next) n s := by
  have ho : watch.outlook (call op next) n s = .met := by simp [outlook, hp, hh]
  unfold Ends
  rwa [ho]

theorem ends_quiet {op : Op} {next : Reply op → Prog Op Reply α} (hp : watch.passes n op s = true)
    (hh : watch.here op = false)
    (h : watch.Ends post (next (watch.exec op (watch.oracle n op) s).1) (n + 1)
      (watch.exec op (watch.oracle n op) s).2) :
    watch.Ends post (call op next) n s := by
  have ho : watch.outlook (call op next) n s =
      watch.outlook (next (watch.exec op (watch.oracle n op) s).1) (n + 1)
        (watch.exec op (watch.oracle n op) s).2 := by
    simp [outlook, hp, hh]
  unfold Ends
  rw [ho]
  exact h

theorem ends_mono {stronger : Outlook → α → σ → Prop} {prog : Prog Op Reply α}
    (hp : watch.Ends stronger prog n s)
    (h : ∀ outlook value state, stronger outlook value state → post outlook value state) :
    watch.Ends post prog n s := h _ _ _ hp

theorem ends_and {other : α → σ → Prop} {prog : Prog Op Reply α} (hp : watch.Ends post prog n s)
    (ho : Prog.Ends watch.exec watch.oracle other prog n s) :
    watch.Ends (fun outlook value state => post outlook value state ∧ other value state) prog n s :=
  ⟨hp, ho⟩

-- A sequence has the outlook of its first part, unless that part is clear to its end.
theorem outlook_bind (prog : Prog Op Reply β) (rest : β → Prog Op Reply α) :
    watch.outlook (prog >>= rest) n s =
      if watch.outlook prog n s = .clear then
        watch.outlook (rest (run watch.exec watch.oracle prog n s).1)
          (run watch.exec watch.oracle prog n s).2.1 (run watch.exec watch.oracle prog n s).2.2
      else watch.outlook prog n s := by
  induction prog generalizing n s with
  | ret value => simp [outlook]
  | call op next ih =>
      by_cases hp : watch.passes n op s = true
      · by_cases hh : watch.here op = true
        · simp [outlook, hp, hh]
        · simp only [call_bind, outlook, hp, hh, if_true, Bool.false_eq_true, if_false, run_call]
          exact ih _
      · simp [outlook, hp]

theorem ends_bind {mid : Outlook → β → σ → Prop} {prog : Prog Op Reply β}
    {rest : β → Prog Op Reply α} (hp : watch.Ends mid prog n s)
    (hclear : ∀ value n s, mid .clear value s → watch.Ends post (rest value) n s)
    (hends : ∀ outlook, outlook ≠ .clear → ∀ value n s, mid outlook value s →
      Prog.Ends watch.exec watch.oracle (post outlook) (rest value) n s) :
    watch.Ends post (prog >>= rest) n s := by
  unfold Ends
  rw [outlook_bind]
  unfold Prog.Ends
  rw [run_bind]
  by_cases hc : watch.outlook prog n s = .clear
  · rw [if_pos hc]
    refine hclear _ _ _ ?_
    rw [← hc]
    exact hp
  · rw [if_neg hc]
    exact hends _ hc _ _ _ hp

-- A program whose operations are all quiet runs clear to its end and keeps the invariant.
theorem ends_issues {inv : σ → Prop} {permits : Op → Prop} {possible : (op : Op) → Reply op → Prop}
    {prog : Prog Op Reply α} (hp : prog.Issues permits possible)
    (hquiet : ∀ n op s, permits op → inv s → watch.passes n op s = true ∧ watch.here op = false)
    (hstep : ∀ n op s, permits op → inv s → possible op (watch.exec op (watch.oracle n op) s).1 ∧
      inv (watch.exec op (watch.oracle n op) s).2)
    (hs : inv s) : watch.Ends (fun outlook _ s => outlook = .clear ∧ inv s) prog n s := by
  induction prog generalizing n s with
  | ret value => exact ends_ret ⟨rfl, hs⟩
  | call op next ih =>
      obtain ⟨hpasses, hhere⟩ := hquiet n op s hp.1 hs
      obtain ⟨hpossible, hafter⟩ := hstep n op s hp.1 hs
      exact ends_quiet hpasses hhere (ih _ (hp.2 _ hpossible) hafter)

-- What holds when a program run alone returns, if the run is clear to its end.
def Clears (watch : Watch Op Reply Chance σ) (post : α → σ → Prop) (prog : Prog Op Reply α)
    (n : Nat) (s : σ) : Prop :=
  watch.outlook prog n s = .clear → Prog.Ends watch.exec watch.oracle post prog n s

section Clears

variable {post : α → σ → Prop}

theorem clears_ret {value : α} (h : post value s) : watch.Clears post (ret value) n s :=
  fun _ => Prog.ends_ret h

theorem clears_call {op : Op} {next : Reply op → Prog Op Reply α}
    (h : watch.passes n op s = true →
      watch.Clears post (next (watch.exec op (watch.oracle n op) s).1) (n + 1)
        (watch.exec op (watch.oracle n op) s).2) :
    watch.Clears post (call op next) n s := by
  intro hclear
  by_cases hp : watch.passes n op s = true
  · by_cases hh : watch.here op = true
    · simp [outlook, hp, hh] at hclear
    · apply Prog.ends_call
      apply h hp
      simpa [outlook, hp, hh] using hclear
  · simp [outlook, hp] at hclear

theorem clears_bind {mid : β → σ → Prop} {prog : Prog Op Reply β} {rest : β → Prog Op Reply α}
    (hp : watch.Clears mid prog n s)
    (hr : ∀ value n s, mid value s → watch.Clears post (rest value) n s) :
    watch.Clears post (prog >>= rest) n s := by
  intro hclear
  rw [outlook_bind] at hclear
  by_cases hfirst : watch.outlook prog n s = .clear
  · rw [if_pos hfirst] at hclear
    unfold Prog.Ends
    rw [run_bind]
    apply hr
    · exact hp hfirst
    · exact hclear
  · rw [if_neg hfirst] at hclear
    exact absurd hclear hfirst

end Clears

end Watch
