import Mathlib.Logic.Function.Basic

-- Programs as trees of operations. A program either returns, or performs one operation and
-- goes on with its reply. What an operation does is left to whoever runs the program.

inductive Prog (Op : Type) (Reply : Op → Type) (α : Type) : Type where
  | ret (value : α)
  | call (op : Op) (next : Reply op → Prog Op Reply α)

namespace Prog

variable {Op : Type} {Reply : Op → Type} {α β γ : Type}

def bind : Prog Op Reply α → (α → Prog Op Reply β) → Prog Op Reply β
  | ret value, rest => rest value
  | call op next, rest => call op fun reply => (next reply).bind rest

instance : Monad (Prog Op Reply) where
  pure := ret
  bind := bind

def perform (op : Op) : Prog Op Reply (Reply op) := call op ret

@[simp] theorem pure_eq_ret (value : α) : (pure value : Prog Op Reply α) = ret value := rfl

@[simp] theorem ret_bind (value : α) (rest : α → Prog Op Reply β) :
    (ret value >>= rest) = rest value := rfl

@[simp] theorem call_bind (op : Op) (next : Reply op → Prog Op Reply α)
    (rest : α → Prog Op Reply β) :
    (call op next >>= rest) = call op fun reply => next reply >>= rest := rfl

@[simp] theorem perform_bind (op : Op) (rest : Reply op → Prog Op Reply β) :
    (perform op >>= rest) = call op rest := rfl

@[simp] theorem bind_ret (prog : Prog Op Reply α) : (prog >>= ret) = prog := by
  induction prog with
  | ret value => rfl
  | call op next ih => simp only [call_bind, ih]

@[simp] theorem bind_assoc (prog : Prog Op Reply α) (rest : α → Prog Op Reply β)
    (last : β → Prog Op Reply γ) :
    ((prog >>= rest) >>= last) = prog >>= fun value => rest value >>= last := by
  induction prog with
  | ret value => rfl
  | call op next ih => simp only [call_bind, ih]

section Running

variable {σ Chance : Type} (exec : (op : Op) → Chance → σ → Reply op × σ)

-- Run a program alone. The oracle settles what the state leaves open, operation by operation.
def run (oracle : Nat → Op → Chance) : Prog Op Reply α → Nat → σ → α × Nat × σ
  | ret value, count, state => (value, count, state)
  | call op next, count, state =>
      let (reply, state) := exec op (oracle count op) state
      run oracle (next reply) (count + 1) state

@[simp] theorem run_ret (oracle : Nat → Op → Chance) (value : α) (count : Nat) (state : σ) :
    run exec oracle (ret value : Prog Op Reply α) count state = (value, count, state) := rfl

theorem run_call (oracle : Nat → Op → Chance) (op : Op) (next : Reply op → Prog Op Reply α)
    (count : Nat) (state : σ) :
    run exec oracle (call op next) count state =
      run exec oracle (next (exec op (oracle count op) state).1) (count + 1)
        (exec op (oracle count op) state).2 := rfl

theorem run_bind (oracle : Nat → Op → Chance) (prog : Prog Op Reply α)
    (rest : α → Prog Op Reply β) (count : Nat) (state : σ) :
    run exec oracle (prog >>= rest) count state =
      let (value, count, state) := run exec oracle prog count state
      run exec oracle (rest value) count state := by
  induction prog generalizing count state with
  | ret value => rfl
  | call op next ih => simp only [call_bind, run_call, ih]

theorem le_run (oracle : Nat → Op → Chance) (prog : Prog Op Reply α) (count : Nat) (state : σ) :
    count ≤ (run exec oracle prog count state).2.1 := by
  induction prog generalizing count state with
  | ret value => exact Nat.le_refl count
  | call op next ih => exact Nat.le_trans (Nat.le_succ count) (ih _ _ _)

-- A run does not depend on what the oracle would settle after its end.
theorem run_congr {oracle other : Nat → Op → Chance} (prog : Prog Op Reply α) (count : Nat)
    (state : σ)
    (h : ∀ n, n < (run exec oracle prog count state).2.1 → other n = oracle n) :
    run exec other prog count state = run exec oracle prog count state := by
  induction prog generalizing count state with
  | ret value => rfl
  | call op next ih =>
      have hfirst : other count = oracle count := h count (le_run exec oracle (next _) _ _)
      rw [run_call, run_call, hfirst]
      exact ih _ _ _ h

-- What holds of the answer and the state when a program run alone has returned.
def Ends (oracle : Nat → Op → Chance) (post : α → σ → Prop) (prog : Prog Op Reply α)
    (count : Nat) (state : σ) : Prop :=
  post (run exec oracle prog count state).1 (run exec oracle prog count state).2.2

variable {exec} {oracle : Nat → Op → Chance} {post : α → σ → Prop} {count : Nat} {state : σ}

theorem ends_ret {value : α} (h : post value state) :
    Ends exec oracle post (ret value) count state := h

theorem ends_call {op : Op} {next : Reply op → Prog Op Reply α}
    (h : Ends exec oracle post (next (exec op (oracle count op) state).1) (count + 1)
      (exec op (oracle count op) state).2) :
    Ends exec oracle post (call op next) count state := h

theorem ends_bind {mid : β → σ → Prop} {prog : Prog Op Reply β} {rest : β → Prog Op Reply α}
    (hp : Ends exec oracle mid prog count state)
    (hr : ∀ value count state, mid value state →
      Ends exec oracle post (rest value) count state) :
    Ends exec oracle post (prog >>= rest) count state := by
  unfold Ends
  rw [run_bind]
  exact hr _ _ _ hp

theorem ends_mono {stronger : α → σ → Prop} {prog : Prog Op Reply α}
    (hp : Ends exec oracle stronger prog count state)
    (h : ∀ value state, stronger value state → post value state) :
    Ends exec oracle post prog count state := h _ _ hp

end Running

-- Every operation that a program can issue is permitted, as long as every reply is possible.
def Issues (permits : Op → Prop) (possible : (op : Op) → Reply op → Prop) :
    Prog Op Reply α → Prop
  | ret _ => True
  | call op next => permits op ∧ ∀ reply, possible op reply → Issues permits possible (next reply)

section Issues

variable {permits : Op → Prop} {possible : (op : Op) → Reply op → Prop}

@[simp] theorem issues_ret (value : α) :
    Issues permits possible (ret value : Prog Op Reply α) ↔ True := .rfl

theorem issues_perform {op : Op} (h : permits op) : Issues permits possible (perform op) :=
  ⟨h, fun _ _ => trivial⟩

theorem issues_call {op : Op} {next : Reply op → Prog Op Reply α} (h : permits op)
    (hn : ∀ reply, possible op reply → Issues permits possible (next reply)) :
    Issues permits possible (perform op >>= next) := ⟨h, hn⟩

theorem issues_bind {prog : Prog Op Reply α} {rest : α → Prog Op Reply β}
    (hp : Issues permits possible prog) (hr : ∀ value, Issues permits possible (rest value)) :
    Issues permits possible (prog >>= rest) := by
  induction prog with
  | ret value => exact hr value
  | call op next ih => exact ⟨hp.1, fun reply hreply => ih reply (hp.2 reply hreply)⟩

theorem Issues.mono {weaker : Op → Prop} {prog : Prog Op Reply α}
    (hp : Issues permits possible prog) (hw : ∀ op, permits op → weaker op) :
    Issues weaker possible prog := by
  induction prog with
  | ret value => trivial
  | call op next ih => exact ⟨hw op hp.1, fun reply hreply => ih reply (hp.2 reply hreply)⟩

-- What every operation that a program can issue keeps, a run alone keeps.
theorem ends_issues {σ Chance : Type} {exec : (op : Op) → Chance → σ → Reply op × σ}
    {oracle : Nat → Op → Chance} {inv : σ → Prop} {prog : Prog Op Reply α} {count : Nat}
    {state : σ} (hp : Issues permits possible prog)
    (hstep : ∀ count op state, permits op → inv state →
      possible op (exec op (oracle count op) state).1 ∧ inv (exec op (oracle count op) state).2)
    (hs : inv state) : Ends exec oracle (fun _ state => inv state) prog count state := by
  induction prog generalizing count state with
  | ret value => exact ends_ret hs
  | call op next ih =>
      obtain ⟨hpossible, hafter⟩ := hstep count op state hp.1 hs
      exact ends_call (ih _ (hp.2 _ hpossible) hafter)

end Issues

-- Whatever the replies, a value that the program returns is as stated.
def Yields (post : α → Prop) : Prog Op Reply α → Prop
  | ret value => post value
  | call _ next => ∀ reply, Yields post (next reply)

section Yields

variable {post : α → Prop}

theorem yields_call {op : Op} {next : Reply op → Prog Op Reply α}
    (h : ∀ reply, Yields post (next reply)) : Yields post (perform op >>= next) := h

theorem yields_bind {mid : β → Prop} {prog : Prog Op Reply β} {rest : β → Prog Op Reply α}
    (hp : Yields mid prog) (hr : ∀ value, mid value → Yields post (rest value)) :
    Yields post (prog >>= rest) := by
  induction prog with
  | ret value => exact hr value hp
  | call op next ih => exact fun reply => ih reply (hp reply)

theorem ends_yields {σ Chance : Type} {exec : (op : Op) → Chance → σ → Reply op × σ}
    {oracle : Nat → Op → Chance} {prog : Prog Op Reply α} {count : Nat} {state : σ}
    (h : Yields post prog) : Ends exec oracle (fun value _ => post value) prog count state := by
  induction prog generalizing count state with
  | ret value => exact ends_ret h
  | call op next ih => exact ends_call (ih _ (h _))

theorem yields_true (prog : Prog Op Reply α) : Yields (fun _ => True) prog := by
  induction prog with
  | ret value => trivial
  | call op next ih => exact ih

end Yields

end Prog
