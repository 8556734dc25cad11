import Rrq.Concurrent.Prog

-- Reasoning about one program among others. Between two of its operations the others may
-- move the state as the rely allows. In return each of its own operations keeps the
-- invariant and moves the state as its guarantee allows.

structure Discipline (Op : Type) (Reply : Op → Type) (Chance σ : Type) where
  exec : (op : Op) → Chance → σ → Reply op × σ
  -- Which outcomes of an operation are admitted at all.
  admits : (op : Op) → Chance → σ → Prop
  inv : σ → Prop
  rely : σ → σ → Prop
  guar : σ → σ → Prop
  -- What an operation that starts another program owes to it.
  begins : (op : Op) → Reply op → σ → Prop

namespace Discipline

variable {Op : Type} {Reply : Op → Type} {Chance σ α β : Type}

def Step (d : Discipline Op Reply Chance σ) (op : Op) (chance : Chance) (before : σ)
    (reply : Reply op) (after : σ) : Prop :=
  d.inv before ∧ d.admits op chance before ∧ d.exec op chance before = (reply, after)

def Safe (d : Discipline Op Reply Chance σ) (post : α → σ → Prop) :
    Prog Op Reply α → σ → Prop
  | .ret value, state => post value state
  | .call op next, state => ∀ before, d.rely state before →
      ∀ chance reply after, d.Step op chance before reply after →
        d.inv after ∧ d.guar before after ∧ d.begins op reply after ∧
          d.Safe post (next reply) after

variable {d : Discipline Op Reply Chance σ}

theorem safe_ret {post : α → σ → Prop} {value : α} {state : σ} (h : post value state) :
    d.Safe post (.ret value) state := h

theorem safe_bind {mid : α → σ → Prop} {post : β → σ → Prop} {prog : Prog Op Reply α}
    {rest : α → Prog Op Reply β} {state : σ} (hp : d.Safe mid prog state)
    (hr : ∀ value state, mid value state → d.Safe post (rest value) state) :
    d.Safe post (prog >>= rest) state := by
  induction prog generalizing state with
  | ret value => exact hr value state hp
  | call op next ih =>
      intro before hrely chance reply after hstep
      obtain ⟨hi, hg, hb, hs⟩ := hp before hrely chance reply after hstep
      exact ⟨hi, hg, hb, ih reply hs⟩

theorem safe_mono {post weaker : α → σ → Prop} {prog : Prog Op Reply α} {state : σ}
    (hp : d.Safe post prog state) (hw : ∀ value state, post value state → weaker value state) :
    d.Safe weaker prog state := by
  induction prog generalizing state with
  | ret value => exact hw value state hp
  | call op next ih =>
      intro before hrely chance reply after hstep
      obtain ⟨hi, hg, hb, hs⟩ := hp before hrely chance reply after hstep
      exact ⟨hi, hg, hb, ih reply hs⟩

-- Safety survives what the others do.
theorem safe_rely (htrans : ∀ a b c, d.rely a b → d.rely b c → d.rely a c)
    {post : α → σ → Prop} (hpost : ∀ value a b, post value a → d.rely a b → post value b)
    {prog : Prog Op Reply α} {state later : σ} (hp : d.Safe post prog state)
    (hr : d.rely state later) : d.Safe post prog later := by
  cases prog with
  | ret value => exact hpost value _ _ hp hr
  | call op next => exact fun before hrely => hp before (htrans _ _ _ hr hrely)

-- A program all of whose permitted operations are harmless is safe wherever what its
-- operations need holds and keeps holding.
theorem safe_of_issues {permits : Op → Prop} {possible : (op : Op) → Reply op → Prop}
    {post : α → σ → Prop} (stable : σ → Prop) (hpost : ∀ value state, post value state)
    (hrely : ∀ a b, stable a → d.rely a b → stable b)
    (hstep : ∀ op chance before reply after, permits op → stable before →
      d.Step op chance before reply after → d.inv after ∧ d.guar before after ∧
        d.begins op reply after ∧ possible op reply ∧ stable after)
    {prog : Prog Op Reply α} (hp : prog.Issues permits possible) {state : σ} (hs : stable state) :
    d.Safe post prog state := by
  induction prog generalizing state with
  | ret value => exact hpost value state
  | call op next ih =>
      intro before hbefore chance reply after h
      obtain ⟨hi, hg, hb, hreply, hs'⟩ :=
        hstep op chance before reply after hp.1 (hrely _ _ hs hbefore) h
      exact ⟨hi, hg, hb, ih reply (hp.2 reply hreply) hs'⟩

-- A run of a program to its end. Before each operation the others may move the state.
inductive RunsAmong (exec : (op : Op) → Chance → σ → Reply op × σ)
    (admits : (op : Op) → Chance → σ → Prop) (rely : σ → σ → Prop) :
    Prog Op Reply α → σ → α → σ → Prop
  | ret (value : α) (state : σ) : RunsAmong exec admits rely (.ret value) state value state
  | call {op : Op} {next : Reply op → Prog Op Reply α} {state before last : σ} {value : α}
      (chance : Chance) : rely state before → admits op chance before →
      RunsAmong exec admits rely (next (exec op chance before).1) (exec op chance before).2
        value last →
      RunsAmong exec admits rely (.call op next) state value last

-- A program run alone is a special case.
theorem runsAmong_run {exec : (op : Op) → Chance → σ → Reply op × σ}
    {admits : (op : Op) → Chance → σ → Prop} {rely : σ → σ → Prop} (hrefl : ∀ s, rely s s)
    {oracle : Nat → Op → Chance} (hadmits : ∀ n op s, admits op (oracle n op) s)
    (prog : Prog Op Reply α) (n : Nat) (s : σ) :
    RunsAmong exec admits rely prog s (Prog.run exec oracle prog n s).1
      (Prog.run exec oracle prog n s).2.2 := by
  induction prog generalizing n s with
  | ret value => exact .ret value s
  | call op next ih => exact .call (oracle n op) (hrefl s) (hadmits n op s) (ih _ _ _)

-- What is shown of a safe program holds where such a run ends.
theorem safe_runs (hinv : ∀ a b, d.inv a → d.rely a b → d.inv b) {post : α → σ → Prop}
    {prog : Prog Op Reply α} {state last : σ} {value : α}
    (hr : RunsAmong d.exec d.admits d.rely prog state value last) (hs : d.Safe post prog state)
    (hi : d.inv state) : d.inv last ∧ post value last := by
  induction hr with
  | ret value state => exact ⟨hi, hs⟩
  | call chance hrely hadmits _ ih =>
      have hbefore := hinv _ _ hi hrely
      obtain ⟨hafter, -, -, hnext⟩ := hs _ hrely chance _ _ ⟨hbefore, hadmits, rfl⟩
      exact ih hnext hafter

theorem yields_runs {exec : (op : Op) → Chance → σ → Reply op × σ}
    {admits : (op : Op) → Chance → σ → Prop} {rely : σ → σ → Prop} {post : α → Prop}
    {prog : Prog Op Reply α} {state last : σ} {value : α}
    (hr : RunsAmong exec admits rely prog state value last) (hp : prog.Yields post) :
    post value := by
  induction hr with
  | ret value state => exact hp
  | call chance _ _ _ ih => exact ih (hp _)

end Discipline
