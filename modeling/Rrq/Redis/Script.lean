import Mathlib.Data.Option.Basic

-- A script is a sequence of calls to a store that no other client can separate. A call that
-- fails stops the script where it stands, and what the script wrote before stays written.
-- The budget of a run says how many calls succeed before one is made to fail.

abbrev Budget := Option Nat

def Script (σ α : Type) : Type := Budget → σ → Option (α × Budget) × σ

namespace Script

variable {σ α β : Type}

protected def pure (value : α) : Script σ α := fun budget store => (some (value, budget), store)

protected def bind (script : Script σ α) (next : α → Script σ β) : Script σ β := fun budget store =>
  match script budget store with
  | (none, store) => (none, store)
  | (some (value, budget), store) => next value budget store

instance : Monad (Script σ) where
  pure := Script.pure
  bind := Script.bind

-- One call: it fails when the budget is spent, and when the store refuses it.
def call (command : σ → Option (α × σ)) : Script σ α := fun budget store =>
  match budget, command store with
  | some 0, _ => (none, store)
  | _, none => (none, store)
  | budget, some (value, store) => (some (value, budget.map (· - 1)), store)

def ask (query : σ → α) : Script σ α := call fun store => some (query store, store)

def write (update : σ → σ) : Script σ Unit := call fun store => some ((), update store)

-- Catch the failure of a script, keeping what it wrote.
def pcall (script : Script σ α) : Script σ (Option α) := fun budget store =>
  match script budget store with
  | (none, store) => (some (none, none), store)
  | (some (value, budget), store) => (some (some value, budget), store)

def run (script : Script σ α) (budget : Budget) (store : σ) : Option α × σ :=
  match script budget store with
  | (none, store) => (none, store)
  | (some (value, _), store) => (some value, store)

-- What every write of a script keeps, the script keeps, wherever it stops.
def Keeps (holds : σ → Prop) (script : Script σ α) : Prop :=
  ∀ budget store, holds store → holds (script budget store).2

theorem Keeps.pure {holds : σ → Prop} (value : α) : Keeps holds (Script.pure value : Script σ α) :=
  fun _ _ h => h

theorem Keeps.bind {holds : σ → Prop} {script : Script σ α} {next : α → Script σ β}
    (hs : Keeps holds script) (hn : ∀ value, Keeps holds (next value)) :
    Keeps holds (script >>= next) := by
  intro budget store h
  have hfirst := hs budget store h
  change holds (Script.bind script next budget store).2
  unfold Script.bind
  split
  · rename_i heq
    simpa [heq] using hfirst
  · rename_i heq
    exact hn _ _ _ (by simpa [heq] using hfirst)

theorem Keeps.call {holds : σ → Prop} {command : σ → Option (α × σ)}
    (hc : ∀ store value after, command store = some (value, after) → holds store → holds after) :
    Keeps holds (call command) := by
  intro budget store h
  unfold Script.call
  split
  · exact h
  · exact h
  · rename_i heq
    exact hc _ _ _ heq h

theorem Keeps.ask {holds : σ → Prop} (query : σ → α) : Keeps holds (ask query) :=
  Keeps.call fun _ _ _ heq h => by
    obtain ⟨rfl, rfl⟩ := by simpa using heq
    exact h

theorem Keeps.write {holds : σ → Prop} {update : σ → σ}
    (hu : ∀ store, holds store → holds (update store)) : Keeps holds (write update) :=
  Keeps.call fun store _ _ heq h => by
    obtain rfl := by simpa using heq
    exact hu store h

theorem Keeps.pcall {holds : σ → Prop} {script : Script σ α} (hs : Keeps holds script) :
    Keeps holds (pcall script) := by
  intro budget store h
  have hrun := hs budget store h
  unfold Script.pcall
  split <;> rename_i heq <;> simpa [heq] using hrun

theorem Keeps.ite {holds : σ → Prop} {c : Prop} [Decidable c] {first second : Script σ α}
    (hf : Keeps holds first) (hs : Keeps holds second) :
    Keeps holds (if c then first else second) := by
  split
  · exact hf
  · exact hs

theorem Keeps.run {holds : σ → Prop} {script : Script σ α} (hs : Keeps holds script)
    (budget : Budget) {store : σ} (h : holds store) : holds (script.run budget store).2 := by
  have hrun := hs budget store h
  unfold Script.run
  split <;> rename_i heq <;> simpa [heq] using hrun

-- Every value that a script can give is as stated.
def Gives (post : α → Prop) (script : Script σ α) : Prop :=
  ∀ budget store value rest after, script budget store = (some (value, rest), after) → post value

theorem Gives.pure {post : α → Prop} {value : α} (h : post value) :
    Gives post (Script.pure value : Script σ α) := by
  intro budget store result rest after heq
  obtain ⟨⟨rfl, -⟩, -⟩ := by simpa [Script.pure] using heq
  exact h

theorem Gives.bind {post : β → Prop} {script : Script σ α} {next : α → Script σ β}
    (hn : ∀ value, Gives post (next value)) : Gives post (script >>= next) := by
  intro budget store result rest after heq
  change Script.bind script next budget store = _ at heq
  unfold Script.bind at heq
  split at heq
  · cases heq
  · exact hn _ _ _ _ _ _ heq

-- A query that a script starts with is asked of the store that it starts from.

theorem keeps_ask_bind {holds : σ → Prop} {query : σ → α} {next : α → Script σ β} {store : σ}
    (hs : holds store) (hn : Keeps holds (next (query store))) (budget : Budget) :
    holds ((ask query >>= next) budget store).2 := by
  change holds (Script.bind (ask query) next budget store).2
  unfold Script.bind ask Script.call
  cases budget with
  | none => exact hn _ _ hs
  | some calls =>
      cases calls with
      | zero => exact hs
      | succ calls => exact hn _ _ hs

theorem gives_ask_bind {post : β → Prop} {query : σ → α} {next : α → Script σ β} {store after : σ}
    {budget rest : Budget} {value : β} (hn : Gives post (next (query store)))
    (h : (ask query >>= next) budget store = (some (value, rest), after)) : post value := by
  change Script.bind (ask query) next budget store = _ at h
  unfold Script.bind ask Script.call at h
  cases budget with
  | none => exact hn _ _ _ _ _ h
  | some calls =>
      cases calls with
      | zero => cases h
      | succ calls => exact hn _ _ _ _ _ h

@[simp] theorem pure_eq (value : α) : (pure value : Script σ α) = Script.pure value := rfl

@[simp] theorem run_pure (value : α) (budget : Budget) (store : σ) :
    (Script.pure value : Script σ α).run budget store = (some value, store) := rfl

@[simp] theorem pure_bind (value : α) (next : α → Script σ β) :
    (Script.pure value : Script σ α) >>= next = next value := rfl

@[simp] theorem bind_assoc {γ : Type} (script : Script σ α) (next : α → Script σ β)
    (last : β → Script σ γ) :
    (script >>= next) >>= last = script >>= fun value => next value >>= last := by
  funext budget store
  change Script.bind (Script.bind script next) last budget store =
    Script.bind script (fun value => Script.bind (next value) last) budget store
  unfold Script.bind
  cases hfirst : script budget store with
  | mk result after => cases result <;> rfl

@[simp] theorem run_write_bind (update : σ → σ) (next : Unit → Script σ β) (store : σ) :
    (write update >>= next).run none store = (next ()).run none (update store) := rfl

@[simp] theorem run_ask_bind (query : σ → α) (next : α → Script σ β) (store : σ) :
    (ask query >>= next).run none store = (next (query store)).run none store := rfl

@[simp] theorem run_write (update : σ → σ) (store : σ) :
    (write update).run none store = (some (), update store) := rfl

@[simp] theorem run_ask (query : σ → α) (store : σ) :
    (ask query).run none store = (some (query store), store) := rfl

theorem run_call_bind (command : σ → Option (α × σ)) (next : α → Script σ β) (store : σ) :
    (call command >>= next).run none store =
      match command store with
      | none => (none, store)
      | some (value, after) => (next value).run none after := by
  change (Script.bind (call command) next).run none store = _
  unfold Script.bind Script.run Script.call
  cases hc : command store <;> simp [hc]

theorem run_call (command : σ → Option (α × σ)) (store : σ) :
    (call command).run none store =
      match command store with
      | none => (none, store)
      | some (value, after) => (some value, after) := by
  unfold Script.run Script.call
  cases command store <;> simp

-- A script that fails no call by itself leaves a run without budget without one.
def Steady (script : Script σ α) : Prop :=
  ∀ store value budget after, script none store = (some (value, budget), after) → budget = none

theorem Steady.pure (value : α) : Steady (Script.pure value : Script σ α) := by
  intro store result budget after h
  obtain ⟨⟨rfl, rfl⟩, rfl⟩ := by simpa [Script.pure] using h
  rfl

theorem Steady.call (command : σ → Option (α × σ)) : Steady (call command) := by
  intro store value budget after h
  unfold Script.call at h
  cases hc : command store with
  | none => simp [hc] at h
  | some result =>
      obtain ⟨⟨-, hbudget⟩, -⟩ := by simpa [hc] using h
      exact hbudget.symm

theorem Steady.bind {script : Script σ α} {next : α → Script σ β} (hs : Steady script)
    (hn : ∀ value, Steady (next value)) : Steady (script >>= next) := by
  intro store value budget after h
  change Script.bind script next none store = _ at h
  unfold Script.bind at h
  split at h
  · cases h
  · rename_i first rest mid heq
    obtain rfl := hs _ _ _ _ heq
    exact hn _ _ _ _ _ h

theorem Steady.ite {c : Prop} [Decidable c] {first second : Script σ α} (hf : Steady first)
    (hs : Steady second) : Steady (if c then first else second) := by
  split
  · exact hf
  · exact hs

-- Running a sequence is running its parts in turn.
theorem run_bind {script : Script σ α} (hs : Steady script) (next : α → Script σ β) (store : σ) :
    (script >>= next).run none store =
      match script.run none store with
      | (none, after) => (none, after)
      | (some value, after) => (next value).run none after := by
  change (Script.bind script next).run none store = _
  unfold Script.run Script.bind
  cases hrun : script none store with
  | mk result after =>
      cases result with
      | none => rfl
      | some pair =>
          obtain ⟨value, budget⟩ := pair
          obtain rfl := hs _ _ _ _ hrun
          rfl

-- A script that comes to its end within a budget comes to the same end without one.
def Lenient (script : Script σ α) : Prop :=
  ∀ budget store value rest after, script budget store = (some (value, rest), after) →
    script none store = (some (value, none), after)

theorem Lenient.pure (value : α) : Lenient (Script.pure value : Script σ α) := by
  intro budget store result rest after h
  obtain ⟨⟨rfl, -⟩, rfl⟩ := by simpa [Script.pure] using h
  rfl

theorem Lenient.call (command : σ → Option (α × σ)) : Lenient (call command) := by
  intro budget store value rest after h
  unfold Script.call at h ⊢
  cases hc : command store with
  | none => cases budget with
    | none => simp [hc] at h
    | some n => cases n <;> simp [hc] at h
  | some result => cases budget with
    | none =>
        obtain ⟨⟨rfl, -⟩, rfl⟩ := by simpa [hc] using h
        rfl
    | some n =>
        cases n with
        | zero => simp at h
        | succ n =>
            obtain ⟨⟨rfl, -⟩, rfl⟩ := by simpa [hc] using h
            rfl

theorem Lenient.bind {script : Script σ α} {next : α → Script σ β} (hs : Lenient script)
    (hn : ∀ value, Lenient (next value)) : Lenient (script >>= next) := by
  intro budget store value rest after h
  change Script.bind script next budget store = _ at h
  change Script.bind script next none store = _
  unfold Script.bind at h ⊢
  split at h
  · cases h
  · rename_i first left mid heq
    rw [hs _ _ _ _ _ heq]
    exact hn _ _ _ _ _ _ h

theorem Lenient.ite {c : Prop} [Decidable c] {first second : Script σ α} (hf : Lenient first)
    (hs : Lenient second) : Lenient (if c then first else second) := by
  split
  · exact hf
  · exact hs

theorem Lenient.run {script : Script σ α} (hs : Lenient script) {budget : Budget}
    {store after : σ} {value : α} (h : script.run budget store = (some value, after)) :
    script.run none store = (some value, after) := by
  unfold Script.run at h ⊢
  split at h
  · cases h
  · rename_i found left mid heq
    obtain ⟨rfl, rfl⟩ := by simpa using h
    rw [hs _ _ _ _ _ heq]

-- What is left of a budget after one more call, if it allows one.
def spend : Budget → Option Budget
  | none => some none
  | some 0 => none
  | some (n + 1) => some (some n)

-- The budget allows so many calls.
def Reaches : Budget → Nat → Prop
  | none, _ => True
  | some n, calls => calls ≤ n

instance (budget : Budget) (calls : Nat) : Decidable (Reaches budget calls) :=
  match budget with
  | none => inferInstanceAs (Decidable True)
  | some n => inferInstanceAs (Decidable (calls ≤ n))

@[simp] theorem reaches_none (calls : Nat) : Reaches none calls := trivial

@[simp] theorem reaches_zero (budget : Budget) : Reaches budget 0 := by
  cases budget with
  | none => trivial
  | some n => exact Nat.zero_le n

theorem not_reaches_succ {budget : Budget} (h : spend budget = none) (calls : Nat) :
    ¬ Reaches budget (calls + 1) := by
  match budget, h with
  | some 0, _ => exact Nat.not_succ_le_zero calls

theorem reaches_succ {budget rest : Budget} (h : spend budget = some rest) (calls : Nat) :
    Reaches budget (calls + 1) ↔ Reaches rest calls := by
  match budget, h with
  | none, rfl => simp
  | some (n + 1), rfl => exact Nat.succ_le_succ_iff

theorem run_call_bind_budget (command : σ → Option (α × σ)) (next : α → Script σ β)
    (budget : Budget) (store : σ) :
    (call command >>= next).run budget store =
      match spend budget, command store with
      | some rest, some (value, after) => (next value).run rest after
      | _, _ => (none, store) := by
  change (Script.bind (call command) next).run budget store = _
  unfold Script.bind Script.run Script.call spend
  match budget with
  | none => cases hc : command store <;> simp [hc]
  | some 0 => rfl
  | some (n + 1) => cases hc : command store <;> simp [hc]

theorem run_bind_spent {command : σ → Option (α × σ)} {next : α → Script σ β} {budget : Budget}
    {store : σ} (h : spend budget = none) :
    (call command >>= next).run budget store = (none, store) := by
  rw [run_call_bind_budget, h]

theorem run_bind_refused {command : σ → Option (α × σ)} {next : α → Script σ β}
    {budget : Budget} {store : σ} (h : command store = none) :
    (call command >>= next).run budget store = (none, store) := by
  rw [run_call_bind_budget, h]
  cases spend budget <;> rfl

theorem run_bind_done {command : σ → Option (α × σ)} {next : α → Script σ β}
    {budget rest : Budget} {store after : σ} {value : α} (h : spend budget = some rest)
    (hc : command store = some (value, after)) :
    (call command >>= next).run budget store = (next value).run rest after := by
  rw [run_call_bind_budget, h, hc]

theorem run_ask_spent {query : σ → α} {next : α → Script σ β} {budget : Budget} {store : σ}
    (h : spend budget = none) : (ask query >>= next).run budget store = (none, store) :=
  run_bind_spent h

theorem run_ask_next {query : σ → α} {next : α → Script σ β} {budget rest : Budget} {store : σ}
    (h : spend budget = some rest) :
    (ask query >>= next).run budget store = (next (query store)).run rest store :=
  run_bind_done h rfl

theorem run_write_spent {update : σ → σ} {next : Unit → Script σ β} {budget : Budget} {store : σ}
    (h : spend budget = none) : (write update >>= next).run budget store = (none, store) :=
  run_bind_spent h

theorem run_write_next {update : σ → σ} {next : Unit → Script σ β} {budget rest : Budget}
    {store : σ} (h : spend budget = some rest) :
    (write update >>= next).run budget store = (next ()).run rest (update store) :=
  run_bind_done h rfl

-- A script that only interprets the result of another.
theorem run_pcall_bind (script : Script σ α) (f : Option α → β) (budget : Budget) (store : σ) :
    (pcall script >>= fun result => pure (f result)).run budget store =
      (some (f (script.run budget store).1), (script.run budget store).2) := by
  change (Script.bind (pcall script) _).run budget store = _
  unfold Script.run Script.bind Script.pcall
  cases hrun : script budget store with
  | mk result after => cases result <;> rfl

-- A script that answers as stated if it can make so many calls, and else stops.
def Answers (calls : Nat) (answer : α) (script : Script σ α) : Prop :=
  ∀ (budget : Budget) (store : σ),
    (script.run budget store).1 = if Reaches budget calls then some answer else none

theorem answers_pure (answer : α) : Answers (σ := σ) 0 answer (pure answer) :=
  fun budget _ => (if_pos (reaches_zero budget)).symm

theorem answers_write {calls : Nat} {answer : α} {update : σ → σ} {next : Unit → Script σ α}
    (h : Answers calls answer (next ())) : Answers (calls + 1) answer (write update >>= next) := by
  intro budget store
  cases hs : spend budget with
  | none => rw [run_write_spent hs, if_neg (not_reaches_succ hs calls)]
  | some rest => simp only [run_write_next hs, reaches_succ hs, h rest (update store)]

end Script
