import Mathlib.Data.List.Basic
import Mathlib.Tactic.Common
import Mathlib.Tactic.Simps.Basic

-- The lock of an event loop. Who finds it free takes it at once; who does not waits in line,
-- and is woken when the lock is released before it. A waiter may be cancelled meanwhile.

-- What has become of a waiter.
inductive Turn where
  | pending
  | ready
  | cancelled
deriving DecidableEq

structure Lock (α : Type) where
  holder : Option α := none
  waiters : List (α × Turn) := []

namespace Lock

variable {α : Type} (lock : Lock α) (who other : α)

def Free : Bool := lock.holder.isNone && lock.waiters.all fun waiter => waiter.2 = .cancelled

@[simps] def take : Lock α := { lock with holder := some who }

@[simps] def wait : Lock α := { lock with waiters := lock.waiters ++ [(who, .pending)] }

def wakeFirst : Lock α :=
  match lock.waiters with
  | (first, .pending) :: rest => { lock with waiters := (first, .ready) :: rest }
  | _ => lock

def release : Lock α := wakeFirst { lock with holder := none }

def Waiting : Prop := ∃ turn, (who, turn) ∈ lock.waiters

-- It is taken, or the first in line has been woken.
def Awake : Prop :=
  lock.holder.isSome = true ∨ ∀ first, lock.waiters.head? = some first → first.2 ≠ .pending

section Leaving

variable [DecidableEq α]

@[simps] def leave : Lock α :=
  { lock with waiters := lock.waiters.filter fun waiter => waiter.1 ≠ who }

-- A waiter that has been woken takes the lock.
def resume : Lock α := (lock.leave who).take who

-- A waiter that has been cancelled makes way for the next one.
def giveUp : Lock α :=
  if lock.holder.isSome then lock.leave who else (lock.leave who).wakeFirst

@[simps] def cancel : Lock α :=
  { lock with waiters := lock.waiters.map fun waiter =>
      if waiter = (who, .pending) then (who, .cancelled) else waiter }

-- The waiter has something to wake up to.
def Resumes : Bool := lock.waiters.any fun waiter => waiter.1 = who && waiter.2 ≠ .pending

end Leaving

attribute [grind =] take_holder wait_holder cancel_holder

@[simp, grind =] theorem wakeFirst_holder : lock.wakeFirst.holder = lock.holder := by
  unfold wakeFirst
  split <;> rfl

@[simp, grind =] theorem release_holder : lock.release.holder = none := by
  rw [release, wakeFirst_holder]

@[simp, grind =] theorem waiting_take :
    (lock.take who).Waiting other ↔ lock.Waiting other := Iff.rfl

@[simp, grind =] theorem waiting_wait :
    (lock.wait who).Waiting other ↔ lock.Waiting other ∨ other = who := by
  simp [Waiting, exists_or]

@[simp, grind =] theorem waiting_wakeFirst : lock.wakeFirst.Waiting other ↔ lock.Waiting other := by
  unfold wakeFirst
  split
  · rename_i first rest hw
    simp [Waiting, hw, exists_or]
  · rfl

@[simp, grind =] theorem waiting_release : lock.release.Waiting other ↔ lock.Waiting other := by
  rw [release, waiting_wakeFirst]
  rfl

@[grind ←] theorem awake_take : (lock.take who).Awake := .inl rfl

-- Whoever finds the lock neither free nor taken has a woken waiter before it.
@[grind ←] theorem awake_wait (h : lock.Awake) (hfree : lock.Free = false) :
    (lock.wait who).Awake := by
  rcases h with h | h
  · exact .inl h
  cases hl : lock.holder with
  | some holder => exact .inl (by rw [wait_holder, hl]; rfl)
  | none =>
      right
      intro first hfirst
      apply h first
      cases hw : lock.waiters with
      | nil => simp [Free, hl, hw] at hfree
      | cons head rest => simpa [hw] using hfirst

theorem awake_wakeFirst : lock.wakeFirst.Awake := by
  right
  intro first hfirst
  unfold wakeFirst at hfirst
  split at hfirst
  · simp only [List.head?_cons, Option.some.injEq] at hfirst
    rw [← hfirst]
    simp
  · rename_i hnot
    intro hpending
    obtain ⟨rest, hw⟩ := List.head?_eq_some_iff.mp hfirst
    exact hnot first.1 rest (by rw [hw, ← hpending])

@[grind ←] theorem awake_release : lock.release.Awake := awake_wakeFirst _

variable [DecidableEq α]

@[simp, grind =] theorem resume_holder : (lock.resume who).holder = some who := rfl

@[simp, grind =] theorem giveUp_holder : (lock.giveUp who).holder = lock.holder := by
  unfold giveUp
  split <;> simp

@[simp, grind =] theorem waiting_leave :
    (lock.leave who).Waiting other ↔ other ≠ who ∧ lock.Waiting other := by
  simp [Waiting, and_comm]

@[simp, grind =] theorem waiting_resume :
    (lock.resume who).Waiting other ↔ other ≠ who ∧ lock.Waiting other := by
  rw [resume, waiting_take, waiting_leave]

@[simp, grind =] theorem waiting_giveUp :
    (lock.giveUp who).Waiting other ↔ other ≠ who ∧ lock.Waiting other := by
  unfold giveUp
  split <;> simp

@[simp, grind =] theorem waiting_cancel : (lock.cancel who).Waiting other ↔ lock.Waiting other := by
  constructor
  · rintro ⟨turn, hturn⟩
    obtain ⟨waiter, hmem, heq⟩ := List.mem_map.mp hturn
    split at heq
    · rename_i hw
      obtain ⟨rfl, -⟩ := Prod.mk.inj heq
      exact ⟨.pending, hw ▸ hmem⟩
    · exact ⟨turn, heq ▸ hmem⟩
  · rintro ⟨turn, hturn⟩
    by_cases hw : (other, turn) = (who, .pending)
    · exact ⟨.cancelled, List.mem_map.mpr ⟨_, hturn, by rw [if_pos hw, (Prod.mk.inj hw).1]⟩⟩
    · exact ⟨turn, List.mem_map.mpr ⟨_, hturn, by rw [if_neg hw]⟩⟩

@[grind ←] theorem awake_resume : (lock.resume who).Awake := awake_take _ _

@[grind ←] theorem awake_giveUp : (lock.giveUp who).Awake := by
  unfold giveUp
  split
  · rename_i hl
    exact .inl hl
  · exact awake_wakeFirst _

@[grind ←] theorem awake_cancel (h : lock.Awake) : (lock.cancel who).Awake := by
  rcases h with h | h
  · exact .inl h
  right
  intro first hfirst
  cases hw : lock.waiters with
  | nil => simp [hw] at hfirst
  | cons head rest =>
      have hhead := h head (by rw [hw]; rfl)
      have hne : head ≠ (who, .pending) := fun he => hhead (by rw [he])
      simp only [cancel_waiters, hw, List.map_cons, if_neg hne, List.head?_cons,
        Option.some.injEq] at hfirst
      exact hfirst ▸ hhead

-- Where somebody waits for a lock that nobody has, somebody can go on.
theorem exists_resumes (h : lock.Awake) (hl : lock.holder = none) (hw : lock.Waiting who) :
    ∃ first, lock.Waiting first ∧ lock.Resumes first = true := by
  obtain ⟨turn, hmem⟩ := hw
  obtain ⟨first, rest, heq⟩ := List.exists_cons_of_ne_nil (List.ne_nil_of_mem hmem)
  have hturn := (h.resolve_left (by simp [hl])) first (by rw [heq]; rfl)
  refine ⟨first.1, ⟨first.2, by rw [heq]; simp⟩, ?_⟩
  simp [Resumes, heq, hturn]

end Lock
