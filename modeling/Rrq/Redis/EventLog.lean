import Mathlib.Data.List.Basic

-- A log that grows at its end, its entries under growing ids, and what a reader sees of it.

structure EventLog (α : Type) where
  entries : List (Nat × α)
  last : Nat
  sorted : entries.Pairwise fun first second => first.1 < second.1
  le_last : ∀ entry ∈ entries, entry.1 ≤ last

namespace EventLog

variable {α : Type}

def empty : EventLog α := ⟨[], 0, .nil, nofun⟩

-- The new id is above all the ids given before.
def add (log : EventLog α) (id : Nat) (value : α) (h : log.last < id) : EventLog α where
  entries := log.entries ++ [(id, value)]
  last := id
  sorted := by
    refine List.pairwise_append.mpr ⟨log.sorted, List.pairwise_singleton _ _, ?_⟩
    intro entry hentry new hnew
    obtain rfl := List.mem_singleton.mp hnew
    exact Nat.lt_of_le_of_lt (log.le_last entry hentry) h
  le_last := by
    intro entry hentry
    rcases List.mem_append.mp hentry with hold | hnew
    · exact Nat.le_trans (log.le_last entry hold) (Nat.le_of_lt h)
    · exact Nat.le_of_eq (congrArg Prod.fst (List.mem_singleton.mp hnew))

@[simp] theorem add_last (log : EventLog α) {id : Nat} {value : α} {h : log.last < id} :
    (log.add id value h).last = id := rfl

def after (log : EventLog α) (id : Nat) : List (Nat × α) :=
  log.entries.filter fun entry => id < entry.1

theorem mem_after {log : EventLog α} {id : Nat} {entry : Nat × α} :
    entry ∈ log.after id ↔ entry ∈ log.entries ∧ id < entry.1 := by
  simp [after]

theorem after_last (log : EventLog α) : log.after log.last = [] := by
  refine List.filter_eq_nil_iff.mpr fun entry hentry => ?_
  simpa using log.le_last entry hentry

-- A reader who has nothing left to read sees the entry that is added.
theorem after_add {log : EventLog α} {start id : Nat} {value : α} {h : log.last < id}
    (hnone : log.after start = []) (hfrom : start < id) :
    (log.add id value h).after start = [(id, value)] := by
  have hold : log.entries.filter (fun entry => decide (start < entry.1)) = [] := hnone
  rw [after, add, List.filter_append, hold, List.nil_append]
  exact List.filter_cons_of_pos (by simpa using hfrom)

-- What is read first after an id lies beyond it, and no further than the log.
theorem head_after {log : EventLog α} {id : Nat} {entry : Nat × α}
    (h : (log.after id).head? = some entry) : id < entry.1 ∧ entry.1 ≤ log.last := by
  obtain ⟨hmem, hless⟩ := mem_after.mp (List.mem_of_mem_head? h)
  exact ⟨hless, log.le_last entry hmem⟩

end EventLog
