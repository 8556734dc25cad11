import Mathlib.Data.List.Sort
import Mathlib.Order.Basic

-- Sets whose members carry a score. The entries are kept ranked by score,
-- equal scores by member, and no member occurs twice.

namespace SortedSet

variable {α β : Type} [LinearOrder α] [LinearOrder β]

def Rank (a b : α × β) : Prop :=
  a.2 < b.2 ∨ a.2 = b.2 ∧ a.1 ≤ b.1

instance (a b : α × β) : Decidable (Rank a b) :=
  inferInstanceAs (Decidable (a.2 < b.2 ∨ a.2 = b.2 ∧ a.1 ≤ b.1))

instance : Std.Total (Rank (α := α) (β := β)) where
  total a b := by
    unfold Rank
    rcases lt_trichotomy a.2 b.2 with h | h | h
    · exact .inl (.inl h)
    · rcases le_total a.1 b.1 with hm | hm
      · exact .inl (.inr ⟨h, hm⟩)
      · exact .inr (.inr ⟨h.symm, hm⟩)
    · exact .inr (.inl h)

instance : IsTrans (α × β) Rank where
  trans a b c hab hbc := by
    unfold Rank at *
    rcases hab with hab | ⟨hab, hm⟩ <;> rcases hbc with hbc | ⟨hbc, hn⟩
    · exact .inl (hab.trans hbc)
    · exact .inl (hbc ▸ hab)
    · exact .inl (hab ▸ hbc)
    · exact .inr ⟨hab.trans hbc, hm.trans hn⟩

end SortedSet

structure SortedSet (α β : Type) [LinearOrder α] [LinearOrder β] where
  entries : List (α × β)
  ranked : entries.Pairwise SortedSet.Rank
  distinct : (entries.map Prod.fst).Nodup

namespace SortedSet

variable {α β : Type} [LinearOrder α] [LinearOrder β]

def empty : SortedSet α β := ⟨[], .nil, .nil⟩

def score? (set : SortedSet α β) (member : α) : Option β :=
  (set.entries.find? (fun entry => entry.1 = member)).map Prod.snd

instance : Membership α (SortedSet α β) where
  mem set member := member ∈ set.entries.map Prod.fst

instance (member : α) (set : SortedSet α β) : Decidable (member ∈ set) :=
  inferInstanceAs (Decidable (member ∈ set.entries.map Prod.fst))

-- Remove a member, if it is there.
def erase (set : SortedSet α β) (member : α) : SortedSet α β where
  entries := set.entries.filter (fun entry => entry.1 ≠ member)
  ranked := set.ranked.filter _
  distinct := set.distinct.sublist (List.filter_sublist.map Prod.fst)

theorem mem_def {set : SortedSet α β} {member : α} :
    member ∈ set ↔ ∃ score, (member, score) ∈ set.entries := by
  change member ∈ set.entries.map Prod.fst ↔ _
  simp

@[simp] theorem not_mem_empty (member : α) : member ∉ (empty : SortedSet α β) := by
  simp [mem_def, empty]

@[simp] theorem mem_erase {set : SortedSet α β} {member other : α} :
    other ∈ set.erase member ↔ other ≠ member ∧ other ∈ set := by
  simp [mem_def, erase, and_comm]

-- Give a member a score, whether it is new or already ranked elsewhere.
def insert (set : SortedSet α β) (member : α) (score : β) : SortedSet α β where
  entries := (set.erase member).entries.orderedInsert Rank (member, score)
  ranked := (set.erase member).ranked.orderedInsert _ _
  distinct := by
    refine ((List.perm_orderedInsert _ _ _).map Prod.fst).nodup_iff.mpr ?_
    refine List.nodup_cons.mpr ⟨fun h => ?_, (set.erase member).distinct⟩
    exact (mem_erase.mp h).1 rfl

@[simp] theorem mem_insert {set : SortedSet α β} {member other : α} {score : β} :
    other ∈ set.insert member score ↔ other = member ∨ other ∈ set := by
  simp only [mem_def, insert, List.mem_orderedInsert, Prod.mk.injEq]
  by_cases h : other = member
  · simp [h]
  · simp [h, erase]

theorem score?_eq_some {set : SortedSet α β} {member : α} {score : β} :
    set.score? member = some score ↔ (member, score) ∈ set.entries := by
  obtain ⟨entries, hr, hd⟩ := set
  simp only [score?]
  induction entries with
  | nil => simp
  | cons entry rest ih =>
      obtain ⟨hnot, hrest⟩ := List.nodup_cons.mp hd
      by_cases h : entry.1 = member
      · subst h
        have : (entry.1, score) ∉ rest := fun hm => hnot (List.mem_map.mpr ⟨_, hm, rfl⟩)
        simp [this, Prod.ext_iff, eq_comm]
      · have hne : (member, score) ≠ entry := fun he => h (congrArg Prod.fst he).symm
        have hranked := hr.of_cons
        simpa [List.find?_cons, h, hne] using ih hranked hrest

@[simp] theorem score?_insert_self (set : SortedSet α β) (member : α) (score : β) :
    (set.insert member score).score? member = some score := by
  simp [score?_eq_some, insert, List.mem_orderedInsert]

theorem isSome_score? {set : SortedSet α β} {member : α} :
    (set.score? member).isSome ↔ member ∈ set := by
  simp [Option.isSome_iff_exists, score?_eq_some, mem_def]

theorem score?_eq_none {set : SortedSet α β} {member : α} (h : member ∉ set) :
    set.score? member = none := by
  rwa [← isSome_score?, Bool.not_eq_true, Option.isSome_eq_false_iff, Option.isNone_iff_eq_none] at h

theorem erase_erase (set : SortedSet α β) (member : α) :
    (set.erase member).erase member = set.erase member := by
  simp [erase, List.filter_filter]

theorem score?_congr {set other' : SortedSet α β} {member : α}
    (h : ∀ score, (member, score) ∈ set.entries ↔ (member, score) ∈ other'.entries) :
    set.score? member = other'.score? member := by
  apply Option.ext
  intro score
  rw [score?_eq_some, score?_eq_some, h]

theorem score?_erase_self {set : SortedSet α β} {member : α} :
    (set.erase member).score? member = none := by
  exact score?_eq_none (by simp)

theorem score?_erase_of_ne {set : SortedSet α β} {member other : α} (h : other ≠ member) :
    (set.erase member).score? other = set.score? other := by
  apply score?_congr
  intro score
  simp [erase, h]

theorem score?_insert_of_ne {set : SortedSet α β} {member other : α} (h : other ≠ member)
    (score : β) : (set.insert member score).score? other = set.score? other := by
  apply score?_congr
  intro found
  simp [insert, List.mem_orderedInsert, erase, h]

-- The first members, in rank order, whose score does not exceed a bound.
def upTo (set : SortedSet α β) (bound : β) (limit : Nat) : List α :=
  ((set.entries.filter (fun entry => entry.2 ≤ bound)).take limit).map Prod.fst

theorem mem_of_mem_upTo {set : SortedSet α β} {bound : β} {limit : Nat} {member : α}
    (h : member ∈ set.upTo bound limit) : member ∈ set := by
  have hsub : (set.entries.filter (fun entry => entry.2 ≤ bound)).take limit ⊆ set.entries :=
    fun _ he => (List.mem_filter.mp (List.take_subset _ _ he)).1
  exact List.map_subset _ hsub h

theorem nodup_upTo (set : SortedSet α β) (bound : β) (limit : Nat) :
    (set.upTo bound limit).Nodup :=
  set.distinct.sublist (((List.take_sublist _ _).trans List.filter_sublist).map Prod.fst)

end SortedSet
