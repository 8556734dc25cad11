import Mathlib.Data.List.TakeWhile
import Rrq.Redis.SortedSet

-- What stands before an entry.

namespace SortedSet

variable {α β : Type} [LinearOrder α] [LinearOrder β] {set : SortedSet α β}
  {first entry : α × β}

def Before (first entry : α × β) : Prop := Rank first entry ∧ first.1 ≠ entry.1

instance (first entry : α × β) : Decidable (Before first entry) :=
  inferInstanceAs (Decidable (_ ∧ _))

def ahead (set : SortedSet α β) (entry : α × β) : List (α × β) :=
  set.entries.filter (Before · entry)

theorem mem_ahead : first ∈ set.ahead entry ↔ first ∈ set.entries ∧ Before first entry := by
  simp [ahead]

theorem nodup_ahead (set : SortedSet α β) (entry : α × β) : (set.ahead entry).Nodup :=
  (List.Nodup.of_map Prod.fst set.distinct).filter _

theorem eq_of_fst_eq (hf : first ∈ set.entries) (he : entry ∈ set.entries)
    (h : first.1 = entry.1) : first = entry :=
  List.inj_on_of_nodup_map set.distinct hf he h

-- What is listed before an entry ranks before it, also where the entry is cut off.
theorem rank_of_mem_takeWhile {listed rest : List (α × β)}
    (hranked : (listed ++ rest).Pairwise Rank) (hdistinct : ((listed ++ rest).map Prod.fst).Nodup)
    (hf : first ∈ listed) (he : entry ∈ listed ++ rest)
    (h : first.1 ∈ (listed.map Prod.fst).takeWhile (· ≠ entry.1)) : Rank first entry := by
  induction listed with
  | nil => cases hf
  | cons head listed ih =>
      obtain ⟨hhead, hrest⟩ := List.pairwise_cons.mp hranked
      obtain ⟨hnot, hdistinct⟩ := List.nodup_cons.mp hdistinct
      by_cases hstop : head.1 = entry.1
      · simp [hstop] at h
      · have hlater : entry ∈ listed ++ rest :=
          (List.mem_cons.mp he).resolve_left fun heq => hstop (congrArg Prod.fst heq).symm
        rcases List.mem_cons.mp hf with rfl | hf
        · exact hhead entry hlater
        · have hne : first.1 ≠ head.1 := fun heq =>
            hnot (heq ▸ List.mem_map_of_mem (List.mem_append_left rest hf))
          refine ih hrest hdistinct hf hlater ?_
          simpa [List.takeWhile_cons, hstop, hne] using h

-- Of the first members up to a bound, those that are listed before some member stand before it.
theorem before_of_mem_takeWhile {bound : β} {limit : Nat} (hf : first ∈ set.entries)
    (he : entry ∈ set.entries)
    (h : first.1 ∈ (set.upTo bound limit).takeWhile (· ≠ entry.1)) : Before first entry := by
  have hne : first.1 ≠ entry.1 := by simpa using List.mem_takeWhile_imp h
  let due := set.entries.filter fun entry => entry.2 ≤ bound
  obtain ⟨same, hsame, hfst⟩ := List.mem_map.mp ((List.takeWhile_prefix _).subset h)
  have hdue := List.mem_filter.mp (List.mem_of_mem_take hsame)
  obtain rfl := eq_of_fst_eq hdue.1 hf hfst
  refine ⟨?_, hne⟩
  by_cases hbound : entry.2 ≤ bound
  · have hranked : due.Pairwise Rank := set.ranked.filter _
    have hdistinct : (due.map Prod.fst).Nodup := set.distinct.sublist (List.filter_sublist.map _)
    rw [← List.take_append_drop limit due] at hranked hdistinct
    refine rank_of_mem_takeWhile hranked hdistinct hsame ?_ h
    rw [List.take_append_drop]
    exact List.mem_filter.mpr ⟨he, by simpa using hbound⟩
  · have hless : same.2 ≤ bound := by simpa using hdue.2
    exact .inl (hless.trans_lt (not_le.mp hbound))

-- The first member up to a bound that some entry is within.
theorem exists_head_upTo {bound : β} {limit : Nat} (he : entry ∈ set.entries)
    (hbound : entry.2 ≤ bound) (hlimit : 0 < limit) :
    ∃ head rest, set.upTo bound limit = head :: rest := by
  have hdue : entry ∈ set.entries.filter fun entry => entry.2 ≤ bound :=
    List.mem_filter.mpr ⟨he, by simpa using hbound⟩
  refine List.exists_cons_of_ne_nil fun hnil => ?_
  simp only [upTo, List.map_eq_nil_iff, List.take_eq_nil_iff] at hnil
  rcases hnil with hzero | hnil
  · omega
  · rw [hnil] at hdue
    cases hdue

end SortedSet
