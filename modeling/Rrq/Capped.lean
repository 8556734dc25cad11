import Mathlib.Data.Finmap

-- Tables whose entries are put into a finite map, one after the other, until it is full.

namespace Capped

variable {μ α β : Type} [DecidableEq α] (gives : μ → Option (α × β)) (limit : Nat)

-- Some entries give nothing, and a later value takes the place of an earlier one.
def put (map : Finmap fun _ : α => β) (entry : μ) : Finmap fun _ : α => β :=
  if limit ≤ map.keys.card then map
  else
    match gives entry with
    | none => map
    | some (key, value) => map.insert key value

def fill (table : List μ) (map : Finmap fun _ : α => β) : Finmap fun _ : α => β :=
  table.foldl (put gives limit) map

def keys (table : List μ) : Finset α := ((table.filterMap gives).map Prod.fst).toFinset

-- No key is given two values.
def Consistent (table : List μ) : Prop :=
  ∀ entry ∈ table, ∀ other ∈ table, ∀ key value value',
    gives entry = some (key, value) → gives other = some (key, value') → value = value'

variable {gives limit} {table : List μ} {map : Finmap fun _ : α => β} {entry : μ} {key : α}
  {value : β}

theorem mem_keys : key ∈ keys gives table ↔
    ∃ entry ∈ table, ∃ value, gives entry = some (key, value) := by
  simp only [keys, List.mem_toFinset, List.mem_map, List.mem_filterMap, Prod.exists,
    exists_and_right, exists_eq_right]
  constructor
  · rintro ⟨value, entry, he, ha⟩
    exact ⟨entry, he, value, ha⟩
  · rintro ⟨entry, he, value, ha⟩
    exact ⟨value, entry, he, ha⟩

theorem eq_empty (h : map.keys = ∅) : map = ∅ := by
  apply Finmap.ext_lookup
  intro key
  rw [Finmap.lookup_empty, Finmap.lookup_eq_none, ← Finmap.mem_keys, h]
  exact Finset.notMem_empty key

section Put

theorem put_full (h : limit ≤ map.keys.card) : put gives limit map entry = map := if_pos h

theorem put_none (h : gives entry = none) : put gives limit map entry = map := by
  unfold put
  split
  · rfl
  · rw [h]

theorem put_some (hroom : map.keys.card < limit) (h : gives entry = some (key, value)) :
    put gives limit map entry = map.insert key value := by
  unfold put
  rw [if_neg (Nat.not_le.mpr hroom), h]

theorem keys_insert (map : Finmap fun _ : α => β) (key : α) (value : β) :
    (map.insert key value).keys = insert key map.keys := by
  ext other
  rw [Finmap.mem_keys, Finmap.mem_insert, Finset.mem_insert, Finmap.mem_keys]

-- What one entry can do.
theorem put_cases (limit : Nat) (map : Finmap fun _ : α => β) (entry : μ) :
    put gives limit map entry = map ∨
      ∃ key value, map.keys.card < limit ∧ gives entry = some (key, value) ∧
        put gives limit map entry = map.insert key value := by
  rcases Nat.lt_or_ge map.keys.card limit with hroom | hfull
  · cases ha : gives entry with
    | none => exact .inl (put_none ha)
    | some pair => exact .inr ⟨pair.1, pair.2, hroom, rfl, put_some hroom ha⟩
  · exact .inl (put_full hfull)

theorem mem_put (h : key ∈ map) : key ∈ put gives limit map entry := by
  obtain hsame | ⟨other, value, -, -, hput⟩ := put_cases limit map entry
  · rw [hsame]
    exact h
  · rw [hput]
    exact Finmap.mem_insert.mpr (.inr h)

theorem lookup_put_of_ne (h : ∀ other value, gives entry = some (other, value) → other ≠ key) :
    (put gives limit map entry).lookup key = map.lookup key := by
  obtain hsame | ⟨other, value, -, ha, hput⟩ := put_cases limit map entry
  · rw [hsame]
  · rw [hput, Finmap.lookup_insert_of_ne _ (h other value ha).symm]

theorem card_put_le (h : map.keys.card ≤ limit) :
    (put gives limit map entry).keys.card ≤ limit := by
  obtain hsame | ⟨other, value, hroom, -, hput⟩ := put_cases limit map entry
  · rw [hsame]
    exact h
  · rw [hput, keys_insert]
    exact (Finset.card_insert_le _ _).trans hroom

theorem lookup_put (h : (put gives limit map entry).lookup key = some value) :
    map.lookup key = some value ∨ gives entry = some (key, value) := by
  obtain hsame | ⟨other, found, -, ha, hput⟩ := put_cases limit map entry
  · rw [hsame] at h
    exact .inl h
  · rw [hput] at h
    by_cases ho : key = other
    · subst ho
      rw [Finmap.lookup_insert] at h
      exact .inr (Option.some.inj h ▸ ha)
    · rw [Finmap.lookup_insert_of_ne _ ho] at h
      exact .inl h

end Put

section Fill

theorem fill_cons : fill gives limit (entry :: table) map =
    fill gives limit table (put gives limit map entry) := rfl

theorem fill_full (h : limit ≤ map.keys.card) : fill gives limit table map = map := by
  induction table with
  | nil => rfl
  | cons entry table ih => rw [fill_cons, put_full h, ih]

theorem mem_fill (h : key ∈ map) : key ∈ fill gives limit table map := by
  induction table generalizing map with
  | nil => exact h
  | cons entry table ih => exact ih (mem_put h)

theorem lookup_fill_of_ne
    (h : ∀ entry ∈ table, ∀ other value, gives entry = some (other, value) → other ≠ key) :
    (fill gives limit table map).lookup key = map.lookup key := by
  induction table generalizing map with
  | nil => rfl
  | cons entry table ih =>
      have hrest := fun other ho => h other (List.mem_cons_of_mem entry ho)
      exact (ih hrest).trans (lookup_put_of_ne (h entry List.mem_cons_self))

theorem card_fill_le (h : map.keys.card ≤ limit) :
    (fill gives limit table map).keys.card ≤ limit := by
  induction table generalizing map with
  | nil => exact h
  | cons entry table ih => exact ih (card_put_le h)

theorem lookup_fill (h : (fill gives limit table map).lookup key = some value) :
    map.lookup key = some value ∨
      ∃ entry ∈ table, gives entry = some (key, value) := by
  induction table generalizing map with
  | nil => exact .inl h
  | cons entry table ih =>
      rcases ih h with hput | ⟨other, ho, ha⟩
      · rcases lookup_put hput with hold | hnew
        · exact .inl hold
        · exact .inr ⟨entry, List.mem_cons_self, hnew⟩
      · exact .inr ⟨other, List.mem_cons_of_mem _ ho, ha⟩

theorem fill_append (first second : List μ) (map : Finmap fun _ : α => β) :
    fill gives limit (first ++ second) map =
      fill gives limit second (fill gives limit first map) :=
  List.foldl_append

-- While there is room for all keys, each key that is given gets in.
theorem mem_fill_of_mem_keys {all : Finset α} (hall : all.card ≤ limit)
    (hmap : map.keys ⊆ all) (htable : keys gives table ⊆ all)
    (hkey : key ∈ keys gives table) : key ∈ fill gives limit table map := by
  induction table generalizing map with
  | nil => simp [keys] at hkey
  | cons entry table ih =>
      have hrest : keys gives table ⊆ all := fun other ho => by
        obtain ⟨found, hf, hg⟩ := mem_keys.mp ho
        exact htable (mem_keys.mpr ⟨found, List.mem_cons_of_mem _ hf, hg⟩)
      have hput : (put gives limit map entry).keys ⊆ all := by
        obtain hsame | ⟨other, value, -, ha, hput⟩ := put_cases limit map entry
        · rw [hsame]
          exact hmap
        · rw [hput, keys_insert]
          exact Finset.insert_subset (htable (mem_keys.mpr ⟨entry, List.mem_cons_self, value, ha⟩))
            hmap
      obtain ⟨found, hf, value, ha⟩ := mem_keys.mp hkey
      rcases List.mem_cons.mp hf with rfl | hlater
      · rw [fill_cons]
        apply mem_fill
        rcases Nat.lt_or_ge map.keys.card limit with hroom | hfull
        · rw [put_some hroom ha]
          exact Finmap.mem_insert.mpr (.inl rfl)
        · -- a full map holds all keys
          have heq : map.keys = all := Finset.eq_of_subset_of_card_le hmap (hall.trans hfull)
          exact mem_put (Finmap.mem_keys.mp (heq ▸ htable hkey))
      · exact ih hput hrest (mem_keys.mpr ⟨found, hlater, value, ha⟩)

-- A table that has room and is consistent gives just what its entries give.
theorem lookup_fill_iff (hconsistent : Consistent gives table)
    (hroom : (keys gives table).card ≤ limit) :
    (fill gives limit table ∅).lookup key = some value ↔
      ∃ entry ∈ table, gives entry = some (key, value) := by
  constructor
  · intro h
    refine (lookup_fill h).resolve_left ?_
    simp
  · rintro ⟨entry, he, ha⟩
    have hmem : key ∈ fill gives limit table ∅ := by
      apply mem_fill_of_mem_keys hroom _ subset_rfl (mem_keys.mpr ⟨entry, he, value, ha⟩)
      simp
    obtain ⟨found, hfound⟩ := Finmap.mem_iff.mp hmem
    obtain ⟨other, ho, hother⟩ := (lookup_fill hfound).resolve_left (by simp)
    rw [hfound, hconsistent entry he other ho key value found ha hother]

end Fill

-- Tables that have the same entries in whatever order.

section Order

variable {other : List μ}

theorem keys_perm (h : other.Perm table) : keys gives other = keys gives table := by
  ext key
  rw [mem_keys, mem_keys]
  exact exists_congr fun entry => and_congr_left' h.mem_iff

omit [DecidableEq α] in
theorem Consistent.perm (hconsistent : Consistent gives table) (h : other.Perm table) :
    Consistent gives other := fun entry he found hf =>
  hconsistent entry (h.mem_iff.mp he) found (h.mem_iff.mp hf)

-- The last of the entries that have a key decides, if they come first.
theorem exists_perm_lookup (hlimit : 2 ≤ limit) (hentry : entry ∈ table)
    (ha : gives entry = some (key, value)) :
    ∃ other, other.Perm table ∧ (fill gives limit other ∅).lookup key = some value := by
  classical
  let same : μ → Bool := fun found => (gives found).any fun pair => pair.1 = key
  have hsame : entry ∈ table.filter same := by simp [same, hentry, ha]
  obtain ⟨before, after, hsplit⟩ := List.append_of_mem hsame
  let first := before ++ after
  have hfirst : ∀ found ∈ first, same found = true := by
    intro found hf
    have hmem : found ∈ table.filter same := by
      rw [hsplit]
      simp only [first, List.mem_append, List.mem_cons] at hf ⊢
      tauto
    exact (List.mem_filter.mp hmem).2
  refine ⟨first ++ [entry] ++ table.filter (fun found => !same found), ?_, ?_⟩
  · have hperm : (first ++ [entry]).Perm (table.filter same) := by
      rw [hsplit]
      simp only [first, List.append_assoc]
      exact List.Perm.append_left before (List.perm_append_singleton entry after)
    exact (hperm.append_right _).trans (List.filter_append_perm same table)
  · rw [fill_append, lookup_fill_of_ne, fill_append]
    · have hkeys : keys gives first ⊆ {key} := by
        intro found hf
        obtain ⟨source, hs, value, hg⟩ := mem_keys.mp hf
        simpa [same, hg] using hfirst source hs
      have hcard : (fill gives limit first ∅).keys.card < limit := by
        have hsub : (fill gives limit first ∅).keys ⊆ {key} := by
          intro found hf
          obtain ⟨found', hlookup⟩ := Finmap.mem_iff.mp (Finmap.mem_keys.mp hf)
          obtain ⟨source, hs, hg⟩ := (lookup_fill hlookup).resolve_left (by simp)
          exact hkeys (mem_keys.mpr ⟨source, hs, found', hg⟩)
        have hone : (fill gives limit first ∅).keys.card ≤ 1 := Finset.card_le_card hsub
        omega
      show (put gives limit _ entry).lookup key = some value
      rw [put_some hcard ha, Finmap.lookup_insert]
    · intro found hf found' value hg heq
      have hnot := (List.mem_filter.mp hf).2
      simp [same, hg, heq] at hnot

-- The entry that comes first gets in.
theorem exists_perm_mem (hlimit : 0 < limit) (hkey : key ∈ keys gives table) :
    ∃ other, other.Perm table ∧ key ∈ fill gives limit other ∅ := by
  classical
  obtain ⟨entry, he, value, ha⟩ := mem_keys.mp hkey
  refine ⟨entry :: table.erase entry, (List.perm_cons_erase he).symm, ?_⟩
  have hroom : (∅ : Finmap fun _ : α => β).keys.card < limit := by simpa using hlimit
  rw [fill_cons]
  apply mem_fill
  rw [put_some hroom ha]
  exact Finmap.mem_insert.mpr (.inl rfl)

-- The order makes no difference exactly if no key has two values and there is room for all keys.
theorem fill_perm_iff (hlimit : 2 ≤ limit) :
    (∀ other, other.Perm table → fill gives limit other ∅ = fill gives limit table ∅) ↔
      Consistent gives table ∧ (keys gives table).card ≤ limit := by
  constructor
  · intro h
    refine ⟨fun entry he other ho key value value' ha ha' => ?_, ?_⟩
    · obtain ⟨first, hfirst, hvalue⟩ := exists_perm_lookup hlimit he ha
      obtain ⟨second, hsecond, hvalue'⟩ := exists_perm_lookup hlimit ho ha'
      rw [h first hfirst] at hvalue
      rw [h second hsecond, hvalue] at hvalue'
      exact Option.some.inj hvalue'
    · have hcard : (fill gives limit table ∅).keys.card ≤ limit := card_fill_le (Nat.zero_le limit)
      refine (Finset.card_le_card fun key hkey => ?_).trans hcard
      obtain ⟨other, hperm, hmem⟩ := exists_perm_mem (Nat.lt_of_lt_of_le Nat.two_pos hlimit) hkey
      rw [h other hperm] at hmem
      exact Finmap.mem_keys.mpr hmem
  · rintro ⟨hconsistent, hroom⟩ other hperm
    apply Finmap.ext_lookup
    intro key
    apply Option.ext
    intro value
    have hother : (keys gives other).card ≤ limit := by rwa [keys_perm hperm]
    rw [lookup_fill_iff (hconsistent.perm hperm) hother, lookup_fill_iff hconsistent hroom]
    exact exists_congr fun entry => and_congr_left' hperm.mem_iff

end Order

end Capped
