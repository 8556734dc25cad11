import Mathlib.Data.List.DropRight
import Mathlib.Data.List.Infix

-- Texts as lists of characters: their length in bytes, and how they are cut.

namespace Utf8

def len : List Char → Nat
  | [] => 0
  | c :: text => c.utf8Size + len text

@[simp] theorem len_nil : len [] = 0 := rfl

@[simp] theorem len_cons (c : Char) (text : List Char) :
    len (c :: text) = c.utf8Size + len text := rfl

@[simp] theorem len_append (a b : List Char) : len (a ++ b) = len a + len b := by
  induction a with
  | nil => simp
  | cons c a ih => rw [List.cons_append, len_cons, len_cons, ih, Nat.add_assoc]

theorem len_pos {text : List Char} (h : text ≠ []) : 0 < len text := by
  cases text with
  | nil => exact absurd rfl h
  | cons c text =>
      have hc := Char.utf8Size_pos c
      rw [len_cons]
      omega

-- White space is what the caller takes for it.
def trim (space : Char → Bool) (text : List Char) : List Char :=
  (text.dropWhile space).rdropWhile space

section Trim

variable {space : Char → Bool} {text : List Char}

theorem dropWhile_of_head (h : ∀ c ∈ text.head?, space c = false) :
    text.dropWhile space = text := by
  cases text with
  | nil => rfl
  | cons c text => rw [List.dropWhile_cons, if_neg (by simp [h c rfl])]

theorem rdropWhile_of_last (h : ∀ c ∈ text.getLast?, space c = false) :
    text.rdropWhile space = text := by
  rw [List.rdropWhile_eq_self_iff]
  intro hne
  simp [h _ (List.getLast?_eq_some_getLast hne)]

theorem trim_of_ends (hhead : ∀ c ∈ text.head?, space c = false)
    (hlast : ∀ c ∈ text.getLast?, space c = false) : trim space text = text := by
  rw [trim, dropWhile_of_head hhead, rdropWhile_of_last hlast]

theorem head_trim (c : Char) (h : c ∈ (trim space text).head?) : space c = false := by
  have hpre : trim space text <+: text.dropWhile space := List.rdropWhile_prefix space _
  obtain ⟨tail, htail⟩ := hpre
  have hdropped : c ∈ (text.dropWhile space).head? := by
    rw [← htail, List.head?_append]
    simp [Option.mem_def.mp h]
  have hnot := List.head?_dropWhile_not space text
  rw [Option.mem_def.mp hdropped] at hnot
  simpa using hnot

theorem last_trim (c : Char) (h : c ∈ (trim space text).getLast?) : space c = false := by
  obtain ⟨hne, rfl⟩ := List.mem_getLast?_eq_getLast h
  have hnot := List.rdropWhile_last_not space (text.dropWhile space) hne
  exact Bool.eq_false_iff.mpr hnot

@[simp] theorem trim_trim : trim space (trim space text) = trim space text :=
  trim_of_ends head_trim last_trim

end Trim

def stripPrefix (pre text : List Char) : Option (List Char) :=
  if pre <+: text then some (text.drop pre.length) else none

def stripSuffix (suffix text : List Char) : Option (List Char) :=
  if suffix <:+ text then some (text.take (text.length - suffix.length)) else none

@[simp] theorem stripPrefix_append (pre text : List Char) :
    stripPrefix pre (pre ++ text) = some text := by
  rw [stripPrefix, if_pos (List.prefix_append pre text), List.drop_left]

-- A text without its prefix, if it has it.
theorem getD_stripPrefix {pre text rest : List Char} :
    (stripPrefix pre text).getD text = rest ↔
      text = pre ++ rest ∨ ¬ pre <+: text ∧ text = rest := by
  by_cases hpre : pre <+: text
  · obtain ⟨tail, rfl⟩ := hpre
    rw [stripPrefix_append, Option.getD_some]
    constructor
    · rintro rfl
      exact .inl rfl
    · rintro (heq | ⟨hno, -⟩)
      · exact List.append_cancel_left heq
      · exact absurd (List.prefix_append pre tail) hno
  · rw [stripPrefix, if_neg hpre, Option.getD_none]
    constructor
    · rintro rfl
      exact .inr ⟨hpre, rfl⟩
    · rintro (rfl | ⟨-, rfl⟩)
      · exact absurd (List.prefix_append pre rest) hpre
      · rfl

@[simp] theorem stripSuffix_append (base suffix : List Char) :
    stripSuffix suffix (base ++ suffix) = some base := by
  rw [stripSuffix, if_pos (List.suffix_append base suffix), List.length_append,
    Nat.add_sub_cancel, List.take_left]

theorem stripSuffix_eq_some {base suffix text : List Char} :
    stripSuffix suffix text = some base ↔ text = base ++ suffix := by
  constructor
  · intro h
    obtain ⟨⟨other, rfl⟩, hbase⟩ := Option.ite_none_right_eq_some.mp h
    rw [← Option.some.inj hbase, List.length_append, Nat.add_sub_cancel, List.take_left]
  · rintro rfl
    exact stripSuffix_append base suffix

theorem stripSuffix_eq_none {suffix text : List Char} :
    stripSuffix suffix text = none ↔ ¬ suffix <:+ text := by simp [stripSuffix]

-- The text before the first place where a pattern stands, and the text after it.
def splitOnce (pattern : List Char) : List Char → Option (List Char × List Char)
  | [] => none
  | c :: text =>
      match stripPrefix pattern (c :: text) with
      | some rest => some ([], rest)
      | none => (splitOnce pattern text).map fun parts => (c :: parts.1, parts.2)

-- The text before the last place where a character stands, and the text after it.
def rsplitOnce (sep : Char) : List Char → Option (List Char × List Char)
  | [] => none
  | c :: text =>
      match rsplitOnce sep text with
      | some parts => some (c :: parts.1, parts.2)
      | none => if c = sep then some ([], text) else none

theorem splitOnce_append {c : Char} {pattern before rest : List Char} (h : c ∉ before) :
    splitOnce (c :: pattern) (before ++ (c :: pattern) ++ rest) = some (before, rest) := by
  induction before with
  | nil =>
      have hstrip := stripPrefix_append (c :: pattern) rest
      rw [List.cons_append] at hstrip
      rw [List.nil_append, List.cons_append, splitOnce, hstrip]
  | cons d before ih =>
      obtain ⟨hd, hbefore⟩ := List.ne_and_not_mem_of_not_mem_cons h
      have hstrip : stripPrefix (c :: pattern) (d :: (before ++ (c :: pattern) ++ rest)) = none := by
        rw [stripPrefix, if_neg]
        intro hpre
        exact hd (List.cons_prefix_cons.mp hpre).1
      rw [List.cons_append, List.cons_append, splitOnce, hstrip]
      simp only [ih hbefore, Option.map_some]

theorem rsplitOnce_of_notMem {sep : Char} {text : List Char} (h : sep ∉ text) :
    rsplitOnce sep text = none := by
  induction text with
  | nil => rfl
  | cons c text ih =>
      obtain ⟨hc, htext⟩ := List.ne_and_not_mem_of_not_mem_cons h
      rw [rsplitOnce, ih htext]
      exact if_neg (Ne.symm hc)

theorem rsplitOnce_append {sep : Char} {before rest : List Char} (h : sep ∉ rest) :
    rsplitOnce sep (before ++ sep :: rest) = some (before, rest) := by
  induction before with
  | nil =>
      rw [List.nil_append, rsplitOnce, rsplitOnce_of_notMem h]
      exact if_pos rfl
  | cons c before ih => rw [List.cons_append, rsplitOnce, ih]

-- The prefix of so many bytes. There is none where a character would be cut.
def sliceTo : Nat → List Char → Option (List Char)
  | 0, _ => some []
  | _ + 1, [] => none
  | n + 1, c :: text =>
      if c.utf8Size ≤ n + 1 then (sliceTo (n + 1 - c.utf8Size) text).map (c :: ·) else none

theorem sliceTo_eq_some {n : Nat} {text pre : List Char} :
    sliceTo n text = some pre ↔ pre <+: text ∧ len pre = n := by
  induction text generalizing n pre with
  | nil =>
      cases n with
      | zero =>
          simp only [sliceTo, Option.some.injEq, List.prefix_nil]
          constructor
          · rintro rfl
            exact ⟨rfl, rfl⟩
          · exact fun h => h.1.symm
      | succ n =>
          simp only [sliceTo, List.prefix_nil, false_iff, not_and, reduceCtorEq]
          rintro rfl
          simp
  | cons c text ih =>
      have hc := Char.utf8Size_pos c
      cases n with
      | zero =>
          simp only [sliceTo, Option.some.injEq]
          constructor
          · rintro rfl
            exact ⟨List.nil_prefix, rfl⟩
          · rintro ⟨-, hlen⟩
            cases pre with
            | nil => rfl
            | cons d pre =>
                have hpos := len_pos (List.cons_ne_nil d pre)
                omega
      | succ n =>
          rw [sliceTo]
          constructor
          · intro h
            obtain ⟨hle, hrest⟩ := Option.ite_none_right_eq_some.mp h
            obtain ⟨rest, hslice, rfl⟩ := Option.map_eq_some_iff.mp hrest
            obtain ⟨hpre, hlen⟩ := ih.mp hslice
            refine ⟨List.cons_prefix_cons.mpr ⟨rfl, hpre⟩, ?_⟩
            rw [len_cons, hlen]
            omega
          · rintro ⟨hpre, hlen⟩
            cases pre with
            | nil => cases hlen
            | cons d pre =>
                obtain ⟨rfl, hrest⟩ := List.cons_prefix_cons.mp hpre
                rw [len_cons] at hlen
                have hslice := ih.mpr ⟨hrest, (show len pre = n + 1 - d.utf8Size by omega)⟩
                rw [if_pos (by omega), hslice, Option.map_some]

-- The longest prefix that takes no more than so many bytes.
structure LongestPrefix (limit : Nat) (text pre : List Char) : Prop where
  isPrefix : pre <+: text
  len_le : len pre ≤ limit
  longest : ∀ other, other <+: text → len other ≤ limit → other <+: pre

theorem LongestPrefix.self {limit : Nat} {text : List Char} (h : len text ≤ limit) :
    LongestPrefix limit text text := ⟨List.prefix_rfl, h, fun _ hother _ => hother⟩

theorem LongestPrefix.cons {limit : Nat} {c : Char} {text pre : List Char}
    (h : LongestPrefix limit text pre) :
    LongestPrefix (c.utf8Size + limit) (c :: text) (c :: pre) where
  isPrefix := List.cons_prefix_cons.mpr ⟨rfl, h.isPrefix⟩
  len_le := by
    rw [len_cons]
    exact Nat.add_le_add_left h.len_le _
  longest other hother hlen := by
    cases other with
    | nil => exact List.nil_prefix
    | cons d other =>
        obtain ⟨rfl, hrest⟩ := List.cons_prefix_cons.mp hother
        rw [len_cons] at hlen
        exact List.cons_prefix_cons.mpr ⟨rfl, h.longest other hrest (by omega)⟩

theorem LongestPrefix.nil {limit : Nat} {c : Char} {text : List Char}
    (h : limit < c.utf8Size) : LongestPrefix limit (c :: text) [] where
  isPrefix := List.nil_prefix
  len_le := Nat.zero_le limit
  longest other hother hlen := by
    cases other with
    | nil => exact List.nil_prefix
    | cons d other =>
        obtain ⟨rfl, -⟩ := List.cons_prefix_cons.mp hother
        rw [len_cons] at hlen
        omega

theorem LongestPrefix.ne_nil {limit : Nat} {text pre : List Char}
    (h : LongestPrefix limit text pre) (htext : text ≠ []) (hlimit : 4 ≤ limit) : pre ≠ [] := by
  rintro rfl
  cases text with
  | nil => exact htext rfl
  | cons c text =>
      have hc := Char.utf8Size_le_four c
      have hfirst : [c] <+: c :: text := ⟨text, rfl⟩
      have hempty := h.longest [c] hfirst (by simp only [len_cons, len_nil]; omega)
      exact List.cons_ne_nil c [] (List.prefix_nil.mp hempty)

end Utf8
