import Rrq.Utf8

-- The texts of jobs as the listings of the command line show them, cut to the width of their
-- column.

namespace Rrq.CliUtils

open Utf8

def ellipsis : List Char := "...".toList

-- A slice that ends within a character panics.
def truncate (value : List Char) (maxLen : Nat) : Option (List Char) :=
  if len value ≤ maxLen then some value
  else
    let keep := maxLen - 3
    (sliceTo keep value).map (· ++ ellipsis)

-- The hash of a job, field by field.
abbrev JobMap := String → Option (List Char)

-- The columns whose texts are cut.
inductive Column where
  | jobListFunction
  | jobListQueue
  | dlqListFunction
  | dlqListQueue
  | dlqListError
  | dlqStatsError
  | queueInspectFunction
deriving DecidableEq

def Column.maxLen : Column → Nat
  | jobListFunction => 28
  | jobListQueue => 22
  | dlqListFunction => 16
  | dlqListQueue => 14
  | dlqListError => 23
  | dlqStatsError => 100
  | queueInspectFunction => 18

def Column.text (job : JobMap) : Column → List Char
  | jobListFunction => (job "function_name").getD "unknown".toList
  | jobListQueue => (job "queue_name").getD "unknown".toList
  | dlqListFunction => (job "function_name").getD "N/A".toList
  | dlqListQueue => (job "queue_name").getD "N/A".toList
  | dlqListError => ((job "last_error").or (job "error")).getD "Unknown".toList
  | dlqStatsError => ((job "last_error").or (job "error")).getD "Unknown error".toList
  | queueInspectFunction => (job "function_name").getD "<unknown>".toList

-- The cut texts of one line. The loop of a listing stops where one of them panics.
def cells (columns : List Column) (job : JobMap) : Option (List (List Char)) :=
  columns.mapM fun column => truncate (column.text job) column.maxLen

def jobList (jobs : List JobMap) : Option (List (List (List Char))) :=
  jobs.mapM (cells [.jobListFunction, .jobListQueue])

def dlqList (jobs : List JobMap) : Option (List (List (List Char))) :=
  jobs.mapM (cells [.dlqListFunction, .dlqListQueue, .dlqListError])

def dlqStats (jobs : List JobMap) : Option (List (List (List Char))) :=
  jobs.mapM (cells [.dlqStatsError])

def queueInspect (jobs : List (Option JobMap)) : Option (List (List (List Char))) :=
  jobs.mapM fun
    | some job => cells [.queueInspectFunction] job
    | none => (truncate "<missing>".toList Column.queueInspectFunction.maxLen).map fun text => [text]

-- The text is cut as it should be: there is an answer, of no more than so many bytes, and what
-- stands before the ellipsis is how the text begins.
def Cut (value : List Char) (maxLen : Nat) : Prop :=
  ∃ out, truncate value maxLen = some out ∧ len out ≤ maxLen ∧
    ∃ text, text <+: value ∧ (out = text ∨ out = text ++ ellipsis)

def IsCharBoundary (value : List Char) (n : Nat) : Prop := ∃ text, text <+: value ∧ len text = n

-- The text is short enough to be left alone, or no character stands across the cut.
def Fits (value : List Char) (maxLen : Nat) : Prop :=
  len value ≤ maxLen ∨ IsCharBoundary value (maxLen - 3)

section Truncate

variable {value : List Char} {maxLen : Nat}

theorem truncate_isSome_iff : (truncate value maxLen).isSome ↔ Fits value maxLen := by
  unfold truncate Fits
  by_cases hlen : len value ≤ maxLen
  · simp [hlen]
  · rw [if_neg hlen, Option.isSome_map, Option.isSome_iff_exists]
    simp only [sliceTo_eq_some, hlen, false_or, IsCharBoundary]

theorem cut_of_isSome (hmax : 3 ≤ maxLen) (h : (truncate value maxLen).isSome) :
    Cut value maxLen := by
  obtain ⟨out, hout⟩ := Option.isSome_iff_exists.mp h
  refine ⟨out, hout, ?_⟩
  unfold truncate at hout
  split at hout
  · rename_i hlen
    obtain rfl := Option.some.inj hout
    exact ⟨hlen, value, List.prefix_rfl, .inl rfl⟩
  · obtain ⟨text, hslice, rfl⟩ := Option.map_eq_some_iff.mp hout
    obtain ⟨hpre, hlen⟩ := sliceTo_eq_some.mp hslice
    refine ⟨?_, text, hpre, .inr rfl⟩
    have hdots : len ellipsis = 3 := by decide
    rw [len_append, hlen, hdots]
    omega

theorem cut_iff (hmax : 3 ≤ maxLen) : Cut value maxLen ↔ Fits value maxLen := by
  constructor
  · rintro ⟨out, hout, -⟩
    exact truncate_isSome_iff.mp (by simp [hout])
  · exact fun h => cut_of_isSome hmax (truncate_isSome_iff.mpr h)

end Truncate

theorem three_le_maxLen (column : Column) : 3 ≤ column.maxLen := by
  cases column <;> decide

theorem mapM_isSome {α β : Type} {f : α → Option β} {values : List α} :
    (values.mapM f).isSome ↔ ∀ value ∈ values, (f value).isSome := by
  induction values with
  | nil => simp
  | cons value values ih =>
      rw [List.mapM_cons, List.forall_mem_cons, ← ih]
      cases f value with
      | none => simp
      | some result =>
          cases values.mapM f with
          | none => simp
          | some results => simp

theorem cells_isSome {columns : List Column} {job : JobMap} :
    (cells columns job).isSome ↔ ∀ column ∈ columns, Fits (column.text job) column.maxLen := by
  unfold cells
  rw [mapM_isSome]
  exact forall₂_congr fun _ _ => truncate_isSome_iff

theorem listing_isSome {columns : List Column} {jobs : List JobMap} :
    (jobs.mapM (cells columns)).isSome ↔
      ∀ job ∈ jobs, ∀ column ∈ columns, Fits (column.text job) column.maxLen := by
  rw [mapM_isSome]
  exact forall₂_congr fun _ _ => cells_isSome

theorem truncate_missing :
    (truncate "<missing>".toList Column.queueInspectFunction.maxLen).isSome := by decide

theorem queueInspect_isSome {jobs : List (Option JobMap)} :
    (queueInspect jobs).isSome ↔ ∀ job, some job ∈ jobs →
      Fits (Column.queueInspectFunction.text job) Column.queueInspectFunction.maxLen := by
  unfold queueInspect
  rw [mapM_isSome]
  constructor
  · intro h job hj
    exact cells_isSome.mp (h (some job) hj) _ List.mem_cons_self
  · intro h entry he
    cases entry with
    | none => exact (Option.isSome_map ..).trans truncate_missing
    | some job =>
        apply cells_isSome.mpr
        simpa using h job he

-- Every listing of these jobs runs to its end, also where the data of others is missing.
structure Completes (jobs : List JobMap) : Prop where
  jobList : (jobList jobs).isSome
  dlqList : (dlqList jobs).isSome
  dlqStats : (dlqStats jobs).isSome
  queueInspect : ∀ entries : List (Option JobMap), (∀ job, some job ∈ entries → job ∈ jobs) →
    (queueInspect entries).isSome

theorem completes_iff {jobs : List JobMap} :
    Completes jobs ↔ ∀ job ∈ jobs, ∀ column : Column, Fits (column.text job) column.maxLen := by
  constructor
  · intro h job hj column
    have hjobList := listing_isSome.mp h.jobList job hj
    have hdlqList := listing_isSome.mp h.dlqList job hj
    have hdlqStats := listing_isSome.mp h.dlqStats job hj
    have hinspect := queueInspect_isSome.mp (h.queueInspect [some job] (by simpa using hj))
    cases column with
    | jobListFunction | jobListQueue => exact hjobList _ (by simp)
    | dlqListFunction | dlqListQueue | dlqListError => exact hdlqList _ (by simp)
    | dlqStatsError => exact hdlqStats _ (by simp)
    | queueInspectFunction => exact hinspect job List.mem_cons_self
  · intro h
    have hall : ∀ columns, (jobs.mapM (cells columns)).isSome := fun columns =>
      listing_isSome.mpr fun job hj column _ => h job hj column
    refine ⟨hall _, hall _, hall _, fun entries hentries => ?_⟩
    exact queueInspect_isSome.mpr fun job hj => h job (hentries job hj) _

-- A text is cut, and a listing completes, exactly if no character stands across a cut.
theorem truncate_safe_iff (column : Column) (value : List Char) (jobs : List JobMap) :
    (Cut value column.maxLen ↔ Fits value column.maxLen) ∧
      (Completes jobs ↔
        ∀ job ∈ jobs, ∀ column : Column, Fits (column.text job) column.maxLen) :=
  ⟨cut_iff (three_le_maxLen column), completes_iff⟩

-- An error text of 26 bytes, with a character of two bytes across the twentieth.
def accents : List Char := 'a' :: List.replicate 12 'é' ++ ['.']

def accentsJob : JobMap := fun field => if field = "last_error" then some accents else none

theorem truncate_panics : len accents = 26 ∧
    truncate accents Column.dlqListError.maxLen = none ∧ dlqList [accentsJob] = none ∧
    ¬ ((∀ (column : Column) (value : List Char), Cut value column.maxLen) ∧
      ∀ jobs : List JobMap, Completes jobs) := by
  have hcut : truncate accents Column.dlqListError.maxLen = none := by decide
  have hlist : dlqList [accentsJob] = none := by decide
  refine ⟨by decide, hcut, hlist, fun h => ?_⟩
  obtain ⟨out, hout, -⟩ := h.1 .dlqListError accents
  rw [hcut] at hout
  cases hout

end Rrq.CliUtils
