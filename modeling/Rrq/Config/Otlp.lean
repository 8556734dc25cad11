import Rrq.Utf8

-- The endpoints that telemetry is exported to, one for each signal.

namespace Rrq.Otlp

open Utf8

inductive OtlpSignal where
  | Traces
  | Metrics
  | Logs
deriving DecidableEq

def OtlpSignal.pathSuffix : OtlpSignal → List Char
  | Traces => "traces".toList
  | Metrics => "metrics".toList
  | Logs => "logs".toList

def splitEndpointSuffix (endpoint : List Char) : List Char × List Char :=
  let splitIndex := ((endpoint.findIdx? (· = '?')).toList ++
    (endpoint.findIdx? (· = '#')).toList).min?.getD endpoint.length
  endpoint.splitAt splitIndex

-- One suffix is taken off, of whichever signal.
def stripOtlpSignalSuffix (endpoint : List Char) : List Char :=
  (["/v1/traces", "/v1/metrics", "/v1/logs"].findSome? fun suffix =>
    stripSuffix suffix.toList endpoint).getD endpoint

def ensureSignalPath (endpoint signal : List Char) : List Char :=
  let expectedSuffix := "/v1/".toList ++ signal
  let (endpointPath, endpointSuffix) := splitEndpointSuffix endpoint
  let endpointPath := endpointPath.rdropWhile (· = '/')
  if expectedSuffix <:+ endpointPath then endpointPath ++ endpointSuffix
  else stripOtlpSignalSuffix endpointPath ++ expectedSuffix ++ endpointSuffix

-- A query or a fragment begins here.
def isSuffixStart (c : Char) : Bool := c = '?' || c = '#'

def path (endpoint : List Char) : List Char := endpoint.takeWhile fun c => !isSuffixStart c

def suffix (endpoint : List Char) : List Char := endpoint.dropWhile fun c => !isSuffixStart c

section Split

variable {endpoint head tail : List Char}

theorem path_append_suffix (endpoint : List Char) : path endpoint ++ suffix endpoint = endpoint :=
  List.takeWhile_append_dropWhile

-- The earlier of the first places of two characters is the first place of either.
theorem min_findIdx (endpoint : List Char) :
    ((endpoint.findIdx? (· = '?')).toList ++ (endpoint.findIdx? (· = '#')).toList).min?.getD
      endpoint.length = (path endpoint).length := by
  induction endpoint with
  | nil => rfl
  | cons c endpoint ih =>
      by_cases hquery : c = '?'
      · subst hquery
        cases h : List.findIdx? (fun c => decide (c = '#')) ('?' :: endpoint) with
        | none => simp [path, isSuffixStart, List.findIdx?_cons]
        | some i => simp [path, isSuffixStart, List.findIdx?_cons]
      · by_cases hfragment : c = '#'
        · subst hfragment
          cases h : List.findIdx? (fun c => decide (c = '?')) endpoint with
          | none => simp [path, isSuffixStart, List.findIdx?_cons, h]
          | some i => simp [path, isSuffixStart, List.findIdx?_cons, h]
        · have hstart : isSuffixStart c = false := by simp [isSuffixStart, hquery, hfragment]
          have hpath : (path (c :: endpoint)).length = (path endpoint).length + 1 := by
            simp [path, hstart]
          rw [hpath, ← ih]
          cases hq : List.findIdx? (fun c => decide (c = '?')) endpoint with
          | none =>
              cases hf : List.findIdx? (fun c => decide (c = '#')) endpoint with
              | none => simp [List.findIdx?_cons, hquery, hfragment, hq, hf]
              | some j => simp [List.findIdx?_cons, hquery, hfragment, hq, hf]
          | some i =>
              cases hf : List.findIdx? (fun c => decide (c = '#')) endpoint with
              | none => simp [List.findIdx?_cons, hquery, hfragment, hq, hf]
              | some j =>
                  simp [List.findIdx?_cons, hquery, hfragment, hq, hf, Nat.add_min_add_right]

theorem splitEndpointSuffix_eq (endpoint : List Char) :
    splitEndpointSuffix endpoint = (path endpoint, suffix endpoint) := by
  unfold splitEndpointSuffix
  rw [min_findIdx, List.splitAt_eq]
  have hsplit := path_append_suffix endpoint
  generalize path endpoint = head at hsplit ⊢
  generalize suffix endpoint = tail at hsplit ⊢
  rw [← hsplit, List.take_left, List.drop_left]

theorem isSuffixStart_of_mem_path {c : Char} (h : c ∈ path endpoint) :
    isSuffixStart c = false := by
  simpa using List.mem_takeWhile_imp h

-- A path in front of the rest of an endpoint.
theorem split_append (endpoint : List Char) (hhead : ∀ c ∈ head, isSuffixStart c = false) :
    path (head ++ suffix endpoint) = head ∧ suffix (head ++ suffix endpoint) = suffix endpoint := by
  have hall : ∀ c ∈ head, (!isSuffixStart c) = true := fun c hc => by simp [hhead c hc]
  have hnil : List.takeWhile (fun c => !isSuffixStart c) (suffix endpoint) = [] := by
    cases hrest : suffix endpoint with
    | nil => rfl
    | cons c rest =>
        have hc := List.head?_dropWhile_not (fun c => !isSuffixStart c) endpoint
        rw [show endpoint.dropWhile (fun c => !isSuffixStart c) = c :: rest from hrest] at hc
        rw [List.takeWhile_cons, if_neg (by simpa using hc)]
  have hself : List.dropWhile (fun c => !isSuffixStart c) (suffix endpoint) = suffix endpoint :=
    List.dropWhile_idempotent _ _
  constructor
  · rw [path, List.takeWhile_append_of_pos hall, hnil, List.append_nil]
  · rw [suffix, List.dropWhile_append_of_pos hall]
    exact hself

end Split

section Strip

variable {endpoint base : List Char}

def signalPath (signal : OtlpSignal) : List Char := "/v1/".toList ++ signal.pathSuffix

theorem isSuffixStart_of_mem_signalPath {signal : OtlpSignal} {c : Char}
    (h : c ∈ signalPath signal) : isSuffixStart c = false := by
  have hall : (signalPath signal).all (fun c => !isSuffixStart c) = true := by
    cases signal <;> decide
  exact (Bool.not_eq_true' _).mp (List.all_eq_true.mp hall c h)

theorem getLast_signalPath (signal : OtlpSignal) : (signalPath signal).getLast? = some 's' := by
  cases signal <;> decide

theorem stripOtlpSignalSuffix_eq (endpoint : List Char) :
    stripOtlpSignalSuffix endpoint =
      (([OtlpSignal.Traces, .Metrics, .Logs].map signalPath).findSome? fun suffix =>
        stripSuffix suffix endpoint).getD endpoint := rfl

-- Of two suffixes of one text the shorter is a suffix of the longer.
theorem not_suffix_of_ne {a b : OtlpSignal} (hab : a ≠ b) (base : List Char) :
    ¬ signalPath a <:+ base ++ signalPath b := by
  intro h
  have hb : signalPath b <:+ base ++ signalPath b := List.suffix_append _ _
  rcases List.suffix_or_suffix_of_suffix h hb with hshort | hlong
  · revert hshort
    cases a <;> cases b <;> first | exact absurd rfl hab | decide
  · revert hlong
    cases a <;> cases b <;> first | exact absurd rfl hab | decide

theorem strip_append (base : List Char) (signal : OtlpSignal) :
    stripOtlpSignalSuffix (base ++ signalPath signal) = base := by
  have hother : ∀ other, other ≠ signal →
      stripSuffix (signalPath other) (base ++ signalPath signal) = none := fun other ho =>
    stripSuffix_eq_none.mpr (not_suffix_of_ne ho base)
  rw [stripOtlpSignalSuffix_eq]
  cases signal with
  | Traces => simp
  | Metrics => simp [hother .Traces nofun]
  | Logs => simp [hother .Traces nofun, hother .Metrics nofun]

theorem strip_isPrefix (endpoint : List Char) : stripOtlpSignalSuffix endpoint <+: endpoint := by
  rw [stripOtlpSignalSuffix_eq]
  cases hfound : ([OtlpSignal.Traces, .Metrics, .Logs].map signalPath).findSome? fun suffix =>
      stripSuffix suffix endpoint with
  | none => exact List.prefix_rfl
  | some base =>
      obtain ⟨suffix, -, hstrip⟩ := List.exists_of_findSome?_eq_some hfound
      rw [stripSuffix_eq_some.mp hstrip]
      exact List.prefix_append base suffix

end Strip

-- What is left of the path once the slashes at its end and the path of a signal are gone.
def base (endpoint : List Char) : List Char :=
  stripOtlpSignalSuffix ((path endpoint).rdropWhile (· = '/'))

theorem ensureSignalPath_eq (endpoint : List Char) (signal : OtlpSignal) :
    ensureSignalPath endpoint signal.pathSuffix =
      base endpoint ++ signalPath signal ++ suffix endpoint := by
  unfold ensureSignalPath base
  rw [splitEndpointSuffix_eq]
  dsimp only
  split
  · rename_i h
    obtain ⟨head, hhead⟩ := h
    rw [← hhead]
    congr 1
    exact (congrArg (· ++ signalPath signal) (strip_append head signal)).symm
  · rfl

theorem isSuffixStart_of_mem_base {endpoint : List Char} {c : Char} (h : c ∈ base endpoint) :
    isSuffixStart c = false := by
  have htrimmed := (strip_isPrefix _).subset h
  exact isSuffixStart_of_mem_path ((List.rdropWhile_prefix _ _).subset htrimmed)

-- The endpoint of a signal has the same base and the same rest, whichever the signal is.
theorem ensureSignalPath_parts (endpoint : List Char) (signal : OtlpSignal) :
    path (ensureSignalPath endpoint signal.pathSuffix) = base endpoint ++ signalPath signal ∧
      suffix (ensureSignalPath endpoint signal.pathSuffix) = suffix endpoint ∧
      base (ensureSignalPath endpoint signal.pathSuffix) = base endpoint := by
  have hhead : ∀ c ∈ base endpoint ++ signalPath signal, isSuffixStart c = false := by
    intro c hc
    rcases List.mem_append.mp hc with hbase | hsignal
    · exact isSuffixStart_of_mem_base hbase
    · exact isSuffixStart_of_mem_signalPath hsignal
  obtain ⟨hpath, hsuffix⟩ := split_append endpoint hhead
  rw [← ensureSignalPath_eq] at hpath hsuffix
  refine ⟨hpath, hsuffix, ?_⟩
  have htrim : (base endpoint ++ signalPath signal).rdropWhile (· = '/') =
      base endpoint ++ signalPath signal := by
    apply rdropWhile_of_last
    rw [List.getLast?_append, getLast_signalPath]
    rintro c ⟨⟩
    decide
  rw [base, hpath, htrim, strip_append]

theorem ensureSignalPath_once (endpoint : List Char) (a b : OtlpSignal) :
    ensureSignalPath (ensureSignalPath endpoint a.pathSuffix) b.pathSuffix =
        ensureSignalPath endpoint b.pathSuffix ∧
      signalPath b <:+ path (ensureSignalPath endpoint b.pathSuffix) ∧
      suffix (ensureSignalPath endpoint b.pathSuffix) = suffix endpoint := by
  obtain ⟨-, hsuffix, hbase⟩ := ensureSignalPath_parts endpoint a
  obtain ⟨hpath, hkept, -⟩ := ensureSignalPath_parts endpoint b
  refine ⟨?_, ?_, hkept⟩
  · rw [ensureSignalPath_eq, hbase, hsuffix, ← ensureSignalPath_eq]
  · rw [hpath]
    exact List.suffix_append _ _

end Rrq.Otlp
