import Rrq.Correlation

namespace Rrq.Correlation

open Utf8

section Truncate

variable {maxLen : Nat} {out value : List Char}

theorem truncateLoop_longest (value : List Char) (h : len out ≤ maxLen) :
    ∃ pre, truncateLoop maxLen out value = out ++ pre ∧
      LongestPrefix (maxLen - len out) value pre := by
  induction value generalizing out with
  | nil => exact ⟨[], (List.append_nil out).symm, .self (Nat.zero_le _)⟩
  | cons ch value ih =>
      rw [truncateLoop]
      by_cases hfull : maxLen < len out + ch.utf8Size
      · rw [if_pos hfull]
        exact ⟨[], (List.append_nil out).symm, .nil (by omega)⟩
      · rw [if_neg hfull]
        have hlen : len (out ++ [ch]) = len out + ch.utf8Size := by simp
        have hroom : len (out ++ [ch]) ≤ maxLen := by omega
        obtain ⟨pre, hloop, hlongest⟩ := ih hroom
        refine ⟨ch :: pre, by rw [hloop, List.append_assoc, List.singleton_append], ?_⟩
        have hcons := LongestPrefix.cons (c := ch) hlongest
        rwa [hlen, show ch.utf8Size + (maxLen - (len out + ch.utf8Size)) = maxLen - len out by
          omega] at hcons

theorem truncateUtf8_longest (value : List Char) (maxLen : Nat) :
    LongestPrefix maxLen value (truncateUtf8 value maxLen) := by
  rw [truncateUtf8]
  split
  next hshort => exact .self hshort
  next hlong =>
    have hroom : len [] ≤ maxLen := Nat.zero_le maxLen
    obtain ⟨pre, hloop, hlongest⟩ := truncateLoop_longest value hroom
    rw [hloop]
    exact hlongest

end Truncate

-- The value that stands in nested objects under a list of names.
inductive Reaches : Params → List (List Char) → Value → Prop where
  | last {members : Params} {name : List Char} {value : Value}
      (h : members.lookup name = some value) : Reaches members [name] value
  | next {members inner : Params} {name : List Char} {names : List (List Char)} {value : Value}
      (h : members.lookup name = some (.object inner)) (hrest : Reaches inner names value) :
      Reaches members (name :: names) value

-- The path is the names with dots between them, after a leading `params.` if there is one. No name
-- has a dot, and only the first may be empty, if others follow.
def At (params : Params) (path : List Char) (value : Value) : Prop :=
  let trimmed := trim Producer.isWhitespace path
  ∃ names, Reaches params names value ∧ names ≠ [[]] ∧ [] ∉ names.tail ∧
    (∀ name ∈ names, '.' ∉ name) ∧
      (trimmed = "params.".toList ++ ['.'].intercalate names ∨
        ¬ "params.".toList <+: trimmed ∧ trimmed = ['.'].intercalate names)

theorem not_mem_splitOn {sep : Char} {text part : List Char} (h : part ∈ text.splitOn sep) :
    sep ∉ part := by
  induction text generalizing part with
  | nil =>
      rw [List.splitOn_nil, List.mem_singleton] at h
      exact h ▸ List.not_mem_nil
  | cons c text ih =>
      rw [List.splitOn_eq_splitOnP, List.splitOnP_cons_eq_if_modifyHead,
        ← List.splitOn_eq_splitOnP] at h
      split_ifs at h with hsep
      · rcases List.mem_cons.mp h with rfl | hlater
        · exact List.not_mem_nil
        · exact ih hlater
      · obtain ⟨first, parts, hparts⟩ := List.exists_cons_of_ne_nil (List.splitOn_ne_nil sep text)
        rw [hparts, List.modifyHead_cons] at h
        rcases List.mem_cons.mp h with rfl | hlater
        · have hfirst : sep ∉ first := ih (hparts ▸ List.mem_cons_self)
          rw [List.mem_cons, not_or]
          exact ⟨fun heq => hsep (by simp [heq]), hfirst⟩
        · exact ih (hparts ▸ List.mem_cons_of_mem first hlater)

theorem descend_eq_some {parts : List (List Char)} {current value : Value}
    (h : descend current parts = some value) :
    [] ∉ parts ∧ ∀ {members : Params} {name : List Char}, members.lookup name = some current →
      Reaches members (name :: parts) value := by
  induction parts generalizing current with
  | nil =>
      refine ⟨List.not_mem_nil, fun hname => .last ?_⟩
      rw [hname, ← Option.some.inj h]
  | cons part parts ih =>
      rw [descend] at h
      obtain ⟨hpart, hdescend⟩ := Option.ite_none_left_eq_some.mp h
      obtain ⟨members, hmembers, hnext⟩ := Option.bind_eq_some_iff.mp hdescend
      obtain ⟨next, hlookup, hrest⟩ := Option.bind_eq_some_iff.mp hnext
      obtain ⟨hparts, hreaches⟩ := ih hrest
      refine ⟨?_, fun hname => ?_⟩
      · intro hmem
        rcases List.mem_cons.mp hmem with hempty | hlater
        · exact hpart hempty.symm
        · exact hparts hlater
      · cases current with
        | object inner =>
            cases hmembers
            exact .next hname (hreaches hlookup)
        | _ => cases hmembers

theorem descend_of_reaches {members : Params} {names : List (List Char)} {value : Value}
    (h : Reaches members names value) (hnames : [] ∉ names.tail) :
    ∃ first parts, names = first :: parts ∧
      (members.lookup first).bind (descend · parts) = some value := by
  induction h with
  | last hlookup => exact ⟨_, [], rfl, by rw [hlookup]; rfl⟩
  | next hlookup _ ih =>
      rename_i inner name names value hrest
      obtain ⟨first, parts, rfl, hdescend⟩ := ih fun hmem => hnames (List.mem_of_mem_tail hmem)
      have hfirst : first ≠ [] := fun hempty => hnames (hempty ▸ List.mem_cons_self)
      refine ⟨name, first :: parts, rfl, ?_⟩
      rw [hlookup, Option.bind_some, descend, if_neg hfirst]
      exact hdescend

theorem lookupValueInParams_eq_some_iff {params : Params} {path : List Char} {value : Value} :
    lookupValueInParams params path = some value ↔ At params path value := by
  simp only [lookupValueInParams, At, ← getD_stripPrefix]
  generalize (stripPrefix "params.".toList (trim Producer.isWhitespace path)).getD
    (trim Producer.isWhitespace path) = cleaned
  constructor
  · intro h
    obtain ⟨hne, hlookup⟩ := Option.ite_none_left_eq_some.mp h
    have hjoined : ['.'].intercalate (cleaned.splitOn '.') = cleaned := List.intercalate_splitOn '.'
    have hdots : ∀ name ∈ cleaned.splitOn '.', '.' ∉ name := fun _ => not_mem_splitOn
    cases hparts : cleaned.splitOn '.' with
    | nil => exact absurd hparts (List.splitOn_ne_nil '.' cleaned)
    | cons first parts =>
        rw [hparts] at hlookup hjoined hdots
        obtain ⟨found, hfirst, hdescend⟩ := Option.bind_eq_some_iff.mp hlookup
        obtain ⟨hnonempty, hreaches⟩ := descend_eq_some hdescend
        have hsome : first :: parts ≠ [[]] := by
          intro heq
          rw [heq] at hjoined
          exact hne hjoined.symm
        exact ⟨first :: parts, hreaches hfirst, hsome, hnonempty, hdots, hjoined.symm⟩
  · rintro ⟨names, hreaches, hsome, hnonempty, hdots, rfl⟩
    obtain ⟨first, parts, rfl, hdescend⟩ := descend_of_reaches hreaches hnonempty
    have hparts : (['.'].intercalate (first :: parts)).splitOn '.' = first :: parts :=
      List.splitOn_intercalate '.' hdots (List.cons_ne_nil first parts)
    have hne : ['.'].intercalate (first :: parts) ≠ [] := by
      intro hempty
      rw [hempty, List.splitOn_nil] at hparts
      exact hsome hparts.symm
    rw [if_neg hne, hparts]
    exact hdescend

theorem scalarValueToString_ne_nil {value : Value} {text : List Char}
    (h : scalarValueToString value = some text) : text ≠ [] := by
  cases value with
  | string value =>
      obtain ⟨hne, heq⟩ := Option.ite_none_left_eq_some.mp h
      exact Option.some.inj heq ▸ hne
  | bool value =>
      cases value <;> cases h <;> decide
  | number value =>
      cases h
      exact value.2
  | null => cases h
  | array items => cases h
  | object members => cases h

section Extract

variable {limits : Limits} {params : Params} {traceContext : Option Attributes}
  {mappings : Mappings} {mapping : List Char × List Char} {key value : List Char}

-- Where the value of an attribute comes from.
inductive Source (params : Params) (traceContext : Option Attributes) (key path : List Char) :
    List Char → Prop where
  | context {source : List Char} (h : existing traceContext key = some source)
      (hne : source ≠ []) : Source params traceContext key path source
  | scalar {raw : Value} {source : List Char}
      (h : ∀ source, existing traceContext key = some source → source = [])
      (hraw : At params path raw) (hscalar : scalarValueToString raw = some source) :
      Source params traceContext key path source

theorem Source.ne_nil {path source : List Char} (h : Source params traceContext key path source) :
    source ≠ [] := by
  cases h with
  | context _ hne => exact hne
  | scalar _ _ hscalar => exact scalarValueToString_ne_nil hscalar

theorem attributeOf_eq_some (h : attributeOf limits params traceContext mapping = some (key, value)) :
    trim Producer.isWhitespace mapping.1 = key ∧ key ≠ [] ∧ len key ≤ limits.maxKeyLen ∧
      ∃ source, Source params traceContext key mapping.2 source ∧
        LongestPrefix limits.maxValueLen source value := by
  simp only [attributeOf] at h
  obtain ⟨hkey, hvalue⟩ := Option.ite_none_left_eq_some.mp h
  rw [not_or, Nat.not_lt] at hkey
  cases hfound : (existing traceContext (trim Producer.isWhitespace mapping.1)).filter (· ≠ []) with
  | some source =>
      rw [hfound] at hvalue
      cases hvalue
      obtain ⟨hexisting, hne⟩ := Option.filter_eq_some_iff.mp hfound
      exact ⟨rfl, hkey.1, hkey.2, source, .context hexisting (by simpa using hne),
        truncateUtf8_longest source limits.maxValueLen⟩
  | none =>
      rw [hfound] at hvalue
      obtain ⟨raw, hraw, hrest⟩ := Option.bind_eq_some_iff.mp hvalue
      obtain ⟨source, hscalar, heq⟩ := Option.bind_eq_some_iff.mp hrest
      cases heq
      refine ⟨rfl, hkey.1, hkey.2, source, .scalar ?_ (lookupValueInParams_eq_some_iff.mp hraw) hscalar,
        truncateUtf8_longest source limits.maxValueLen⟩
      intro other hother
      rw [hother] at hfound
      simpa using hfound

-- To leave the loop is to pass over the rest.
theorem extractLoop_eq_fill (correlation : Attributes) :
    extractLoop limits params traceContext mappings correlation =
      Capped.fill (attributeOf limits params traceContext) limits.maxKeys mappings correlation := by
  induction mappings generalizing correlation with
  | nil => rfl
  | cons mapping mappings ih =>
      rw [extractLoop, Capped.fill_cons]
      by_cases hfull : limits.maxKeys ≤ correlation.keys.card
      · rw [if_pos hfull, Capped.put_full hfull, Capped.fill_full hfull]
      · rw [if_neg hfull]
        cases hattribute : attributeOf limits params traceContext mapping with
        | none => rw [Capped.put_none hattribute, ih]
        | some pair =>
            rw [Capped.put_some (Nat.not_le.mp hfull) hattribute]
            exact ih _

theorem extract_eq : extract limits params traceContext mappings =
    let correlation :=
      Capped.fill (attributeOf limits params traceContext) limits.maxKeys mappings ∅
    if correlation.keys = ∅ then none else some correlation := by
  simp only [extract, extractLoop_eq_fill]
  split
  next hempty =>
    subst hempty
    rfl
  next => rfl

-- What the limits promise.
structure Bounded (limits : Limits) (params : Params) (traceContext : Option Attributes)
    (mappings : Mappings) (correlation : Attributes) : Prop where
  nonempty : 1 ≤ correlation.keys.card
  maxKeys : correlation.keys.card ≤ limits.maxKeys
  attributes : ∀ key value, correlation.lookup key = some value →
    (key ≠ [] ∧ trim Producer.isWhitespace key = key ∧ len key ≤ limits.maxKeyLen) ∧
      value ≠ [] ∧ len value ≤ limits.maxValueLen ∧
        ∃ mapping ∈ mappings, trim Producer.isWhitespace mapping.1 = key ∧
          ∃ source, Source params traceContext key mapping.2 source ∧
            LongestPrefix limits.maxValueLen source value

theorem extract_bounded {correlation : Attributes} (hlimit : 4 ≤ limits.maxValueLen)
    (h : extract limits params traceContext mappings = some correlation) :
    Bounded limits params traceContext mappings correlation := by
  rw [extract_eq] at h
  obtain ⟨hne, heq⟩ := Option.ite_none_left_eq_some.mp h
  have hfill := Option.some.inj heq
  refine ⟨?_, ?_, fun key value hlookup => ?_⟩
  · rw [← hfill]
    exact Finset.card_pos.mpr (Finset.nonempty_iff_ne_empty.mpr hne)
  · rw [← hfill]
    exact Capped.card_fill_le (Nat.zero_le limits.maxKeys)
  · rw [← hfill] at hlookup
    obtain ⟨mapping, hmapping, hattribute⟩ := (Capped.lookup_fill hlookup).resolve_left (by simp)
    obtain ⟨hkey, hkeyNe, hkeyLen, source, hsource, hlongest⟩ := attributeOf_eq_some hattribute
    have htrimmed : trim Producer.isWhitespace key = key := by rw [← hkey, trim_trim]
    exact ⟨⟨hkeyNe, htrimmed, hkeyLen⟩, hlongest.ne_nil hsource.ne_nil hlimit, hlongest.len_le,
      mapping, hmapping, hkey, source, hsource, hlongest⟩

-- No two mappings give an attribute different values, and no attribute is left out for want of
-- room.
structure Orderless (limits : Limits) (params : Params) (traceContext : Option Attributes)
    (mappings : Mappings) : Prop where
  consistent : Capped.Consistent (attributeOf limits params traceContext) mappings
  room : (Capped.keys (attributeOf limits params traceContext) mappings).card ≤ limits.maxKeys

theorem extract_eq_iff {other : Mappings} : extract limits params traceContext other =
    extract limits params traceContext mappings ↔
      Capped.fill (attributeOf limits params traceContext) limits.maxKeys other ∅ =
        Capped.fill (attributeOf limits params traceContext) limits.maxKeys mappings ∅ := by
  rw [extract_eq, extract_eq]
  constructor
  · intro h
    dsimp only at h
    split at h
    next hempty =>
      split at h
      next hempty' => rw [Capped.eq_empty hempty, Capped.eq_empty hempty']
      next => cases h
    next =>
      split at h
      next => cases h
      next => exact Option.some.inj h
  · intro h
    rw [h]

theorem extract_perm_iff (hlimit : 2 ≤ limits.maxKeys) :
    (∀ first second, first.Perm mappings → second.Perm mappings →
      extract limits params traceContext first = extract limits params traceContext second) ↔
        Orderless limits params traceContext mappings := by
  constructor
  · intro h
    obtain ⟨hconsistent, hroom⟩ := (Capped.fill_perm_iff hlimit).mp fun other hother =>
      extract_eq_iff.mp (h other mappings hother (List.Perm.refl mappings))
    exact ⟨hconsistent, hroom⟩
  · rintro ⟨hconsistent, hroom⟩ first second hfirst hsecond
    have hfill := (Capped.fill_perm_iff hlimit).mpr ⟨hconsistent, hroom⟩
    rw [extract_eq_iff.mpr (hfill first hfirst), extract_eq_iff.mpr (hfill second hsecond)]

end Extract

section Implementations

variable (params : Params) (mappings : Mappings) (traceContext : Option Attributes)

theorem extractCorrelationContext_bounded :
    Producer.extractCorrelationContext params mappings traceContext =
        Telemetry.extractCorrelationContext params mappings traceContext ∧
      ∀ correlation,
        Producer.extractCorrelationContext params mappings traceContext = some correlation →
          Bounded ⟨16, 64, 256⟩ params traceContext mappings correlation := by
  refine ⟨rfl, fun correlation h => ?_⟩
  exact extract_bounded (by decide : 4 ≤ Producer.correlationLimits.maxValueLen) h

-- A value that is cut inside a character of two bytes.
theorem extractCorrelationContext_bounded_cut :
    let params : Params := [(['n'], .object [(['t'], .string ('a' :: List.replicate 130 'é'))])]
    let mappings : Mappings := [([' ', 'k'], "params.n.t".toList)]
    ∃ correlation, Producer.extractCorrelationContext params mappings none = some correlation ∧
      correlation.lookup ['k'] = some ('a' :: List.replicate 127 'é') ∧
        Bounded ⟨16, 64, 256⟩ params none mappings correlation := by
  intro params mappings
  have hsome : (Producer.extractCorrelationContext params mappings none).isSome := by
    decide +kernel
  obtain ⟨correlation, hcorrelation⟩ := Option.isSome_iff_exists.mp hsome
  have hlookup : (Producer.extractCorrelationContext params mappings none).bind
      (Finmap.lookup ['k']) = some ('a' :: List.replicate 127 'é') := by decide +kernel
  rw [hcorrelation] at hlookup
  exact ⟨correlation, hcorrelation, hlookup,
    (extractCorrelationContext_bounded params mappings none).2 correlation hcorrelation⟩

theorem extractCorrelationContext_perm_iff :
    ((∀ first second, first.Perm mappings → second.Perm mappings →
        Producer.extractCorrelationContext params first traceContext =
          Producer.extractCorrelationContext params second traceContext) ↔
      Orderless ⟨16, 64, 256⟩ params traceContext mappings) ∧
    ((∀ first second, first.Perm mappings → second.Perm mappings →
        Telemetry.extractCorrelationContext params first traceContext =
          Telemetry.extractCorrelationContext params second traceContext) ↔
      Orderless ⟨16, 64, 256⟩ params traceContext mappings) :=
  ⟨extract_perm_iff (by decide), extract_perm_iff (by decide)⟩

end Implementations

-- Two names that differ in white space only, for different parameters.
theorem extractCorrelationContext_order :
    ∃ params first second, first.Perm second ∧ (first.map Prod.fst).Nodup ∧
      Producer.extractCorrelationContext params first none ≠
        Producer.extractCorrelationContext params second none ∧
      Telemetry.extractCorrelationContext params first none ≠
        Telemetry.extractCorrelationContext params second none := by
  let params : Params := [(['a'], .string ['x']), (['b'], .string ['y'])]
  let plain := (['k'], ['a'])
  let padded := ([' ', 'k'], ['b'])
  refine ⟨params, [plain, padded], [padded, plain], List.Perm.swap _ _ _, by decide, ?_, ?_⟩
  · decide +kernel
  · decide +kernel

end Rrq.Correlation
