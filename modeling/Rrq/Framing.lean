import Mathlib.Data.List.Basic
import Mathlib.Tactic.Ring

-- Byte streams that arrive in chunks, and frames that start with the length of their payload.

namespace Framing

abbrev Bytes := List UInt8

-- The last bytes of a number, the most significant one first.
def toBeBytes : Nat → Nat → Bytes
  | 0, _ => []
  | width + 1, n => UInt8.ofNat (n / 256 ^ width) :: toBeBytes width n

def ofBeBytes (bytes : Bytes) : Nat := bytes.foldl (fun value byte => 256 * value + byte.toNat) 0

@[simp] theorem length_toBeBytes (width n : Nat) : (toBeBytes width n).length = width := by
  induction width with
  | zero => rfl
  | succ width ih => simp [toBeBytes, ih]

theorem foldl_toBeBytes (width n value : Nat) :
    (toBeBytes width n).foldl (fun value byte => 256 * value + byte.toNat) value =
      256 ^ width * value + n % 256 ^ width := by
  induction width generalizing value with
  | zero => simp [toBeBytes, Nat.mod_one]
  | succ width ih =>
      have hbyte : (UInt8.ofNat (n / 256 ^ width)).toNat = n / 256 ^ width % 256 := by
        simp [UInt8.toNat_ofNat']
      rw [toBeBytes, List.foldl_cons, ih, hbyte, Nat.pow_succ, Nat.mod_mul]
      ring

theorem ofBeBytes_toBeBytes {width n : Nat} (h : n < 256 ^ width) :
    ofBeBytes (toBeBytes width n) = n := by
  unfold ofBeBytes
  rw [foldl_toBeBytes, Nat.mul_zero, Nat.zero_add, Nat.mod_eq_of_lt h]

-- Read so many bytes, chunk by chunk, and keep what is left. There is no answer if the stream
-- ends before.
def readExact : Nat → List Bytes → Option Bytes × List Bytes
  | 0, chunks => (some [], chunks)
  | _ + 1, [] => (none, [])
  | n + 1, chunk :: rest =>
      if n + 1 ≤ chunk.length then (some (chunk.take (n + 1)), chunk.drop (n + 1) :: rest)
      else
        let (more, rest) := readExact (n + 1 - chunk.length) rest
        (more.map (chunk ++ ·), rest)

-- Where the chunks are cut makes no difference.
theorem readExact_append {bytes tail : Bytes} {chunks : List Bytes}
    (h : chunks.flatten = bytes ++ tail) :
    ∃ rest, readExact bytes.length chunks = (some bytes, rest) ∧ rest.flatten = tail := by
  induction chunks generalizing bytes with
  | nil =>
      obtain ⟨rfl, rfl⟩ := List.append_eq_nil_iff.mp h.symm
      exact ⟨[], rfl, rfl⟩
  | cons chunk chunks ih =>
      cases hn : bytes.length with
      | zero =>
          obtain rfl := List.eq_nil_of_length_eq_zero hn
          exact ⟨chunk :: chunks, rfl, h⟩
      | succ n =>
          rw [List.flatten_cons] at h
          by_cases hc : n + 1 ≤ chunk.length
          · refine ⟨chunk.drop (n + 1) :: chunks, ?_, ?_⟩
            · have htake := congrArg (List.take (n + 1)) h
              rw [List.take_append_of_le_length hc, ← hn, List.take_left] at htake
              rw [readExact, if_pos hc, ← hn, htake]
            · have hdrop := congrArg (List.drop (n + 1)) h
              rw [List.drop_append_of_le_length hc, ← hn, List.drop_left] at hdrop
              rw [List.flatten_cons, ← hn, hdrop]
          · obtain ⟨later, rfl, hlater⟩ : ∃ later, bytes = chunk ++ later ∧
                chunks.flatten = later ++ tail := by
              obtain ⟨later, hbytes, hrest⟩ | ⟨later, hchunk, -⟩ := List.append_eq_append_iff.mp h
              · exact ⟨later, hbytes, hrest⟩
              · have hlength := congrArg List.length hchunk
                rw [List.length_append] at hlength
                omega
            obtain ⟨rest, hread, hrest⟩ := ih hlater
            refine ⟨rest, ?_, hrest⟩
            have hlength : n + 1 - chunk.length = later.length := by
              rw [List.length_append] at hn
              omega
            rw [readExact, if_neg hc, hlength, hread]
            rfl

-- A stream that is too short.
theorem readExact_short {n : Nat} {chunks : List Bytes} (h : chunks.flatten.length < n) :
    (readExact n chunks).1 = none := by
  induction chunks generalizing n with
  | nil =>
      cases n with
      | zero => exact absurd h (Nat.not_lt_zero _)
      | succ n => rfl
  | cons chunk chunks ih =>
      rw [List.flatten_cons, List.length_append] at h
      cases n with
      | zero => exact absurd h (Nat.not_lt_zero _)
      | succ n =>
          have hc : ¬ n + 1 ≤ chunk.length := by omega
          have hnone := ih (n := n + 1 - chunk.length) (by omega)
          rw [readExact, if_neg hc]
          show Option.map _ (readExact (n + 1 - chunk.length) chunks).1 = none
          rw [hnone]
          rfl

-- What is read is taken from the front of the stream.
theorem readExact_some {n : Nat} {chunks rest : List Bytes} {bytes : Bytes}
    (h : readExact n chunks = (some bytes, rest)) :
    bytes.length = n ∧ chunks.flatten = bytes ++ rest.flatten := by
  have hle : n ≤ chunks.flatten.length := by
    by_contra hlt
    have hshort := readExact_short (Nat.lt_of_not_le hlt)
    rw [h] at hshort
    cases hshort
  have hsplit : chunks.flatten = chunks.flatten.take n ++ chunks.flatten.drop n :=
    (List.take_append_drop n _).symm
  have hlength : (chunks.flatten.take n).length = n := List.length_take_of_le hle
  obtain ⟨tail, hread, htail⟩ := readExact_append hsplit
  rw [hlength, h] at hread
  obtain ⟨hbytes, rfl⟩ := Prod.mk.injEq .. ▸ hread
  obtain rfl := Option.some.inj hbytes
  rw [htail]
  exact ⟨hlength, hsplit⟩

theorem readExact_none_iff {n : Nat} {chunks : List Bytes} :
    (readExact n chunks).1 = none ↔ chunks.flatten.length < n := by
  refine ⟨fun h => ?_, readExact_short⟩
  by_contra hle
  have hsplit : chunks.flatten = chunks.flatten.take n ++ chunks.flatten.drop n :=
    (List.take_append_drop n _).symm
  have hlength : (chunks.flatten.take n).length = n :=
    List.length_take_of_le (Nat.le_of_not_lt hle)
  obtain ⟨tail, hread, -⟩ := readExact_append hsplit
  rw [hlength] at hread
  rw [hread] at h
  cases h

-- A frame of a payload, and how its reader fails.

def frame (headerLen : Nat) (payload : Bytes) : Bytes :=
  toBeBytes headerLen payload.length ++ payload

inductive FrameFault where
  | empty
  | tooLarge
  | truncated
deriving DecidableEq

-- The next payload, if the stream does not end before its header is through.
def readFrame (headerLen limit : Nat) (chunks : List Bytes) :
    Except FrameFault (Option Bytes) × List Bytes :=
  match readExact headerLen chunks with
  | (none, rest) => (.ok none, rest)
  | (some header, rest) =>
      let length := ofBeBytes header
      if length = 0 then (.error .empty, rest)
      else if limit < length then (.error .tooLarge, rest)
      else
        match readExact length rest with
        | (none, rest) => (.error .truncated, rest)
        | (some payload, rest) => (.ok (some payload), rest)

section Frames

variable {headerLen : Nat} {payload tail : Bytes} {chunks : List Bytes}

theorem readFrame_append (limit : Nat) (hwidth : payload.length < 256 ^ headerLen)
    (h : chunks.flatten = frame headerLen payload ++ tail) :
    ∃ rest, (payload.length ≤ limit → payload ≠ [] →
        readFrame headerLen limit chunks = (.ok (some payload), rest)) ∧
      (limit < payload.length → (readFrame headerLen limit chunks).1 = .error .tooLarge) ∧
      (payload = [] → (readFrame headerLen limit chunks).1 = .error .empty) ∧
      rest.flatten = tail := by
  unfold frame at h
  rw [List.append_assoc] at h
  obtain ⟨mid, hheader, hmid⟩ := readExact_append h
  rw [length_toBeBytes] at hheader
  obtain ⟨rest, hpayload, hrest⟩ := readExact_append hmid
  have hlength := ofBeBytes_toBeBytes hwidth
  refine ⟨rest, fun hle hne => ?_, fun hlt => ?_, fun hnil => ?_, hrest⟩
  · have hpos : payload.length ≠ 0 := fun h => hne (List.eq_nil_of_length_eq_zero h)
    simp only [readFrame, hheader, hlength, if_neg hpos, if_neg (Nat.not_lt.mpr hle), hpayload]
  · have hpos : payload.length ≠ 0 := by omega
    simp only [readFrame, hheader, hlength, if_neg hpos, if_pos hlt]
  · have hzero : payload.length = 0 := List.length_eq_zero_iff.mpr hnil
    simp only [readFrame, hheader, hlength, if_pos hzero]

theorem readFrame_end (limit : Nat) (hpos : 0 < headerLen) (h : chunks.flatten = []) :
    (readFrame headerLen limit chunks).1 = .ok none := by
  have hshort := readExact_short (n := headerLen) (h ▸ hpos : chunks.flatten.length < headerLen)
  unfold readFrame
  cases hread : readExact headerLen chunks with
  | mk header rest =>
      rw [hread] at hshort
      obtain rfl : header = none := hshort
      rfl

theorem readFrame_none_iff {headerLen : Nat} (limit : Nat) (chunks : List Bytes) :
    (readFrame headerLen limit chunks).1 = .ok none ↔ chunks.flatten.length < headerLen := by
  rw [← readExact_none_iff]
  unfold readFrame
  cases hheader : readExact headerLen chunks with
  | mk header rest =>
      cases header with
      | none => simp
      | some header =>
          simp only [reduceCtorEq, iff_false]
          split_ifs
          · nofun
          · nofun
          · cases hpayload : readExact (ofBeBytes header) rest with
            | mk payload rest => cases payload <;> simp

-- A header that gives the length of a payload, and the payload.
structure IsFrame (headerLen limit : Nat) (bytes payload : Bytes) : Prop where
  header : ∃ header, header.length = headerLen ∧ ofBeBytes header = payload.length ∧
    bytes = header ++ payload
  ne_nil : payload ≠ []
  length_le : payload.length ≤ limit

theorem readFrame_of_isFrame {limit : Nat} {bytes : Bytes}
    (hf : IsFrame headerLen limit bytes payload) (h : chunks.flatten = bytes ++ tail) :
    ∃ rest, readFrame headerLen limit chunks = (.ok (some payload), rest) ∧
      rest.flatten = tail := by
  obtain ⟨header, hlen, hvalue, rfl⟩ := hf.header
  rw [List.append_assoc] at h
  obtain ⟨mid, hheader, hmid⟩ := readExact_append h
  obtain ⟨rest, hpayload, hrest⟩ := readExact_append hmid
  rw [hlen] at hheader
  have hpos : payload.length ≠ 0 := fun h => hf.ne_nil (List.eq_nil_of_length_eq_zero h)
  refine ⟨rest, ?_, hrest⟩
  simp only [readFrame, hheader, hvalue, if_neg hpos, if_neg (Nat.not_lt.mpr hf.length_le),
    hpayload]

theorem isFrame_of_readFrame {limit : Nat} {rest : List Bytes}
    (h : readFrame headerLen limit chunks = (.ok (some payload), rest)) :
    ∃ bytes, IsFrame headerLen limit bytes payload ∧ chunks.flatten = bytes ++ rest.flatten := by
  unfold readFrame at h
  cases hheader : readExact headerLen chunks with
  | mk header mid =>
      rw [hheader] at h
      cases header with
      | none => cases h
      | some header =>
          simp only at h
          split_ifs at h with hzero hlarge
          · cases h
          · cases h
          · cases hpayload : readExact (ofBeBytes header) mid with
            | mk found last =>
                rw [hpayload] at h
                cases found with
                | none => cases h
                | some found =>
                    cases h
                    obtain ⟨hheaderLen, hchunks⟩ := readExact_some hheader
                    obtain ⟨hlength, hmid⟩ := readExact_some hpayload
                    refine ⟨header ++ payload, ⟨⟨header, hheaderLen, hlength.symm, rfl⟩, ?_, ?_⟩, ?_⟩
                    · rintro rfl
                      exact hzero hlength.symm
                    · rw [hlength]
                      exact Nat.le_of_not_lt hlarge
                    · rw [hchunks, hmid, List.append_assoc]

-- A stream of frames, and what their payloads are accepted as.
inductive Frames {α : Type} (headerLen limit : Nat) (accepts : Bytes → Option α) :
    List α → Bytes → Prop
  | nil : Frames headerLen limit accepts [] []
  | cons {bytes payload rest : Bytes} {value : α} {values : List α} :
      IsFrame headerLen limit bytes payload → accepts payload = some value →
      Frames headerLen limit accepts values rest →
      Frames headerLen limit accepts (value :: values) (bytes ++ rest)

-- A stream that ends before its first frame is through.
inductive Incomplete (headerLen limit : Nat) : Bytes → Prop
  | header {bytes : Bytes} (h : bytes.length < headerLen) : Incomplete headerLen limit bytes
  | payload {header part : Bytes} (hheader : header.length = headerLen)
      (hpos : 0 < ofBeBytes header) (hle : ofBeBytes header ≤ limit)
      (hpart : part.length < ofBeBytes header) : Incomplete headerLen limit (header ++ part)

-- A stream that no frame stands at the front of, whatever follows.
inductive Malformed {α : Type} (headerLen limit : Nat) (accepts : Bytes → Option α) :
    Bytes → Prop
  | empty {header rest : Bytes} (hheader : header.length = headerLen)
      (hlength : ofBeBytes header = 0) : Malformed headerLen limit accepts (header ++ rest)
  | tooLarge {header rest : Bytes} (hheader : header.length = headerLen)
      (hlength : limit < ofBeBytes header) : Malformed headerLen limit accepts (header ++ rest)
  | rejected {bytes payload rest : Bytes} (hframe : IsFrame headerLen limit bytes payload)
      (hreject : accepts payload = none) : Malformed headerLen limit accepts (bytes ++ rest)

section Front

variable {α : Type} {limit : Nat} {accepts : Bytes → Option α} {bytes rest : Bytes}

theorem front_cases (headerLen limit : Nat) (accepts : Bytes → Option α) (stream : Bytes) :
    Incomplete headerLen limit stream ∨ Malformed headerLen limit accepts stream ∨
      ∃ bytes payload rest value, stream = bytes ++ rest ∧
        IsFrame headerLen limit bytes payload ∧ accepts payload = some value := by
  rcases Nat.lt_or_ge stream.length headerLen with hshort | hheader
  · exact .inl (.header hshort)
  · have hlen : (stream.take headerLen).length = headerLen := List.length_take_of_le hheader
    have hsplit := List.take_append_drop headerLen stream
    generalize stream.take headerLen = header, stream.drop headerLen = body at hlen hsplit
    subst hsplit
    by_cases hzero : ofBeBytes header = 0
    · exact .inr (.inl (.empty hlen hzero))
    · rcases Nat.lt_or_ge limit (ofBeBytes header) with hlarge | hle
      · exact .inr (.inl (.tooLarge hlen hlarge))
      · rcases Nat.lt_or_ge body.length (ofBeBytes header) with hpart | hbody
        · exact .inl (.payload hlen (Nat.pos_of_ne_zero hzero) hle hpart)
        · have hpayload : (body.take (ofBeBytes header)).length = ofBeBytes header :=
            List.length_take_of_le hbody
          have hframe : IsFrame headerLen limit (header ++ body.take (ofBeBytes header))
              (body.take (ofBeBytes header)) := by
            refine ⟨⟨header, hlen, hpayload.symm, rfl⟩, ?_, hpayload.le.trans hle⟩
            intro hempty
            rw [hempty] at hpayload
            exact hzero hpayload.symm
          have hstream : header ++ body = header ++ body.take (ofBeBytes header) ++
              body.drop (ofBeBytes header) := by rw [List.append_assoc, List.take_append_drop]
          rw [hstream]
          cases haccepts : accepts (body.take (ofBeBytes header)) with
          | none => exact .inr (.inl (.rejected hframe haccepts))
          | some value => exact .inr (.inr ⟨_, _, _, value, rfl, hframe, haccepts⟩)

theorem Malformed.append {stream : Bytes} (h : Malformed headerLen limit accepts stream)
    (more : Bytes) : Malformed headerLen limit accepts (stream ++ more) := by
  cases h with
  | empty hheader hlength =>
      rw [List.append_assoc]
      exact .empty hheader hlength
  | tooLarge hheader hlength =>
      rw [List.append_assoc]
      exact .tooLarge hheader hlength
  | rejected hframe hreject =>
      rw [List.append_assoc]
      exact .rejected hframe hreject

theorem Frames.append {values more : List α} (h : Frames headerLen limit accepts values bytes)
    (hmore : Frames headerLen limit accepts more rest) :
    Frames headerLen limit accepts (values ++ more) (bytes ++ rest) := by
  induction h with
  | nil => exact hmore
  | cons hframe hvalue _ ih =>
      rw [List.append_assoc]
      exact .cons hframe hvalue ih

-- One stream has but one frame at its front.
theorem IsFrame.unique {payload' bytes' rest' : Bytes}
    (hf : IsFrame headerLen limit bytes payload) (hf' : IsFrame headerLen limit bytes' payload')
    (h : bytes ++ rest = bytes' ++ rest') : payload = payload' := by
  obtain ⟨header, hlen, hvalue, rfl⟩ := hf.header
  obtain ⟨header', hlen', hvalue', rfl⟩ := hf'.header
  rw [List.append_assoc, List.append_assoc] at h
  obtain ⟨rfl, hbody⟩ := List.append_inj h (hlen.trans hlen'.symm)
  exact (List.append_inj hbody (hvalue.symm.trans hvalue')).1

theorem IsFrame.not_malformed {value : α} (hf : IsFrame headerLen limit bytes payload)
    (haccepts : accepts payload = some value) :
    ¬ Malformed headerLen limit accepts (bytes ++ rest) := by
  intro hmalformed
  obtain ⟨header, hlen, hvalue, hbytes⟩ := hf.header
  generalize hstream : bytes ++ rest = stream at hmalformed
  rw [hbytes, List.append_assoc] at hstream
  cases hmalformed with
  | empty hheader hlength =>
      obtain ⟨rfl, -⟩ := List.append_inj hstream (hlen.trans hheader.symm)
      exact hf.ne_nil (List.eq_nil_of_length_eq_zero (hvalue.symm.trans hlength))
  | tooLarge hheader hlength =>
      obtain ⟨rfl, -⟩ := List.append_inj hstream (hlen.trans hheader.symm)
      rw [hvalue] at hlength
      exact Nat.not_le.mpr hlength hf.length_le
  | rejected hframe hreject =>
      rw [← List.append_assoc, ← hbytes] at hstream
      rw [← hf.unique hframe hstream, haccepts] at hreject
      cases hreject

theorem Frames.bytes_nil (h : Frames headerLen limit accepts [] bytes) : bytes = [] := by
  cases h with
  | nil => rfl

theorem Frames.eq_nil {values : List α} (h : Frames headerLen limit accepts values bytes)
    (hmalformed : Malformed headerLen limit accepts (bytes ++ rest)) : values = [] := by
  cases h with
  | nil => rfl
  | cons hframe hvalue _ =>
      rw [List.append_assoc] at hmalformed
      exact absurd hmalformed (hframe.not_malformed hvalue)

end Front

end Frames

end Framing
