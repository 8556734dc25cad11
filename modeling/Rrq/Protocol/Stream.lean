import Rrq.Protocol.Theorems

-- A stream that is read to its end, message by message, and where an end is taken for a clean
-- one.

namespace Rrq.Protocol

open Framing

variable {serde : Serde}

section Read

variable {chunks rest : List Bytes} {message : RunnerMessage}

theorem readFrame_of_readMessage (h : readMessage serde chunks = (.ok (some message), rest)) :
    ∃ payload, readFrame FRAME_HEADER_LEN MAX_FRAME_LEN chunks = (.ok (some payload), rest) ∧
      fromSlice serde payload = some message := by
  unfold readMessage at h
  cases hframe : readFrame FRAME_HEADER_LEN MAX_FRAME_LEN chunks with
  | mk answer left =>
      rw [hframe] at h
      cases answer with
      | error fault => cases h
      | ok found =>
          cases found with
          | none => cases h
          | some payload =>
              cases hslice : fromSlice serde payload with
              | none => simp [hslice] at h
              | some other =>
                  simp only [hslice] at h
                  cases h
                  exact ⟨payload, rfl, hslice⟩

theorem readMessage_of_readFrame {payload : Bytes}
    (h : readFrame FRAME_HEADER_LEN MAX_FRAME_LEN chunks = (.ok (some payload), rest))
    (hslice : fromSlice serde payload = some message) :
    readMessage serde chunks = (.ok (some message), rest) := by
  unfold readMessage
  rw [h]
  simp only [hslice]

-- The end of the stream is reported as soon as a header is not through.
theorem readMessage_none_iff (chunks : List Bytes) :
    (readMessage serde chunks).1 = .ok none ↔ chunks.flatten.length < FRAME_HEADER_LEN := by
  rw [← readFrame_none_iff MAX_FRAME_LEN]
  unfold readMessage
  cases readFrame FRAME_HEADER_LEN MAX_FRAME_LEN chunks with
  | mk answer left =>
      cases answer with
      | error fault => simp
      | ok found =>
          cases found with
          | none => simp
          | some payload =>
              cases hslice : fromSlice serde payload with
              | none => simp [hslice]
              | some message => simp [hslice]

theorem readMessage_shorter (h : readMessage serde chunks = (.ok (some message), rest)) :
    rest.flatten.length < chunks.flatten.length := by
  obtain ⟨payload, hframe, -⟩ := readFrame_of_readMessage h
  obtain ⟨bytes, hbytes, hchunks⟩ := isFrame_of_readFrame hframe
  obtain ⟨header, -, -, rfl⟩ := hbytes.header
  have hpos := List.length_pos_of_ne_nil hbytes.ne_nil
  rw [hchunks, List.length_append, List.length_append]
  omega

end Read

-- The messages of a stream, and how the reading ends.
def readAll (serde : Serde) (chunks : List Bytes) : List RunnerMessage × Except ReadError Unit :=
  match _h : readMessage serde chunks with
  | (.error error, _) => ([], .error error)
  | (.ok none, _) => ([], .ok ())
  | (.ok (some message), rest) =>
      let later := readAll serde rest
      (message :: later.1, later.2)
termination_by chunks.flatten.length
decreasing_by exact readMessage_shorter (by assumption)

section ReadAll

variable {chunks rest : List Bytes} {message : RunnerMessage}

theorem readAll_some (h : readMessage serde chunks = (.ok (some message), rest)) :
    readAll serde chunks = (message :: (readAll serde rest).1, (readAll serde rest).2) := by
  rw [readAll]
  split
  · rename_i heq
    cases h.symm.trans heq
  · rename_i heq
    cases h.symm.trans heq
  · rename_i heq
    cases h.symm.trans heq
    rfl

theorem readAll_none (h : (readMessage serde chunks).1 = .ok none) :
    readAll serde chunks = ([], .ok ()) := by
  rw [readAll]
  split
  · rename_i heq
    cases h.symm.trans (congrArg Prod.fst heq)
  · rfl
  · rename_i heq
    cases h.symm.trans (congrArg Prod.fst heq)

theorem readAll_error {error : ReadError} (h : (readMessage serde chunks).1 = .error error) :
    readAll serde chunks = ([], .error error) := by
  rw [readAll]
  split
  · rename_i heq
    cases h.symm.trans (congrArg Prod.fst heq)
    rfl
  · rename_i heq
    cases h.symm.trans (congrArg Prod.fst heq)
  · rename_i heq
    cases h.symm.trans (congrArg Prod.fst heq)

end ReadAll

-- The frames of these messages, one after the other.
abbrev Frames (serde : Serde) : List RunnerMessage → Bytes → Prop :=
  Framing.Frames FRAME_HEADER_LEN MAX_FRAME_LEN (fromSlice serde)

-- Reading goes through the frames at the front of a stream.
theorem readAll_frames {messages : List RunnerMessage} {bytes tail : Bytes}
    (hf : Frames serde messages bytes) {chunks : List Bytes} (h : chunks.flatten = bytes ++ tail) :
    ∃ rest, rest.flatten = tail ∧ readAll serde chunks =
      (messages ++ (readAll serde rest).1, (readAll serde rest).2) := by
  induction hf generalizing chunks with
  | nil => exact ⟨chunks, h, rfl⟩
  | cons hframe hslice _ ih =>
      rw [List.append_assoc] at h
      obtain ⟨mid, hread, hmid⟩ := readFrame_of_isFrame hframe h
      obtain ⟨rest, hrest, hall⟩ := ih hmid
      refine ⟨rest, hrest, ?_⟩
      rw [readAll_some (readMessage_of_readFrame hread hslice), hall]
      rfl

-- What has been read when the reading ends, and what is left.
theorem readAll_spec (serde : Serde) (chunks : List Bytes) :
    ∃ bytes rest, chunks.flatten = bytes ++ rest.flatten ∧
      Frames serde (readAll serde chunks).1 bytes ∧
      ((readAll serde chunks).2 = .ok () ∧ (readMessage serde rest).1 = .ok none ∨
        ∃ error, (readAll serde chunks).2 = .error error ∧
          (readMessage serde rest).1 = .error error) := by
  induction hn : chunks.flatten.length using Nat.strong_induction_on generalizing chunks with
  | _ n ih =>
      subst hn
      cases hread : readMessage serde chunks with
      | mk answer rest =>
          have hfirst : (readMessage serde chunks).1 = answer := congrArg Prod.fst hread
          cases answer with
          | error error =>
              rw [readAll_error hfirst]
              exact ⟨[], chunks, rfl, .nil, .inr ⟨error, rfl, hfirst⟩⟩
          | ok found =>
              cases found with
              | none =>
                  rw [readAll_none hfirst]
                  exact ⟨[], chunks, rfl, .nil, .inl ⟨rfl, hfirst⟩⟩
              | some message =>
                  obtain ⟨payload, hframe, hslice⟩ := readFrame_of_readMessage hread
                  obtain ⟨head, hhead, hchunks⟩ := isFrame_of_readFrame hframe
                  obtain ⟨bytes, last, hrest, hframes, hend⟩ :=
                    ih _ (readMessage_shorter hread) rest rfl
                  rw [readAll_some hread]
                  refine ⟨head ++ bytes, last, ?_, .cons hhead hslice hframes, hend⟩
                  rw [hchunks, hrest, List.append_assoc]

-- The stream ends within the header of a frame, after the frames of some messages.
def CutHeader (serde : Serde) (stream : Bytes) : Prop :=
  ∃ messages bytes tail, stream = bytes ++ tail ∧ Frames serde messages bytes ∧
    tail ≠ [] ∧ tail.length < FRAME_HEADER_LEN

-- The stream ends within the payload of a frame.
def CutPayload (serde : Serde) (stream : Bytes) : Prop :=
  ∃ messages bytes header part, stream = bytes ++ (header ++ part) ∧
    Frames serde messages bytes ∧ header.length = FRAME_HEADER_LEN ∧
    part.length < ofBeBytes header

-- However the stream arrives, its end is reported where it ends with a frame, and there alone,
-- and an end within a frame is an error.
structure EndReported (serde : Serde) (stream : Bytes) : Prop where
  ends : ∀ chunks : List Bytes, chunks.flatten = stream →
    ((readAll serde chunks).2 = .ok () ↔ Frames serde (readAll serde chunks).1 stream)
  cut : ∀ chunks : List Bytes, chunks.flatten = stream →
    CutHeader serde stream ∨ CutPayload serde stream →
      ∃ error, (readAll serde chunks).2 = .error error

section EndReported

variable {stream : Bytes} {chunks : List Bytes}

-- The reader takes an end within a header for a clean one.
theorem readAll_cutHeader (hcut : CutHeader serde stream) (h : chunks.flatten = stream) :
    (readAll serde chunks).2 = .ok () := by
  obtain ⟨messages, bytes, tail, rfl, hframes, -, hshort⟩ := hcut
  obtain ⟨rest, rfl, hall⟩ := readAll_frames hframes h
  rw [hall, readAll_none ((readMessage_none_iff rest).mpr hshort)]

theorem readAll_cutPayload (hcut : CutPayload serde stream) (h : chunks.flatten = stream) :
    ∃ error, (readAll serde chunks).2 = .error error := by
  obtain ⟨messages, bytes, header, part, rfl, hframes, hheader, hpart⟩ := hcut
  obtain ⟨rest, hrest, hall⟩ := readAll_frames hframes h
  rw [hall]
  have hfault : ∃ fault, (readFrame FRAME_HEADER_LEN MAX_FRAME_LEN rest).1 = .error fault := by
    obtain ⟨mid, hread, hmid⟩ := readExact_append hrest
    rw [hheader] at hread
    have hshort := readExact_short (hmid ▸ hpart : mid.flatten.length < ofBeBytes header)
    unfold readFrame
    rw [hread]
    dsimp only
    split_ifs
    · exact ⟨.empty, rfl⟩
    · exact ⟨.tooLarge, rfl⟩
    · cases hpayload : readExact (ofBeBytes header) mid with
      | mk found last =>
          rw [hpayload] at hshort
          obtain rfl : found = none := hshort
          exact ⟨.truncated, rfl⟩
  obtain ⟨fault, hfault⟩ := hfault
  refine ⟨.frame fault, ?_⟩
  have herror : (readMessage serde rest).1 = .error (.frame fault) := by
    unfold readMessage
    cases hframe : readFrame FRAME_HEADER_LEN MAX_FRAME_LEN rest with
    | mk answer last =>
        rw [hframe] at hfault
        obtain rfl : answer = .error fault := hfault
        rfl
  rw [readAll_error herror]

theorem endReported_iff (serde : Serde) (stream : Bytes) :
    EndReported serde stream ↔ ¬ CutHeader serde stream := by
  constructor
  · intro h hcut
    obtain ⟨error, herror⟩ := h.cut [stream] List.flatten_singleton (.inl hcut)
    rw [readAll_cutHeader hcut List.flatten_singleton] at herror
    cases herror
  · intro hcut
    refine ⟨fun chunks h => ?_, fun chunks h hends => ?_⟩
    · obtain ⟨bytes, rest, hchunks, hframes, hend⟩ := readAll_spec serde chunks
      constructor
      · intro hok
        rcases hend with ⟨-, hnone⟩ | ⟨error, herror, -⟩
        · have hempty : rest.flatten = [] := by
            by_contra hne
            exact hcut ⟨_, bytes, _, h ▸ hchunks, hframes, hne, (readMessage_none_iff rest).mp hnone⟩
          rw [← h, hchunks, hempty, List.append_nil]
          exact hframes
        · rw [hok] at herror
          cases herror
      · intro hall
        obtain ⟨rest, hrest, hread⟩ := readAll_frames hall (h.trans (List.append_nil _).symm)
        rw [hread, readAll_none ((readMessage_none_iff rest).mpr (by simp [hrest, FRAME_HEADER_LEN]))]
    · exact readAll_cutPayload (hends.resolve_left hcut) h

-- One byte of a header is all that comes.
theorem endReported_fails : CutHeader (serdeOf cancelledJson) [0] ∧
    (readAll (serdeOf cancelledJson) [[0]]).2 = .ok () ∧
    ¬ ∀ (serde : Serde) (stream : Bytes), EndReported serde stream := by
  have hcut : CutHeader (serdeOf cancelledJson) [0] :=
    ⟨[], [], [0], rfl, .nil, List.cons_ne_nil _ _, by decide⟩
  have hread : (readAll (serdeOf cancelledJson) [[0]]).2 = .ok () := readAll_cutHeader hcut rfl
  refine ⟨hcut, hread, fun h => ?_⟩
  obtain ⟨error, herror⟩ := (h _ _).cut [[0]] rfl (.inl hcut)
  rw [hread] at herror
  cases herror

end EndReported

end Rrq.Protocol
