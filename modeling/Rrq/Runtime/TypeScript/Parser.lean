import Mathlib.Data.List.Induction
import Rrq.Framing
import Rrq.Runtime.TypeScript

-- The data events of a connection to the TypeScript runtime: how they are parsed, and which of
-- the messages are handled.

namespace Rrq.Runtime.TypeScript

open Framing

def MAX_FRAME_LEN : Nat := 16 * 1024 * 1024

inductive ParseError where
  | empty
  | tooLarge
  | json
deriving DecidableEq

-- JSON.parse is what the runtime decodes the text of a payload with. It throws on some texts.
section Parser

variable (parse : Bytes → Option Json)

-- The messages of a buffer, and what stays in it. None is returned when an error is thrown.
def drain (buffer : Bytes) : Except ParseError (List Json) × Bytes :=
  if buffer.length < 4 then (.ok [], buffer)
  else
    let length := ofBeBytes (buffer.take 4)
    if length = 0 then (.error .empty, buffer)
    else if MAX_FRAME_LEN < length then (.error .tooLarge, buffer)
    else if buffer.length < 4 + length then (.ok [], buffer)
    else
      let payload := (buffer.drop 4).take length
      let rest := buffer.drop (4 + length)
      match parse payload with
      | none => (.error .json, rest)
      | some decoded =>
          let later := drain rest
          (later.1.map (decoded :: ·), later.2)
termination_by buffer.length
decreasing_by
  rw [List.length_drop]
  omega

structure FrameParser where
  buffer : Bytes := []

def FrameParser.push (parser : FrameParser) (chunk : Bytes) :
    Except ParseError (List Json) × FrameParser :=
  let drained := drain parse (parser.buffer ++ chunk)
  (drained.1, { buffer := drained.2 })

end Parser

-- Reading a property. It throws on null and on undefined, and it is undefined on all values but
-- objects.
def property (name : String) : Option Json → Option (Option Json)
  | none => none
  | some .null => none
  | some (.object members) => some (members.lookup name)
  | some _ => some none

-- What the handler goes on to do with a message. Nothing of it throws before the handler has
-- returned.
inductive Reaction where
  | unsupported (jobId requestId : Option Json)
  | request (payload jobId requestId : Option Json)
  | cancel (jobId requestId : Option Json)
  | ignored
  | unexpected

def isString (text : String) : Option Json → Bool
  | some (.string value) => value = text
  | _ => false

def readRequest (request : Option Json) : Option Reaction := do
  let version ← property "protocol_version" request
  let requestId ← property "request_id" request
  let jobId ← property "job_id" request
  if isString PROTOCOL_VERSION version then return .request request jobId requestId
  else return .unsupported jobId requestId

def readCancel (payload : Option Json) : Option Reaction := do
  let version ← property "protocol_version" payload
  if isString PROTOCOL_VERSION version then
    let requestId ← property "request_id" payload
    let jobId ← property "job_id" payload
    return .cancel jobId requestId
  else return .ignored

-- What one round of the loop reads of a message. There is no reaction when a reading throws.
def dispatch (message : Json) : Option Reaction := do
  let type ← property "type" (some message)
  if isString "request" type then
    let request ← property "payload" (some message)
    readRequest request
  else if isString "cancel" type then
    let payload ← property "payload" (some message)
    readCancel payload
  else return .unexpected

-- A connection, by what its data handler has done.
structure DataHandler where
  parser : FrameParser := {}
  delivered : List Json := []
  destroyed : Bool := false
  thrown : Bool := false

namespace DataHandler

def deliver (c : DataHandler) : List Json → DataHandler
  | [] => c
  | message :: messages =>
      let delivered := c.delivered ++ [message]
      match dispatch message with
      | none => { c with delivered, thrown := true }
      | some _ => deliver { c with delivered } messages

-- After the socket is destroyed there are no more events, nor after an error that is not caught.
def onData (parse : Bytes → Option Json) (c : DataHandler) (chunk : Bytes) : DataHandler :=
  if c.destroyed ∨ c.thrown then c
  else
    match c.parser.push parse chunk with
    | (.error _, parser) => { c with parser, destroyed := true }
    | (.ok messages, parser) => deliver { c with parser } messages

def run (parse : Bytes → Option Json) (chunks : List Bytes) : DataHandler :=
  chunks.foldl (onData parse) {}

end DataHandler

-- The values that the handler cannot read a message from.
def Throws : Json → Prop
  | .null => True
  | .object members =>
      (members.lookup "type" = some (.string "request") ∨
        members.lookup "type" = some (.string "cancel")) ∧
      (members.lookup "payload" = none ∨ members.lookup "payload" = some .null)
  | _ => False

section Dispatch

variable {name : String} {value : Option Json} {members : List (String × Json)}

theorem property_eq_none : property name value = none ↔ value = none ∨ value = some .null := by
  cases value with
  | none => simp [property]
  | some value => cases value <;> simp [property]

-- All properties of another value can be read.
theorem exists_properties (h : ¬ (value = none ∨ value = some .null)) :
    ∃ properties : String → Option Json, ∀ name, property name value = some (properties name) := by
  refine ⟨fun name => (property name value).getD none, fun name => ?_⟩
  have hname : property name value ≠ none := fun hnone => h (property_eq_none.mp hnone)
  obtain ⟨found, hfound⟩ := Option.ne_none_iff_exists'.mp hname
  simp only [hfound, Option.getD_some]

theorem isString_iff {text : String} : isString text value = true ↔ value = some (.string text) := by
  cases value with
  | none => simp [isString]
  | some value => cases value <;> simp [isString]

theorem readRequest_eq_none : readRequest value = none ↔ value = none ∨ value = some .null := by
  constructor
  · intro h
    by_contra hread
    obtain ⟨properties, hproperties⟩ := exists_properties hread
    simp only [readRequest, hproperties, Option.bind_eq_bind, Option.bind_some] at h
    split at h <;> cases h
  · intro hread
    simp only [readRequest, property_eq_none.mpr hread, Option.bind_eq_bind, Option.bind_none]

theorem readCancel_eq_none : readCancel value = none ↔ value = none ∨ value = some .null := by
  constructor
  · intro h
    by_contra hread
    obtain ⟨properties, hproperties⟩ := exists_properties hread
    simp only [readCancel, hproperties, Option.bind_eq_bind, Option.bind_some] at h
    split at h <;> cases h
  · intro hread
    simp only [readCancel, property_eq_none.mpr hread, Option.bind_eq_bind, Option.bind_none]

theorem dispatch_object (members : List (String × Json)) : dispatch (.object members) =
    if isString "request" (members.lookup "type") then readRequest (members.lookup "payload")
    else if isString "cancel" (members.lookup "type") then readCancel (members.lookup "payload")
    else some .unexpected := rfl

theorem dispatch_eq_none {message : Json} : dispatch message = none ↔ Throws message := by
  cases message with
  | null => exact ⟨fun _ => trivial, fun _ => rfl⟩
  | object members =>
      rw [dispatch_object, Throws, ← isString_iff, ← isString_iff]
      by_cases hrequest : isString "request" (members.lookup "type") = true
      · rw [if_pos hrequest, readRequest_eq_none]
        exact ⟨fun h => ⟨.inl hrequest, h⟩, fun h => h.2⟩
      · rw [if_neg hrequest]
        by_cases hcancel : isString "cancel" (members.lookup "type") = true
        · rw [if_pos hcancel, readCancel_eq_none]
          exact ⟨fun h => ⟨.inr hcancel, h⟩, fun h => h.2⟩
        · rw [if_neg hcancel]
          exact ⟨nofun, fun h => (h.1.elim hrequest hcancel).elim⟩
  | bool value => exact ⟨nofun, nofun⟩
  | number value => exact ⟨nofun, nofun⟩
  | string value => exact ⟨nofun, nofun⟩
  | array items => exact ⟨nofun, nofun⟩

end Dispatch

section Drain

variable {parse : Bytes → Option Json} {buffer : Bytes}

theorem drain_incomplete (h : Incomplete 4 MAX_FRAME_LEN buffer) :
    drain parse buffer = (.ok [], buffer) := by
  rw [drain]
  cases h with
  | header h => exact if_pos h
  | @payload header part hheader hpos hle hpart =>
      have hlong : ¬ (header ++ part).length < 4 := by simp [hheader]
      have htake : (header ++ part).take 4 = header := List.take_left' hheader
      have hshort : (header ++ part).length < 4 + ofBeBytes header := by
        rw [List.length_append, hheader]
        omega
      simp only [if_neg hlong, htake, if_neg hpos.ne', if_neg (Nat.not_lt.mpr hle), if_pos hshort]

-- How a buffer is drained that a whole frame stands at the front of.
theorem drain_isFrame {bytes payload rest : Bytes} (hf : IsFrame 4 MAX_FRAME_LEN bytes payload) :
    drain parse (bytes ++ rest) =
      match parse payload with
      | none => (.error .json, rest)
      | some decoded =>
          ((drain parse rest).1.map (decoded :: ·), (drain parse rest).2) := by
  obtain ⟨header, hheader, hvalue, rfl⟩ := hf.header
  have hlong : ¬ (header ++ payload ++ rest).length < 4 := by simp [hheader]
  have htake : (header ++ payload ++ rest).take 4 = header := by
    rw [List.append_assoc]
    exact List.take_left' hheader
  have hdrop : ((header ++ payload ++ rest).drop 4).take payload.length = payload := by
    rw [List.append_assoc, List.drop_left' hheader, List.take_left]
  have hrest : (header ++ payload ++ rest).drop (4 + payload.length) = rest :=
    List.drop_left' (by rw [List.length_append, hheader])
  have hpos : payload.length ≠ 0 := fun h => hf.ne_nil (List.eq_nil_of_length_eq_zero h)
  have hwhole : ¬ (header ++ payload ++ rest).length < 4 + payload.length := by
    rw [List.length_append, List.length_append, hheader]
    omega
  rw [drain]
  simp only [if_neg hlong, htake, hvalue, if_neg hpos, if_neg (Nat.not_lt.mpr hf.length_le),
    if_neg hwhole, hdrop, hrest]

theorem drain_malformed (h : Malformed 4 MAX_FRAME_LEN parse buffer) :
    ∃ error, (drain parse buffer).1 = .error error := by
  cases h with
  | @empty header rest hheader hlength =>
      refine ⟨.empty, ?_⟩
      have hlong : ¬ (header ++ rest).length < 4 := by simp [hheader]
      rw [drain]
      simp only [if_neg hlong, List.take_left' hheader, hlength, if_pos]
  | @tooLarge header rest hheader hlength =>
      refine ⟨.tooLarge, ?_⟩
      have hlong : ¬ (header ++ rest).length < 4 := by simp [hheader]
      rw [drain]
      simp only [if_neg hlong, List.take_left' hheader, if_neg (Nat.ne_of_gt (Nat.zero_lt_of_lt hlength)),
        if_pos hlength]
  | rejected hframe hreject =>
      refine ⟨.json, ?_⟩
      rw [drain_isFrame hframe, hreject]

-- The frames of these messages, one after the other.
abbrev Frames (parse : Bytes → Option Json) : List Json → Bytes → Prop :=
  Framing.Frames 4 MAX_FRAME_LEN parse

theorem drain_frames {messages : List Json} {bytes rest : Bytes} (h : Frames parse messages bytes) :
    drain parse (bytes ++ rest) =
      ((drain parse rest).1.map (messages ++ ·), (drain parse rest).2) := by
  induction h with
  | nil =>
      cases hrest : (drain parse rest).1 <;> simp [Except.map, ← hrest]
  | cons hframe hvalue _ ih =>
      rw [List.append_assoc, drain_isFrame hframe, hvalue]
      simp only [ih]
      cases (drain parse rest).1 <;> simp [Except.map]

theorem drain_whole {messages : List Json} {bytes rest : Bytes} (h : Frames parse messages bytes)
    (hpart : Incomplete 4 MAX_FRAME_LEN rest) :
    drain parse (bytes ++ rest) = (.ok messages, rest) := by
  rw [drain_frames h, drain_incomplete hpart]
  simp [Except.map]

-- What stands in a buffer: frames, and then a beginning of a frame or something else.
theorem exists_frames (parse : Bytes → Option Json) (buffer : Bytes) :
    ∃ messages bytes rest, buffer = bytes ++ rest ∧ Frames parse messages bytes ∧
      (Incomplete 4 MAX_FRAME_LEN rest ∨ Malformed 4 MAX_FRAME_LEN parse rest) := by
  induction hn : buffer.length using Nat.strong_induction_on generalizing buffer with
  | _ n ih =>
      subst hn
      obtain hpart | hbad | ⟨bytes, payload, rest, message, rfl, hframe, hvalue⟩ :=
        front_cases 4 MAX_FRAME_LEN parse buffer
      · exact ⟨[], [], buffer, rfl, .nil, .inl hpart⟩
      · exact ⟨[], [], buffer, rfl, .nil, .inr hbad⟩
      · have hshorter : rest.length < (bytes ++ rest).length := by
          obtain ⟨header, hheader, -, rfl⟩ := hframe.header
          rw [List.length_append, List.length_append, hheader]
          omega
        obtain ⟨messages, later, last, rfl, hframes, hend⟩ := ih _ hshorter rest rfl
        exact ⟨message :: messages, bytes ++ later, last, (List.append_assoc ..).symm,
          .cons hframe hvalue hframes, hend⟩

end Drain

section Run

variable {parse : Bytes → Option Json} {stream : Bytes}

namespace DataHandler

theorem deliver_harmless {messages : List Json} (h : ∀ message ∈ messages, ¬ Throws message)
    (c : DataHandler) :
    c.deliver messages = { c with delivered := c.delivered ++ messages } := by
  induction messages generalizing c with
  | nil => simp [deliver]
  | cons message messages ih =>
      have hreaction : dispatch message ≠ none := fun hnone =>
        h message List.mem_cons_self (dispatch_eq_none.mp hnone)
      obtain ⟨reaction, hdispatch⟩ := Option.ne_none_iff_exists'.mp hreaction
      simp only [deliver, hdispatch, ih fun other ho => h other (List.mem_cons_of_mem _ ho)]
      simp

theorem deliver_throws {messages : List Json} {message : Json} (hmem : message ∈ messages)
    (h : Throws message) (c : DataHandler) : (c.deliver messages).thrown = true := by
  induction messages generalizing c with
  | nil => cases hmem
  | cons first messages ih =>
      rw [deliver]
      cases hdispatch : dispatch first with
      | none => rfl
      | some reaction =>
          rcases List.mem_cons.mp hmem with rfl | hlater
          · rw [dispatch_eq_none.mpr h] at hdispatch
            cases hdispatch
          · exact ih hlater _

theorem run_append (chunks : List Bytes) (chunk : Bytes) :
    run parse (chunks ++ [chunk]) = (run parse chunks).onData parse chunk :=
  List.foldl_concat ..

end DataHandler

open DataHandler

-- No message throws, and a frame that is malformed comes first.
structure Sound (parse : Bytes → Option Json) (stream : Bytes) : Prop where
  harmless : ∀ messages bytes rest, stream = bytes ++ rest → Frames parse messages bytes →
    ∀ message ∈ messages, ¬ Throws message
  first : ∀ messages bytes rest, stream = bytes ++ rest → Frames parse messages bytes →
    Malformed 4 MAX_FRAME_LEN parse rest → messages = []

theorem Sound.of_append {more : Bytes} (h : Sound parse (stream ++ more)) : Sound parse stream where
  harmless messages bytes rest hstream hframes := by
    apply h.harmless messages bytes (rest ++ more) _ hframes
    rw [hstream, List.append_assoc]
  first messages bytes rest hstream hframes hbad := by
    apply h.first messages bytes (rest ++ more) _ hframes (hbad.append more)
    rw [hstream, List.append_assoc]

-- What the handler has made of the bytes received.
inductive Progress (parse : Bytes → Option Json) : Bytes → DataHandler → Prop
  | reading {messages : List Json} {bytes rest : Bytes} (hframes : Frames parse messages bytes)
      (hpart : Incomplete 4 MAX_FRAME_LEN rest) :
      Progress parse (bytes ++ rest) { parser := { buffer := rest }, delivered := messages }
  | failed {received : Bytes} {c : DataHandler} (hbad : Malformed 4 MAX_FRAME_LEN parse received)
      (hnone : c.delivered = []) (hdestroyed : c.destroyed = true) (hthrown : c.thrown = false) :
      Progress parse received c

theorem onData_progress {received chunk : Bytes} {c : DataHandler} (h : Progress parse received c)
    (hsound : Sound parse (received ++ chunk)) :
    Progress parse (received ++ chunk) (c.onData parse chunk) := by
  cases h with
  | failed hbad hnone hdestroyed hthrown =>
      rw [onData, if_pos (.inl hdestroyed)]
      exact .failed (hbad.append chunk) hnone hdestroyed hthrown
  | @reading messages bytes rest hframes hpart =>
      obtain ⟨more, added, last, hbuffer, hadded, hend⟩ := exists_frames parse (rest ++ chunk)
      have hall : Frames parse (messages ++ more) (bytes ++ added) := hframes.append hadded
      have hreceived : bytes ++ rest ++ chunk = bytes ++ added ++ last := by
        rw [List.append_assoc, hbuffer, List.append_assoc]
      simp only [onData, FrameParser.push, hbuffer, drain_frames hadded, Bool.false_eq_true,
        or_self, if_false]
      rcases hend with hpart' | hbad
      · rw [drain_incomplete hpart', hreceived]
        have hharmless : ∀ message ∈ more, ¬ Throws message := fun message hm =>
          hsound.harmless _ _ last hreceived hall message (List.mem_append_right _ hm)
        simp only [Except.map, List.append_nil, deliver_harmless hharmless]
        exact .reading hall hpart'
      · obtain ⟨error, herror⟩ := drain_malformed hbad
        have hempty := hsound.first _ _ last hreceived hall hbad
        obtain ⟨rfl, rfl⟩ := List.append_eq_nil_iff.mp hempty
        rw [herror, hreceived, hall.bytes_nil]
        exact .failed hbad rfl rfl rfl

theorem run_progress (chunks : List Bytes) (hsound : Sound parse chunks.flatten) :
    Progress parse chunks.flatten (run parse chunks) := by
  induction chunks using List.reverseRecOn with
  | nil => exact .reading .nil (.header (by decide))
  | append_singleton chunks chunk ih =>
      rw [List.flatten_append, List.flatten_singleton] at hsound ⊢
      rw [run_append]
      exact onData_progress (ih hsound.of_append) hsound

-- What is delivered depends on the stream alone.
theorem Progress.delivered_eq {c : DataHandler} (h : Progress parse stream c) :
    c.delivered = match (drain parse stream).1 with
      | .ok messages => messages
      | .error _ => [] := by
  cases h with
  | reading hframes hpart => rw [drain_whole hframes hpart]
  | failed hbad hnone _ _ =>
      obtain ⟨error, herror⟩ := drain_malformed hbad
      rw [hnone, herror]

theorem Progress.prefix_delivered {c : DataHandler} (h : Progress parse stream c)
    {messages : List Json} {bytes rest : Bytes} (hstream : stream = bytes ++ rest)
    (hframes : Frames parse messages bytes) : messages <+: c.delivered := by
  cases h with
  | reading hread hpart =>
      have hdrain := drain_whole hread hpart
      rw [hstream, drain_frames hframes] at hdrain
      cases hrest : (drain parse rest).1 with
      | ok later =>
          rw [hrest] at hdrain
          exact ⟨later, Except.ok.inj (congrArg Prod.fst hdrain)⟩
      | error error =>
          rw [hrest] at hdrain
          cases congrArg Prod.fst hdrain
  | failed hbad _ _ _ =>
      rw [hframes.eq_nil (hstream ▸ hbad)]
      exact List.nil_prefix

theorem Progress.thrown_eq {c : DataHandler} (h : Progress parse stream c) : c.thrown = false := by
  cases h with
  | reading _ _ => rfl
  | failed _ _ _ hthrown => exact hthrown

-- However a stream is cut, the same messages are delivered, among them all those that come before
-- the first malformed frame, and nothing is thrown.
structure Faithful (parse : Bytes → Option Json) (stream : Bytes) : Prop where
  chunking : ∀ chunks chunks' : List Bytes, chunks.flatten = stream → chunks'.flatten = stream →
    (run parse chunks).delivered = (run parse chunks').delivered
  delivers : ∀ (chunks : List Bytes) (messages : List Json) (bytes rest : Bytes),
    chunks.flatten = stream → stream = bytes ++ rest → Frames parse messages bytes →
      messages <+: (run parse chunks).delivered
  total : ∀ chunks : List Bytes, chunks.flatten = stream → (run parse chunks).thrown = false

theorem Sound.faithful (h : Sound parse stream) : Faithful parse stream := by
  have hprogress : ∀ chunks : List Bytes, chunks.flatten = stream →
      Progress parse stream (run parse chunks) := by
    rintro chunks rfl
    exact run_progress chunks h
  refine ⟨fun chunks chunks' hc hc' => ?_, fun chunks messages bytes rest hc hstream hframes => ?_,
    fun chunks hc => (hprogress chunks hc).thrown_eq⟩
  · rw [(hprogress chunks hc).delivered_eq, (hprogress chunks' hc').delivered_eq]
  · exact (hprogress chunks hc).prefix_delivered hstream hframes

-- All of the stream in one chunk.
theorem run_whole {messages : List Json} {bytes rest : Bytes} (hframes : Frames parse messages bytes)
    (hpart : Incomplete 4 MAX_FRAME_LEN rest) :
    run parse [bytes ++ rest] = deliver { parser := { buffer := rest } } messages := by
  simp only [run, List.foldl_cons, List.foldl_nil, onData, FrameParser.push, List.nil_append,
    drain_whole hframes hpart, Bool.false_eq_true, or_self, if_false]

theorem run_malformed {messages : List Json} {bytes rest : Bytes}
    (hframes : Frames parse messages bytes) (hbad : Malformed 4 MAX_FRAME_LEN parse rest) :
    (run parse [bytes ++ rest]).delivered = [] := by
  obtain ⟨error, herror⟩ := drain_malformed hbad
  simp [run, onData, FrameParser.push, drain_frames hframes, herror, Except.map]

theorem Faithful.sound (h : Faithful parse stream) : Sound parse stream where
  first messages bytes rest hstream hframes hbad := by
    have hpre := h.delivers [stream] messages bytes rest List.flatten_singleton hstream hframes
    rw [hstream, run_malformed hframes hbad] at hpre
    exact List.prefix_nil.mp hpre
  harmless messages bytes rest hstream hframes message hmem hthrows := by
    obtain ⟨later, added, last, rfl, hadded, hend⟩ := exists_frames parse rest
    have hall := hframes.append hadded
    rw [← List.append_assoc] at hstream
    rcases hend with hpart | hbad
    · have hthrown := h.total [stream] List.flatten_singleton
      rw [hstream, run_whole hall hpart,
        deliver_throws (List.mem_append_left _ hmem) hthrows] at hthrown
      cases hthrown
    · have hpre := h.delivers [stream] _ _ _ List.flatten_singleton hstream hall
      rw [hstream, run_malformed hall hbad] at hpre
      obtain ⟨rfl, -⟩ := List.append_eq_nil_iff.mp (List.prefix_nil.mp hpre)
      cases hmem

theorem faithful_iff (parse : Bytes → Option Json) (stream : Bytes) :
    Faithful parse stream ↔ Sound parse stream := ⟨Faithful.sound, Sound.faithful⟩

-- JSON.parse on the texts of an empty object and of null, which is not an object.
def emptyText : Bytes := "{}".toUTF8.data.toList
def nullText : Bytes := "null".toUTF8.data.toList

def parseSample (payload : Bytes) : Option Json :=
  if payload = emptyText then some (.object [])
  else if payload = nullText then some .null
  else none

theorem frames_empty : Frames parseSample [.object []] (frame 4 emptyText) := by
  have hframe : IsFrame 4 MAX_FRAME_LEN (frame 4 emptyText) emptyText :=
    ⟨⟨[0, 0, 0, 2], rfl, rfl, rfl⟩, by decide, by decide⟩
  have h : Frames parseSample [.object []] (frame 4 emptyText ++ []) := .cons hframe rfl .nil
  rwa [List.append_nil] at h

theorem frames_null : Frames parseSample [.null] (frame 4 nullText) := by
  have hframe : IsFrame 4 MAX_FRAME_LEN (frame 4 nullText) nullText :=
    ⟨⟨[0, 0, 0, 4], rfl, rfl, rfl⟩, by decide, by decide⟩
  have h : Frames parseSample [.null] (frame 4 nullText ++ []) := .cons hframe rfl .nil
  rwa [List.append_nil] at h

-- A frame is lost if it comes in one chunk with a malformed one, and null throws.
theorem faithful_fails :
    (run parseSample [frame 4 emptyText ++ [0, 0, 0, 0]]).delivered = [] ∧
    (run parseSample [frame 4 emptyText, [0, 0, 0, 0]]).delivered = [.object []] ∧
    (run parseSample [frame 4 nullText]).thrown = true ∧
    ¬ ∀ parse stream, Faithful parse stream := by
  have hbad : Malformed 4 MAX_FRAME_LEN parseSample ([0, 0, 0, 0] ++ []) := .empty rfl rfl
  rw [List.append_nil] at hbad
  have hnothing : Incomplete 4 MAX_FRAME_LEN [] := .header (by decide)
  have hlost := run_malformed frames_empty hbad
  refine ⟨hlost, ?_, ?_, fun h => ?_⟩
  · have hfirst := run_whole frames_empty hnothing
    rw [List.append_nil] at hfirst
    obtain ⟨error, herror⟩ := drain_malformed hbad
    change (run parseSample ([frame 4 emptyText] ++ [[0, 0, 0, 0]])).delivered = _
    rw [run_append, hfirst]
    simp [deliver, dispatch, property, isString, onData, FrameParser.push, herror]
  · have hrun := run_whole frames_null hnothing
    rw [List.append_nil] at hrun
    rw [hrun]
    rfl
  · have hpre := (h parseSample _).delivers [frame 4 emptyText ++ [0, 0, 0, 0]] _ _ _
      List.flatten_singleton rfl frames_empty
    rw [hlost] at hpre
    cases List.prefix_nil.mp hpre

end Run

end Rrq.Runtime.TypeScript
