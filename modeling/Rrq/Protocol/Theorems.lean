import Rrq.Protocol

-- What is written is read back, message by message and frame by frame.

namespace Rrq.Protocol

open Framing

-- A value that is null is read as no value.
def dropNull : Option Json → Option Json
  | some .null => none
  | value => value

def ExecutionError.normal (e : ExecutionError) : ExecutionError :=
  { e with details := dropNull e.details }

def ExecutionOutcome.normal (o : ExecutionOutcome) : ExecutionOutcome :=
  { o with result := dropNull o.result, error := o.error.map ExecutionError.normal }

def RunnerMessage.normal : RunnerMessage → RunnerMessage
  | Response payload => Response payload.normal
  | message => message

section Fields

variable {α : Type} {w : α → Json} {read : Json → Option α}

theorem lookup_entry (name key : String) (value : Json) (members : List (String × Json)) :
    ((name, value) :: members).lookup key =
      if key = name then some value else members.lookup key := by
  by_cases hk : key = name
  · simp [hk]
  · rw [List.lookup_cons, if_neg hk, beq_eq_false_iff_ne.mpr hk]

theorem lookup_first (name : String) (value : Json) (members : List (String × Json)) :
    ((name, value) :: members).lookup name = some value := by
  rw [lookup_entry, if_pos rfl]

theorem lookup_skipNone (name key : String) (value : Option α) :
    (skipNone name w value).lookup key = if key = name then value.map w else none := by
  cases value with
  | none => simp [skipNone]
  | some value =>
      by_cases hk : key = name
      · simp [skipNone, hk]
      · simp [skipNone, hk]

-- What a field is read as, given what is found under its name.

theorem field_lookup {name : String} {members : List (String × Json)} {value : α} {v : Json}
    (h : members.lookup name = some v) (hread : read v = some value) :
    field read name members = some value := by
  unfold field
  rw [h]
  exact hread

theorem defaulted_lookup {name : String} {members : List (String × Json)} {default value : α}
    {v : Json} (h : members.lookup name = some v) (hread : read v = some value) :
    defaulted read default name members = some value := by
  unfold defaulted
  rw [h]
  exact hread

theorem optional_map {name : String} {members : List (String × Json)} {value : Option α}
    (h : members.lookup name = value.map w) (hnull : ∀ value, w value ≠ .null)
    (hread : ∀ found, value = some found → read (w found) = some found) :
    optional read name members = some value := by
  unfold optional
  rw [h]
  cases value with
  | none => rfl
  | some value =>
      rw [Option.map_some]
      split
      · rename_i heq
        cases heq
      · rename_i heq
        exact absurd (Option.some.inj heq) (hnull value)
      · rename_i found _ heq
        rw [← Option.some.inj heq, hread value rfl]
        rfl

-- A value of any kind may be null.
theorem optional_json {name : String} {members : List (String × Json)} {value : Option Json}
    (h : members.lookup name = value) : optional some name members = some (dropNull value) := by
  unfold optional
  rw [h]
  cases value with
  | none => rfl
  | some value =>
      cases value
      all_goals rfl

theorem optional_nullable {name : String} {members : List (String × Json)} {value : Option α}
    (h : members.lookup name = some (nullable w value)) (hnull : ∀ value, w value ≠ .null)
    (hread : ∀ found, value = some found → read (w found) = some found) :
    optional read name members = some value := by
  cases value with
  | none =>
      unfold optional
      rw [h]
      rfl
  | some value =>
      have hsome : members.lookup name = (some value).map w := h
      exact optional_map hsome hnull hread

end Fields

section Types

variable {serde : Serde}

theorem asU32_toNat (n : UInt32) : asU32 (.number (.integer n.toNat)) = some n := by
  have hlt := n.toNat_lt
  have hcond : 0 ≤ (n.toNat : Int) ∧ (n.toNat : Int) < 2 ^ 32 := by omega
  simp only [asU32]
  rw [if_pos hcond, Int.toNat_natCast, UInt32.ofNat_toNat]

theorem asContext_contextJson (context : Context) :
    asContext (contextJson context) = some context := by
  show (context.map fun entry => (entry.1, Json.string entry.2)).mapM _ = some context
  induction context with
  | nil => rfl
  | cons entry context ih =>
      rw [List.map_cons, List.mapM_cons, ih]
      rfl

theorem asStatus_statusJson (status : OutcomeStatus) :
    asStatus (statusJson status) = some status := by
  cases status
  all_goals rfl

-- The times that a message speaks of.
def ExecutionRequest.times (r : ExecutionRequest) : List DateTime :=
  r.context.enqueueTime :: r.context.deadline.toList

-- A struct whose fields are all read.

theorem ExecutionContext.ofJson_fields {value : Json} {members : List (String × Json)}
    {c : ExecutionContext} (hobject : asObject value = some members)
    (hjob : field asString "job_id" members = some c.jobId)
    (hattempt : field asU32 "attempt" members = some c.attempt)
    (henqueueTime : field (asTime serde) "enqueue_time" members = some c.enqueueTime)
    (hqueue : field asString "queue_name" members = some c.queueName)
    (hdeadline : optional (asTime serde) "deadline" members = some c.deadline)
    (htrace : optional asContext "trace_context" members = some c.traceContext)
    (hcorrelation : optional asContext "correlation_context" members = some c.correlationContext)
    (hworker : optional asString "worker_id" members = some c.workerId) :
    ExecutionContext.ofJson serde value = some c := by
  simp only [ExecutionContext.ofJson, hobject, hjob, hattempt, henqueueTime, hqueue, hdeadline,
    htrace, hcorrelation, hworker, Option.bind_eq_bind, Option.bind_some, Option.pure_def]

theorem ExecutionRequest.ofJson_fields {value : Json} {members : List (String × Json)}
    {r : ExecutionRequest} (hobject : asObject value = some members)
    (hversion : defaulted asString PROTOCOL_VERSION "protocol_version" members =
      some r.protocolVersion)
    (hrequest : field asString "request_id" members = some r.requestId)
    (hjob : field asString "job_id" members = some r.jobId)
    (hfunction : field asString "function_name" members = some r.functionName)
    (hparams : defaulted asObject [] "params" members = some r.params)
    (hcontext : field (ExecutionContext.ofJson serde) "context" members = some r.context) :
    ExecutionRequest.ofJson serde value = some r := by
  simp only [ExecutionRequest.ofJson, hobject, hversion, hrequest, hjob, hfunction, hparams,
    hcontext, Option.bind_eq_bind, Option.bind_some, Option.pure_def]

theorem ExecutionContext.ofJson_toJson {c : ExecutionContext}
    (henqueue : serde.time.Inverts c.enqueueTime)
    (hdeadline : ∀ time, c.deadline = some time → serde.time.Inverts time) :
    ExecutionContext.ofJson serde (c.toJson serde) = some c := by
  let members : List (String × Json) := [("job_id", .string c.jobId),
    ("attempt", .number (.integer c.attempt.toNat)),
    ("enqueue_time", timeJson serde c.enqueueTime),
    ("queue_name", .string c.queueName),
    ("deadline", nullable (timeJson serde) c.deadline),
    ("trace_context", nullable contextJson c.traceContext),
    ("correlation_context", nullable contextJson c.correlationContext),
    ("worker_id", nullable .string c.workerId)]
  have hjob : field asString "job_id" members = some c.jobId := by
    apply field_lookup (v := .string c.jobId)
    · exact lookup_first _ _ _
    · rfl
  have hattempt : field asU32 "attempt" members = some c.attempt := by
    apply field_lookup (v := .number (.integer c.attempt.toNat))
    · simp [members, lookup_entry]
    · exact asU32_toNat c.attempt
  have henqueueTime : field (asTime serde) "enqueue_time" members = some c.enqueueTime := by
    apply field_lookup (v := timeJson serde c.enqueueTime)
    · simp [members, lookup_entry]
    · exact henqueue
  have hqueue : field asString "queue_name" members = some c.queueName := by
    apply field_lookup (v := .string c.queueName)
    · simp [members, lookup_entry]
    · rfl
  have hdeadline : optional (asTime serde) "deadline" members = some c.deadline := by
    apply optional_nullable (w := timeJson serde)
    · simp [members, lookup_entry]
    · simp [timeJson]
    · exact hdeadline
  have htrace : optional asContext "trace_context" members = some c.traceContext := by
    apply optional_nullable (w := contextJson)
    · simp [members, lookup_entry]
    · simp [contextJson]
    · exact fun context _ => asContext_contextJson context
  have hcorrelation : optional asContext "correlation_context" members =
      some c.correlationContext := by
    apply optional_nullable (w := contextJson)
    · simp [members, lookup_entry]
    · simp [contextJson]
    · exact fun context _ => asContext_contextJson context
  have hworker : optional asString "worker_id" members = some c.workerId := by
    apply optional_nullable (w := .string)
    · simp [members, lookup_entry]
    · simp
    · exact fun _ _ => rfl
  exact ofJson_fields rfl hjob hattempt henqueueTime hqueue hdeadline htrace hcorrelation hworker

theorem ExecutionRequest.ofJson_toJson {r : ExecutionRequest}
    (htimes : ∀ time ∈ r.times, serde.time.Inverts time) :
    ExecutionRequest.ofJson serde (r.toJson serde) = some r := by
  have hcontext : ExecutionContext.ofJson serde (r.context.toJson serde) = some r.context := by
    apply ExecutionContext.ofJson_toJson
    · exact htimes _ List.mem_cons_self
    · intro time h
      apply htimes
      rw [times, h]
      simp
  let members : List (String × Json) := [("protocol_version", .string r.protocolVersion),
    ("request_id", .string r.requestId),
    ("job_id", .string r.jobId),
    ("function_name", .string r.functionName),
    ("params", .object r.params),
    ("context", r.context.toJson serde)]
  have hversion : defaulted asString PROTOCOL_VERSION "protocol_version" members =
      some r.protocolVersion := by
    apply defaulted_lookup (v := .string r.protocolVersion)
    · exact lookup_first _ _ _
    · rfl
  have hrequest : field asString "request_id" members = some r.requestId := by
    apply field_lookup (v := .string r.requestId)
    · simp [members, lookup_entry]
    · rfl
  have hjob : field asString "job_id" members = some r.jobId := by
    apply field_lookup (v := .string r.jobId)
    · simp [members, lookup_entry]
    · rfl
  have hfunction : field asString "function_name" members = some r.functionName := by
    apply field_lookup (v := .string r.functionName)
    · simp [members, lookup_entry]
    · rfl
  have hparams : defaulted asObject [] "params" members = some r.params := by
    apply defaulted_lookup (v := .object r.params)
    · simp [members, lookup_entry]
    · rfl
  have hfield : field (ExecutionContext.ofJson serde) "context" members = some r.context := by
    apply field_lookup (v := r.context.toJson serde)
    · simp [members, lookup_entry]
    · exact hcontext
  exact ofJson_fields rfl hversion hrequest hjob hfunction hparams hfield

theorem ExecutionError.ofJson_toJson (e : ExecutionError) :
    ExecutionError.ofJson e.toJson = some e.normal := by
  let members : List (String × Json) := ("message", .string e.message) ::
    (skipNone "type" .string e.errorType ++ skipNone "code" .string e.code ++
      skipNone "details" id e.details)
  have hmessage : field asString "message" members = some e.message := by
    apply field_lookup (v := .string e.message)
    · exact lookup_first _ _ _
    · rfl
  have htype : optional asString "type" members = some e.errorType := by
    apply optional_map (w := .string)
    · simp [members, lookup_entry, List.lookup_append, lookup_skipNone]
    · simp
    · exact fun _ _ => rfl
  have hcode : optional asString "code" members = some e.code := by
    apply optional_map (w := .string)
    · simp [members, lookup_entry, List.lookup_append, lookup_skipNone]
    · simp
    · exact fun _ _ => rfl
  have hdetails : optional some "details" members = some (dropNull e.details) := by
    apply optional_json
    simp [members, lookup_entry, List.lookup_append, lookup_skipNone]
  have hobject : asObject (e.toJson) = some members := rfl
  generalize e.toJson = value at hobject ⊢
  clear_value members
  simp only [ExecutionError.ofJson, hobject, hmessage, htype, hcode, hdetails,
    Option.bind_eq_bind, Option.bind_some, Option.pure_def]
  rfl

theorem ExecutionOutcome.ofJson_toJson (o : ExecutionOutcome) :
    ExecutionOutcome.ofJson o.toJson = some o.normal := by
  let members : List (String × Json) :=
    skipNone "job_id" .string o.jobId ++ skipNone "request_id" .string o.requestId ++
      [("status", statusJson o.status)] ++ skipNone "result" id o.result ++
      skipNone "error" ExecutionError.toJson o.error ++
      skipNone "retry_after_seconds" floatJson o.retryAfterSeconds
  have hjob : optional asString "job_id" members = some o.jobId := by
    apply optional_map (w := .string)
    · simp [members, lookup_entry, List.lookup_append, lookup_skipNone]
    · simp
    · exact fun _ _ => rfl
  have hrequest : optional asString "request_id" members = some o.requestId := by
    apply optional_map (w := .string)
    · simp [members, lookup_entry, List.lookup_append, lookup_skipNone]
    · simp
    · exact fun _ _ => rfl
  have hstatus : field asStatus "status" members = some o.status := by
    apply field_lookup (v := statusJson o.status)
    · simp [members, List.lookup_append, lookup_skipNone]
    · exact asStatus_statusJson o.status
  have hresult : optional some "result" members = some (dropNull o.result) := by
    apply optional_json
    simp [members, lookup_entry, List.lookup_append, lookup_skipNone]
  have herror : optional ExecutionError.ofJson "error" members =
      some (o.error.map ExecutionError.normal) := by
    have hlookup : members.lookup "error" = o.error.map ExecutionError.toJson := by
      simp [members, lookup_entry, List.lookup_append, lookup_skipNone]
    unfold optional
    rw [hlookup]
    cases o.error with
    | none => rfl
    | some error =>
        have hread := ExecutionError.ofJson_toJson error
        show (ExecutionError.ofJson error.toJson).map some = _
        rw [hread]
        rfl
  have hretry : optional asF64 "retry_after_seconds" members = some o.retryAfterSeconds := by
    apply optional_map (w := floatJson)
    · simp [members, lookup_entry, List.lookup_append, lookup_skipNone]
    · simp [floatJson]
    · exact fun _ _ => rfl
  have hobject : asObject (o.toJson) = some members := rfl
  generalize o.toJson = value at hobject ⊢
  clear_value members
  simp only [ExecutionOutcome.ofJson, hobject, hjob, hrequest, hstatus, hresult, herror, hretry,
    Option.bind_eq_bind, Option.bind_some, Option.pure_def]
  rfl

theorem CancelRequest.ofJson_toJson (c : CancelRequest) :
    CancelRequest.ofJson c.toJson = some c := by
  let members : List (String × Json) :=
    [("protocol_version", .string c.protocolVersion), ("job_id", .string c.jobId)] ++
      skipNone "request_id" .string c.requestId ++ [("hard_kill", .bool c.hardKill)]
  have hrequest : optional asString "request_id" members = some c.requestId := by
    apply optional_map (w := .string)
    · simp [members, lookup_entry, List.lookup_append, lookup_skipNone]
    · simp
    · exact fun _ _ => rfl
  have hversion : defaulted asString PROTOCOL_VERSION "protocol_version" members =
      some c.protocolVersion := by
    apply defaulted_lookup (v := .string c.protocolVersion)
    · simp [members]
    · rfl
  have hjob : field asString "job_id" members = some c.jobId := by
    apply field_lookup (v := .string c.jobId)
    · simp [members, lookup_entry]
    · rfl
  have hkill : defaulted asBool false "hard_kill" members = some c.hardKill := by
    apply defaulted_lookup (v := .bool c.hardKill)
    · simp [members, lookup_entry, List.lookup_append, lookup_skipNone]
    · rfl
  have hobject : asObject (c.toJson) = some members := rfl
  generalize c.toJson = value at hobject ⊢
  clear_value members
  simp only [CancelRequest.ofJson, hobject, hversion, hjob, hrequest, hkill,
    Option.bind_eq_bind, Option.bind_some, Option.pure_def]

theorem field_type (kind : String) (payload : Json) :
    field asString "type" [("type", .string kind), ("payload", payload)] = some kind := by
  apply field_lookup (v := .string kind)
  · exact lookup_first _ _ _
  · rfl

theorem field_payload {α : Type} {read : Json → Option α} (kind : String) {payload : Json}
    {value : α} (h : read payload = some value) :
    field read "payload" [("type", .string kind), ("payload", payload)] = some value := by
  apply field_lookup (v := payload)
  · simp [lookup_entry]
  · exact h

-- The times that a message speaks of.
def RunnerMessage.times : RunnerMessage → List DateTime
  | Request payload => payload.times
  | _ => []

-- An envelope whose payload is read.

section Envelope

variable {value payload : Json}

theorem ofJson_request {r : ExecutionRequest}
    (h : value = .object [("type", .string "request"), ("payload", payload)])
    (hpayload : ExecutionRequest.ofJson serde payload = some r) :
    RunnerMessage.ofJson serde value = some (.Request r) := by
  have hread := field_payload "request" hpayload
  simp [RunnerMessage.ofJson, h, asObject, field_type, hread]

theorem ofJson_response {o : ExecutionOutcome}
    (h : value = .object [("type", .string "response"), ("payload", payload)])
    (hpayload : ExecutionOutcome.ofJson payload = some o) :
    RunnerMessage.ofJson serde value = some (.Response o) := by
  have hread := field_payload "response" hpayload
  simp [RunnerMessage.ofJson, h, asObject, field_type, hread]

theorem ofJson_cancel {c : CancelRequest}
    (h : value = .object [("type", .string "cancel"), ("payload", payload)])
    (hpayload : CancelRequest.ofJson payload = some c) :
    RunnerMessage.ofJson serde value = some (.Cancel c) := by
  have hread := field_payload "cancel" hpayload
  simp [RunnerMessage.ofJson, h, asObject, field_type, hread]

end Envelope

theorem RunnerMessage.ofJson_toJson {message : RunnerMessage}
    (htimes : ∀ time ∈ message.times, serde.time.Inverts time) :
    RunnerMessage.ofJson serde (message.toJson serde) = some message.normal := by
  cases message with
  | Request payload => exact ofJson_request rfl (ExecutionRequest.ofJson_toJson htimes)
  | Response payload => exact ofJson_response rfl (ExecutionOutcome.ofJson_toJson payload)
  | Cancel payload => exact ofJson_cancel rfl (CancelRequest.ofJson_toJson payload)

end Types

section Floats

variable (f : ℚ → ℚ) {serde : Serde}

-- A message with other floats in the place of its own.

def ExecutionRequest.mapFloats (r : ExecutionRequest) : ExecutionRequest :=
  { r with params := Json.mapMembers f r.params }

def ExecutionError.mapFloats (e : ExecutionError) : ExecutionError :=
  { e with details := e.details.map (Json.mapFloats f) }

def ExecutionOutcome.mapFloats (o : ExecutionOutcome) : ExecutionOutcome :=
  { o with
    result := o.result.map (Json.mapFloats f)
    error := o.error.map (ExecutionError.mapFloats f)
    retryAfterSeconds := o.retryAfterSeconds.map f }

def RunnerMessage.mapFloats : RunnerMessage → RunnerMessage
  | Request payload => Request (payload.mapFloats f)
  | Response payload => Response (payload.mapFloats f)
  | Cancel payload => Cancel payload

-- The floats of a message.

def ExecutionError.floats (e : ExecutionError) : List ℚ := e.details.toList.flatMap Json.floats

def ExecutionOutcome.floats (o : ExecutionOutcome) : List ℚ :=
  o.result.toList.flatMap Json.floats ++ o.error.toList.flatMap ExecutionError.floats ++
    o.retryAfterSeconds.toList

def RunnerMessage.floats : RunnerMessage → List ℚ
  | Request payload => Json.floatsOfMembers payload.params
  | Response payload => payload.floats
  | Cancel _ => []

theorem mapFloats_nullable {α : Type} {w : α → Json} (h : ∀ value, (w value).mapFloats f = w value)
    (value : Option α) : (nullable w value).mapFloats f = nullable w value := by
  cases value with
  | none => rfl
  | some value => exact h value

theorem mapMembers_skipNone {α β : Type} {w : α → Json} {v : β → Json} {g : α → β}
    (h : ∀ value, (w value).mapFloats f = v (g value)) (name : String) (value : Option α) :
    Json.mapMembers f (skipNone name w value) = skipNone name v (value.map g) := by
  cases value with
  | none => rfl
  | some value => simp [skipNone, Json.mapMembers, h]

theorem mapMembers_strings {name : String} (value : Option String) :
    Json.mapMembers f (skipNone name .string value) = skipNone name .string value := by
  have h := mapMembers_skipNone (w := .string) (v := .string) (g := id) f (fun _ => rfl) name value
  rwa [Option.map_id] at h

theorem mapFloats_contextJson (context : Context) :
    (contextJson context).mapFloats f = contextJson context := by
  rw [Json.mapFloats_eq_self]
  show ∀ x ∈ Json.floatsOfMembers (context.map _), f x = x
  induction context with
  | nil => simp [Json.floatsOfMembers]
  | cons entry context ih => simpa [Json.floatsOfMembers, Json.floats] using ih

theorem ExecutionContext.mapFloats_toJson (c : ExecutionContext) :
    (c.toJson serde).mapFloats f = c.toJson serde := by
  have htime : ∀ value, (timeJson serde value).mapFloats f = timeJson serde value := fun _ => rfl
  have hstring : ∀ value, (Json.string value).mapFloats f = .string value := fun _ => rfl
  simp [toJson, Json.mapFloats, Json.mapMembers, Number.mapFloat, htime,
    mapFloats_nullable f htime, mapFloats_nullable f hstring,
    mapFloats_nullable f (mapFloats_contextJson f)]

theorem ExecutionError.toJson_mapFloats (e : ExecutionError) :
    e.toJson.mapFloats f = (e.mapFloats f).toJson := by
  have hdetails := mapMembers_skipNone (w := id) (v := id) (g := Json.mapFloats f) f
    (fun _ => rfl) "details" e.details
  simp [toJson, mapFloats, Json.mapFloats, Json.mapMembers, Json.mapMembers_append,
    mapMembers_strings, hdetails]

theorem ExecutionOutcome.toJson_mapFloats (o : ExecutionOutcome) :
    o.toJson.mapFloats f = (o.mapFloats f).toJson := by
  have hstatus : (statusJson o.status).mapFloats f = statusJson o.status := by
    cases o.status <;> rfl
  have hresult := mapMembers_skipNone (w := id) (v := id) (g := Json.mapFloats f) f
    (fun _ => rfl) "result" o.result
  have herror := mapMembers_skipNone f (ExecutionError.toJson_mapFloats f) "error" o.error
  have hretry := mapMembers_skipNone (w := floatJson) (v := floatJson) (g := f) f
    (fun _ => rfl) "retry_after_seconds" o.retryAfterSeconds
  simp [toJson, mapFloats, Json.mapFloats, Json.mapMembers, Json.mapMembers_append,
    mapMembers_strings, hstatus, hresult, herror, hretry]

theorem RunnerMessage.toJson_mapFloats (message : RunnerMessage) :
    (message.toJson serde).mapFloats f = (message.mapFloats f).toJson serde := by
  cases message with
  | Request payload =>
      simp [toJson, mapFloats, Json.mapFloats, Json.mapMembers, ExecutionRequest.toJson,
        ExecutionRequest.mapFloats, ExecutionContext.mapFloats_toJson]
  | Response payload =>
      simp [toJson, mapFloats, Json.mapFloats, Json.mapMembers, ExecutionOutcome.toJson_mapFloats]
  | Cancel payload =>
      simp [toJson, mapFloats, Json.mapFloats, Json.mapMembers, CancelRequest.toJson,
        Json.mapMembers_append, mapMembers_strings]

theorem RunnerMessage.times_mapFloats (message : RunnerMessage) :
    (message.mapFloats f).times = message.times := by
  cases message with
  | Request payload => rfl
  | Response payload => rfl
  | Cancel payload => rfl

-- A message stays the same exactly when its floats do.

theorem dropNull_map_iff (value : Option Json) :
    dropNull (value.map (Json.mapFloats f)) = dropNull value ↔
      ∀ x ∈ value.toList.flatMap Json.floats, f x = x := by
  cases value with
  | none => simp [dropNull]
  | some value =>
      have hself := Json.mapFloats_eq_self f value
      cases value with
      | null | bool _ | string _ => simp [dropNull, Json.mapFloats, Json.floats]
      | _ => simpa [dropNull, Json.mapFloats, Json.floats] using hself

theorem ExecutionError.normal_mapFloats_iff (e : ExecutionError) :
    (e.mapFloats f).normal = e.normal ↔ ∀ x ∈ e.floats, f x = x := by
  rw [floats, ← dropNull_map_iff]
  simp [normal, mapFloats]

theorem ExecutionOutcome.normal_mapFloats_iff (o : ExecutionOutcome) :
    (o.mapFloats f).normal = o.normal ↔ ∀ x ∈ o.floats, f x = x := by
  have herror : (o.error.map (ExecutionError.mapFloats f)).map ExecutionError.normal =
      o.error.map ExecutionError.normal ↔
        ∀ x ∈ o.error.toList.flatMap ExecutionError.floats, f x = x := by
    cases o.error with
    | none => simp
    | some error => simpa using ExecutionError.normal_mapFloats_iff f error
  have hretry : o.retryAfterSeconds.map f = o.retryAfterSeconds ↔
      ∀ x ∈ o.retryAfterSeconds.toList, f x = x := by
    cases o.retryAfterSeconds with
    | none => simp
    | some value => simp
  have hfields : (o.mapFloats f).normal = o.normal ↔
      dropNull (o.result.map (Json.mapFloats f)) = dropNull o.result ∧
        (o.error.map (ExecutionError.mapFloats f)).map ExecutionError.normal =
          o.error.map ExecutionError.normal ∧ o.retryAfterSeconds.map f = o.retryAfterSeconds := by
    simp [normal, mapFloats]
  rw [hfields, dropNull_map_iff, herror, hretry]
  simp only [floats, List.mem_append, or_imp, forall_and, and_assoc]

theorem RunnerMessage.normal_mapFloats_iff (message : RunnerMessage) :
    (message.mapFloats f).normal = message.normal ↔ ∀ x ∈ message.floats, f x = x := by
  cases message with
  | Request payload =>
      rw [floats, ← Json.mapMembers_eq_self]
      constructor
      · intro h
        exact congrArg ExecutionRequest.params (RunnerMessage.Request.inj h)
      · intro h
        simp only [mapFloats, ExecutionRequest.mapFloats, h]
  | Response payload =>
      rw [floats, ← ExecutionOutcome.normal_mapFloats_iff]
      exact ⟨RunnerMessage.Response.inj, congrArg RunnerMessage.Response⟩
  | Cancel payload => simp [mapFloats, floats]

end Floats

section Frames

variable {serde : Serde}

-- What is assumed of the libraries: they read back what they write of a message.
structure Serde.Inverts (serde : Serde) (message : RunnerMessage) : Prop where
  times : ∀ time ∈ message.times, serde.time.Inverts time
  text : serde.read (payload serde message) = some (message.toJson serde)

theorem fromSlice_payload {message : RunnerMessage} (h : serde.Inverts message) :
    fromSlice serde (payload serde message) = some message.normal := by
  unfold fromSlice
  rw [h.text]
  exact RunnerMessage.ofJson_toJson h.times

-- The next payload is read if it is not too large and holds a message.
theorem readMessage_frame {bytes : Bytes} (hwidth : bytes.length < 2 ^ 32) {chunks : List Bytes}
    {tail : Bytes} (hchunks : chunks.flatten = frame FRAME_HEADER_LEN bytes ++ tail) :
    ∃ rest, (∀ message, bytes.length ≤ MAX_FRAME_LEN → fromSlice serde bytes = some message →
        readMessage serde chunks = (.ok (some message), rest)) ∧
      (∀ message, (readMessage serde chunks).1 = .ok (some message) →
        bytes.length ≤ MAX_FRAME_LEN ∧ fromSlice serde bytes = some message) ∧
      rest.flatten = tail := by
  obtain ⟨rest, hread, hlarge, hempty, hrest⟩ := readFrame_append MAX_FRAME_LEN hwidth hchunks
  have hfault : ∀ {fault}, (readFrame FRAME_HEADER_LEN MAX_FRAME_LEN chunks).1 = .error fault →
      (readMessage serde chunks).1 = .error (.frame fault) := by
    intro fault herror
    unfold readMessage
    cases hframe : readFrame FRAME_HEADER_LEN MAX_FRAME_LEN chunks with
    | mk answer rest =>
        rw [hframe] at herror
        obtain rfl : answer = _ := herror
        rfl
  refine ⟨rest, fun message hle hslice => ?_, fun message h => ?_, hrest⟩
  · have hne : bytes ≠ [] := by
      rintro rfl
      rw [fromSlice, serde.read_nil] at hslice
      cases hslice
    unfold readMessage
    rw [hread hle hne]
    dsimp only
    rw [hslice]
  · have hle : bytes.length ≤ MAX_FRAME_LEN := by
      by_contra hlt
      rw [hfault (hlarge (Nat.lt_of_not_le hlt))] at h
      cases h
    have hne : bytes ≠ [] := by
      intro hnil
      rw [hfault (hempty hnil)] at h
      cases h
    refine ⟨hle, ?_⟩
    unfold readMessage at h
    rw [hread hle hne] at h
    dsimp only at h
    split at h
    next found hslice => rw [hslice, Option.some.inj (Except.ok.inj h)]
    next hslice => cases h

theorem readMessage_end {chunks : List Bytes} (h : chunks.flatten = []) :
    (readMessage serde chunks).1 = .ok none := by
  have hend := readFrame_end MAX_FRAME_LEN (show 0 < FRAME_HEADER_LEN by decide) h
  unfold readMessage
  cases hframe : readFrame FRAME_HEADER_LEN MAX_FRAME_LEN chunks with
  | mk answer rest =>
      rw [hframe] at hend
      obtain rfl : answer = _ := hend
      rfl

theorem encodeFrame_of_lt {message : RunnerMessage}
    (h : (payload serde message).length < 2 ^ 32) :
    encodeFrame serde message = .ok (frame FRAME_HEADER_LEN (payload serde message)) := if_pos h

theorem decodeFrame_frame {message : RunnerMessage} (h : serde.Inverts message)
    (hwidth : (payload serde message).length < 2 ^ 32) :
    decodeFrame serde (frame FRAME_HEADER_LEN (payload serde message)) = .ok message.normal := by
  have hheader : (toBeBytes FRAME_HEADER_LEN (payload serde message).length).length =
      FRAME_HEADER_LEN := length_toBeBytes _ _
  have hlength : (frame FRAME_HEADER_LEN (payload serde message)).length =
      FRAME_HEADER_LEN + (payload serde message).length := by
    unfold frame
    rw [List.length_append, hheader]
  have htake : (frame FRAME_HEADER_LEN (payload serde message)).take FRAME_HEADER_LEN =
      toBeBytes FRAME_HEADER_LEN (payload serde message).length := by
    unfold frame
    rw [List.take_append_of_le_length hheader.ge, List.take_of_length_le hheader.le]
  have hdrop : (frame FRAME_HEADER_LEN (payload serde message)).drop FRAME_HEADER_LEN =
      payload serde message := by
    unfold frame
    rw [List.drop_left' hheader]
  unfold decodeFrame
  rw [if_neg (by omega), htake, hdrop, ofBeBytes_toBeBytes hwidth]
  rw [if_neg (by omega), fromSlice_payload h]

theorem mapM_ok {α β ε : Type} {f : α → Except ε β} {g : α → β} {values : List α}
    (h : ∀ value ∈ values, f value = .ok (g value)) : values.mapM f = .ok (values.map g) := by
  induction values with
  | nil => rfl
  | cons value values ih =>
      rw [List.mapM_cons, h value List.mem_cons_self,
        ih fun other ho => h other (List.mem_cons_of_mem _ ho)]
      rfl

-- A stream of frames is read as the messages that were written, one after the other.
theorem readsAs_frames {messages : List RunnerMessage}
    (hserde : ∀ message ∈ messages, serde.Inverts message)
    (hlength : ∀ message ∈ messages, (payload serde message).length ≤ MAX_FRAME_LEN)
    {chunks : List Bytes} (hchunks : chunks.flatten =
      (messages.map fun message => frame FRAME_HEADER_LEN (payload serde message)).flatten) :
    ReadsAs serde chunks (messages.map RunnerMessage.normal) := by
  induction messages generalizing chunks with
  | nil => exact readMessage_end hchunks
  | cons message messages ih =>
      have hle := hlength message List.mem_cons_self
      have hwidth : (payload serde message).length < 2 ^ 32 := by
        unfold MAX_FRAME_LEN at hle
        omega
      have hslice := fromSlice_payload (hserde message List.mem_cons_self)
      obtain ⟨rest, hread, -, hrest⟩ := readMessage_frame hwidth hchunks
      refine ⟨rest, hread _ hle hslice, ih ?_ ?_ hrest⟩
      · exact fun other ho => hserde other (List.mem_cons_of_mem _ ho)
      · exact fun other ho => hlength other (List.mem_cons_of_mem _ ho)

-- A codec that knows the text of one value, which needs no escapes.

def text : Nat → Json → List Char
  | 0, _ => []
  | _ + 1, .null => "null".toList
  | _ + 1, .bool value => (toString value).toList
  | _ + 1, .number value => value.text
  | _ + 1, .string chars => '"' :: (chars.toList ++ ['"'])
  | depth + 1, .array items =>
      '[' :: (((items.map (text depth)).intersperse [',']).flatten ++ [']'])
  | depth + 1, .object members =>
      '{' :: (((members.map fun entry =>
        '"' :: (entry.1.toList ++ ['"', ':'] ++ text depth entry.2)).intersperse [',']).flatten ++
          ['}'])

def textBytes (value : Json) : Bytes :=
  (text (value.depth + 1) value).flatMap String.utf8EncodeChar

-- Serde_json reads no value that is nested as deep as this.
def recursionLimit : Nat := 128

def serdeOf (value : Json) : Serde where
  time := ⟨fun _ => "", fun _ => none⟩
  write := textBytes
  read bytes :=
    if bytes ≠ [] ∧ bytes = textBytes value ∧ value.depth < recursionLimit then some value else none
  read_nil := by simp

theorem serdeOf_inverts {value : Json} {message : RunnerMessage}
    (htimes : message.times = []) (hjson : message.toJson (serdeOf value) = value)
    (hbytes : textBytes value ≠ []) (hdepth : value.depth < recursionLimit) :
    (serdeOf value).Inverts message where
  times := by simp [htimes]
  text := by
    rw [payload, hjson]
    exact if_pos ⟨hbytes, rfl, hdepth⟩

def cancelled : RunnerMessage := .Cancel { jobId := "j", requestId := some "r" }

def cancelledJson : Json :=
  .object [("type", .string "cancel"), ("payload", .object [("protocol_version", .string "2"),
    ("job_id", .string "j"), ("request_id", .string "r"), ("hard_kill", .bool false)])]

theorem inverts_cancelled : (serdeOf cancelledJson).Inverts cancelled := by
  apply serdeOf_inverts rfl rfl
  · decide
  · decide

theorem length_cancelled :
    (payload (serdeOf cancelledJson) cancelled).length ≤ MAX_FRAME_LEN := by
  have hlength : (textBytes cancelledJson).length ≤ 200 := by decide
  exact hlength.trans (by decide)

theorem frames_round_trip {messages : List RunnerMessage}
    (hserde : ∀ message ∈ messages, serde.Inverts message)
    (hlength : ∀ message ∈ messages, (payload serde message).length ≤ MAX_FRAME_LEN) :
    ∃ frames, messages.mapM (encodeFrame serde) = .ok frames ∧
      (∀ chunks : List Bytes, chunks.flatten = frames.flatten →
        ReadsAs serde chunks (messages.map RunnerMessage.normal)) ∧
      frames.mapM (decodeFrame serde) = .ok (messages.map RunnerMessage.normal) := by
  have hwidth : ∀ message ∈ messages, (payload serde message).length < 2 ^ 32 := by
    intro message hm
    have hle := hlength message hm
    unfold MAX_FRAME_LEN at hle
    omega
  refine ⟨_, mapM_ok fun message hm => encodeFrame_of_lt (hwidth message hm), ?_, ?_⟩
  · exact fun chunks hchunks => readsAs_frames hserde hlength hchunks
  · have hdecode : ∀ message ∈ messages, (decodeFrame serde ∘ fun message =>
        frame FRAME_HEADER_LEN (payload serde message)) message = .ok message.normal :=
      fun message hm => decodeFrame_frame (hserde message hm) (hwidth message hm)
    rw [List.mapM_map]
    exact mapM_ok hdecode

theorem frames_round_trip_cancelled : ∃ frames,
    [cancelled, cancelled].mapM (encodeFrame (serdeOf cancelledJson)) = .ok frames ∧
      (∀ chunks : List Bytes, chunks.flatten = frames.flatten →
        ReadsAs (serdeOf cancelledJson) chunks [cancelled, cancelled]) ∧
      frames.mapM (decodeFrame (serdeOf cancelledJson)) = .ok [cancelled, cancelled] := by
  have hserde : ∀ message ∈ [cancelled, cancelled], (serdeOf cancelledJson).Inverts message := by
    simp [inverts_cancelled]
  have hlength : ∀ message ∈ [cancelled, cancelled],
      (payload (serdeOf cancelledJson) message).length ≤ MAX_FRAME_LEN := by
    simp [length_cancelled]
  exact frames_round_trip hserde hlength

-- What is documented of the libraries: chrono reads back a time that it has written, and serde_json
-- a value, unless it is nested too deep. It may take a float for one next to it.
structure Serde.Documented (serde : Serde) (reread : ℚ → ℚ) (message : RunnerMessage) : Prop where
  times : ∀ time ∈ message.times, serde.time.Inverts time
  text : serde.read (payload serde message) =
    if (message.toJson serde).depth < recursionLimit then
      some ((message.toJson serde).mapFloats reread)
    else none

theorem fromSlice_documented {reread : ℚ → ℚ} {message : RunnerMessage}
    (h : serde.Documented reread message) :
    fromSlice serde (payload serde message) =
      if (message.toJson serde).depth < recursionLimit then some (message.mapFloats reread).normal
      else none := by
  unfold fromSlice
  rw [h.text]
  by_cases hdepth : (message.toJson serde).depth < recursionLimit
  · have htimes : ∀ time ∈ (message.mapFloats reread).times, serde.time.Inverts time := by
      rw [message.times_mapFloats]
      exact h.times
    rw [if_pos hdepth, if_pos hdepth, message.toJson_mapFloats]
    exact RunnerMessage.ofJson_toJson htimes
  · rw [if_neg hdepth, if_neg hdepth]
    rfl

-- What is encoded is read exactly if its payload is not larger than the readers allow, its values
-- are not nested too deep, and its floats are read as they are.
theorem read_encoded_iff {reread : ℚ → ℚ} {message : RunnerMessage}
    (hserde : serde.Documented reread message) {bytes : Bytes}
    (hframe : encodeFrame serde message = .ok bytes) {chunks : List Bytes}
    (hchunks : chunks.flatten = bytes) :
    (readMessage serde chunks).1 = .ok (some message.normal) ↔
      (payload serde message).length ≤ MAX_FRAME_LEN ∧
        (message.toJson serde).depth < recursionLimit ∧ ∀ x ∈ message.floats, reread x = x := by
  have hwidth : (payload serde message).length < 2 ^ 32 := by
    by_contra hlarge
    rw [encodeFrame, if_neg hlarge] at hframe
    cases hframe
  rw [encodeFrame_of_lt hwidth] at hframe
  obtain rfl := Except.ok.inj hframe
  have hslice := fromSlice_documented hserde
  obtain ⟨rest, hread, hback, -⟩ := @readMessage_frame serde _ hwidth _ _
    (hchunks.trans (List.append_nil _).symm)
  rw [← message.normal_mapFloats_iff]
  constructor
  · intro h
    obtain ⟨hle, hfound⟩ := hback _ h
    rw [hslice] at hfound
    obtain ⟨hdepth, hsame⟩ := Option.ite_none_right_eq_some.mp hfound
    exact ⟨hle, hdepth, Option.some.inj hsame⟩
  · rintro ⟨hle, hdepth, hsame⟩
    rw [if_pos hdepth, hsame] at hslice
    rw [hread _ hle hslice]

theorem serdeOf_documented {value : Json} {message : RunnerMessage}
    (htimes : message.times = []) (hjson : message.toJson (serdeOf value) = value)
    (hbytes : textBytes value ≠ []) : (serdeOf value).Documented id message where
  times := by simp [htimes]
  text := by
    rw [payload, hjson, (Json.mapFloats_eq_self id value).mpr fun _ _ => rfl]
    exact if_congr (and_iff_right hbytes |>.trans (and_iff_right rfl)) rfl rfl

-- An answer with a float in it, and one that is an array in an array and so on.

def retried : RunnerMessage :=
  .Response { status := .Retry, retryAfterSeconds := some (1 / 4) }

def retriedJson : Json :=
  .object [("type", .string "response"),
    ("payload", .object [("status", .string "retry"),
      ("retry_after_seconds", .number (.float (1 / 4)))])]

def arrays : Nat → Json
  | 0 => .array []
  | levels + 1 => .array [arrays levels]

def nested (levels : Nat) : RunnerMessage :=
  .Response { status := .Success, result := some (arrays levels) }

def nestedJson (levels : Nat) : Json :=
  .object [("type", .string "response"),
    ("payload", .object [("status", .string "success"), ("result", arrays levels)])]

theorem read_encoded_iff_samples :
    (readMessage (serdeOf retriedJson)
        [frame FRAME_HEADER_LEN (payload (serdeOf retriedJson) retried)]).1 = .ok (some retried) ∧
      ¬ (readMessage (serdeOf (nestedJson 125))
        [frame FRAME_HEADER_LEN (payload (serdeOf (nestedJson 125)) (nested 125))]).1 =
          .ok (some (nested 125)) := by
  have hretried : (payload (serdeOf retriedJson) retried).length ≤ 200 := by decide +kernel
  have hnested : (payload (serdeOf (nestedJson 125)) (nested 125)).length ≤ 1000 := by
    decide +kernel
  constructor
  · have hdocumented : (serdeOf retriedJson).Documented id retried := by
      apply serdeOf_documented rfl rfl
      decide +kernel
    have hframe := encodeFrame_of_lt (lt_of_le_of_lt hretried (by decide))
    refine (read_encoded_iff hdocumented hframe (by simp)).mpr ⟨?_, ?_, fun _ _ => rfl⟩
    · exact hretried.trans (by decide)
    · decide
  · have hdocumented : (serdeOf (nestedJson 125)).Documented id (nested 125) := by
      apply serdeOf_documented rfl rfl
      decide +kernel
    have hframe := encodeFrame_of_lt (lt_of_le_of_lt hnested (by decide))
    intro h
    obtain ⟨-, hdepth, -⟩ := (read_encoded_iff hdocumented hframe (by simp)).mp h
    exact absurd hdepth (by decide +kernel)

-- A result of so many letters.

def large (letters : String) : RunnerMessage :=
  .Response { status := .Success, result := some (.string letters) }

def largeJson (letters : String) : Json :=
  .object [("type", .string "response"),
    ("payload", .object [("status", .string "success"), ("result", .string letters)])]

theorem length_text_string (depth : Nat) (chars : String) :
    (text (depth + 1) (.string chars)).length = chars.length + 2 := by
  simp [text, String.length_toList]

theorem length_text_pair (depth : Nat) (a b : String) (x y : Json) :
    (text (depth + 1) (.object [(a, x), (b, y)])).length =
      a.length + b.length + (text depth x).length + (text depth y).length + 9 := by
  simp only [text, List.map_cons, List.map_nil, List.intersperse, List.flatten_cons,
    List.flatten_nil, List.length_cons, List.length_append, List.length_nil, String.length_toList]
  omega

theorem length_text_large (letters : String) :
    (text 3 (largeJson letters)).length = letters.length + 62 := by
  have h1 : "type".length = 4 := by decide
  have h2 : "payload".length = 7 := by decide
  have h3 : "status".length = 6 := by decide
  have h4 : "result".length = 6 := by decide
  have h5 : "response".length = 8 := by decide
  have h6 : "success".length = 7 := by decide
  rw [largeJson, length_text_pair, length_text_pair, length_text_string, length_text_string,
    length_text_string, h1, h2, h3, h4, h5, h6]
  omega

-- A character takes one byte to four.
theorem length_flatMap_utf8 (chars : List Char) :
    chars.length ≤ (chars.flatMap String.utf8EncodeChar).length ∧
      (chars.flatMap String.utf8EncodeChar).length ≤ 4 * chars.length := by
  induction chars with
  | nil => simp
  | cons c chars ih =>
      have hpos := Char.utf8Size_pos c
      have hle := Char.utf8Size_le_four c
      simp only [List.flatMap_cons, List.length_append, String.length_utf8EncodeChar,
        List.length_cons]
      omega

theorem read_encoded_fails : ¬ ∀ (serde : Serde) (reread : ℚ → ℚ) (message : RunnerMessage)
    (bytes : Bytes) (chunks : List Bytes), serde.Documented reread message →
      encodeFrame serde message = .ok bytes → chunks.flatten = bytes →
        (readMessage serde chunks).1 = .ok (some message.normal) := by
  intro h
  let letters := String.ofList (List.replicate MAX_FRAME_LEN 'a')
  let value := largeJson letters
  have hletters : letters.length = MAX_FRAME_LEN := by simp [letters]
  have htext := length_text_large letters
  have hbytes : MAX_FRAME_LEN < (textBytes value).length ∧ (textBytes value).length < 2 ^ 32 := by
    have hle := length_flatMap_utf8 (text 3 value)
    have heq : textBytes value = (text 3 value).flatMap String.utf8EncodeChar := rfl
    rw [htext, hletters] at hle
    rw [heq]
    rw [MAX_FRAME_LEN] at hle ⊢
    omega
  have hdocumented : (serdeOf value).Documented id (large letters) := by
    apply serdeOf_documented rfl rfl
    intro hnil
    rw [hnil] at hbytes
    exact absurd hbytes.1 (by decide)
  have hframe : encodeFrame (serdeOf value) (large letters) =
      .ok (frame FRAME_HEADER_LEN (payload (serdeOf value) (large letters))) :=
    encodeFrame_of_lt hbytes.2
  have hchunks : [frame FRAME_HEADER_LEN (payload (serdeOf value) (large letters))].flatten =
      frame FRAME_HEADER_LEN (payload (serdeOf value) (large letters)) := List.flatten_singleton
  have hread := h _ _ _ _ _ hdocumented hframe hchunks
  have hle := ((read_encoded_iff hdocumented hframe hchunks).mp hread).1
  exact absurd hle (Nat.not_le_of_lt hbytes.1)

end Frames

end Rrq.Protocol
