import Rrq.Framing
import Rrq.Settings
import Rrq.Wire

-- The messages between the orchestrator and its runners, and the frames that carry them.

namespace Rrq.Protocol

open Framing

def PROTOCOL_VERSION : String := "2"
def FRAME_HEADER_LEN : Nat := 4
def MAX_FRAME_LEN : Nat := 16 * 1024 * 1024

structure ExecutionContext where
  jobId : String
  attempt : UInt32
  enqueueTime : DateTime
  queueName : String
  deadline : Option DateTime
  traceContext : Option Context
  correlationContext : Option Context
  workerId : Option String

structure ExecutionRequest where
  protocolVersion : String := PROTOCOL_VERSION
  requestId : String
  jobId : String
  functionName : String
  params : Params := []
  context : ExecutionContext

structure ExecutionError where
  message : String
  errorType : Option String := none
  code : Option String := none
  details : Option Json := none

structure ExecutionOutcome where
  jobId : Option String := none
  requestId : Option String := none
  status : OutcomeStatus
  result : Option Json := none
  error : Option ExecutionError := none
  -- A finite float.
  retryAfterSeconds : Option ℚ := none

namespace ExecutionOutcome

def timeout (jobId requestId message : String) : ExecutionOutcome :=
  { jobId := some jobId, requestId := some requestId, status := .Timeout
    error := some { message } }

def failure (jobId requestId message : String) : ExecutionOutcome :=
  { jobId := some jobId, requestId := some requestId, status := .Error
    error := some { message } }

def handlerNotFound (jobId requestId message : String) : ExecutionOutcome :=
  { jobId := some jobId, requestId := some requestId, status := .Error
    error := some { message, errorType := some "handler_not_found" } }

end ExecutionOutcome

structure CancelRequest where
  protocolVersion : String := PROTOCOL_VERSION
  jobId : String
  requestId : Option String := none
  hardKill : Bool := false

inductive RunnerMessage where
  | Request (payload : ExecutionRequest)
  | Response (payload : ExecutionOutcome)
  | Cancel (payload : CancelRequest)

-- How serde_json writes a value as text and reads it, and how chrono writes a time.
structure Serde where
  time : Printer DateTime
  write : Json → Bytes
  read : Bytes → Option Json
  -- No value is read from an empty text.
  read_nil : read [] = none

-- What serde makes of the fields of a struct. A field that is skipped is not written at all.

def skipNone {α : Type} (name : String) (write : α → Json) :
    Option α → List (String × Json)
  | none => []
  | some value => [(name, write value)]

def nullable {α : Type} (write : α → Json) : Option α → Json
  | none => .null
  | some value => write value

def contextJson (context : Context) : Json :=
  .object (context.map fun entry => (entry.1, .string entry.2))

def statusJson : OutcomeStatus → Json
  | .Success => .string "success"
  | .Retry => .string "retry"
  | .Timeout => .string "timeout"
  | .Error => .string "error"

def floatJson (value : ℚ) : Json := .number (.float value)

section Serialize

variable (serde : Serde)

def timeJson (time : DateTime) : Json := .string (serde.time.print time)

def ExecutionContext.toJson (c : ExecutionContext) : Json :=
  .object [("job_id", .string c.jobId),
    ("attempt", .number (.integer c.attempt.toNat)),
    ("enqueue_time", timeJson serde c.enqueueTime),
    ("queue_name", .string c.queueName),
    ("deadline", nullable (timeJson serde) c.deadline),
    ("trace_context", nullable contextJson c.traceContext),
    ("correlation_context", nullable contextJson c.correlationContext),
    ("worker_id", nullable .string c.workerId)]

def ExecutionRequest.toJson (r : ExecutionRequest) : Json :=
  .object [("protocol_version", .string r.protocolVersion),
    ("request_id", .string r.requestId),
    ("job_id", .string r.jobId),
    ("function_name", .string r.functionName),
    ("params", .object r.params),
    ("context", r.context.toJson serde)]

def ExecutionError.toJson (e : ExecutionError) : Json :=
  .object <| ("message", .string e.message) ::
    (skipNone "type" .string e.errorType ++ skipNone "code" .string e.code ++
      skipNone "details" id e.details)

def ExecutionOutcome.toJson (o : ExecutionOutcome) : Json :=
  .object <| skipNone "job_id" .string o.jobId ++ skipNone "request_id" .string o.requestId ++
    [("status", statusJson o.status)] ++ skipNone "result" id o.result ++
    skipNone "error" ExecutionError.toJson o.error ++
    skipNone "retry_after_seconds" floatJson o.retryAfterSeconds

def CancelRequest.toJson (c : CancelRequest) : Json :=
  .object <| [("protocol_version", .string c.protocolVersion), ("job_id", .string c.jobId)] ++
    skipNone "request_id" .string c.requestId ++ [("hard_kill", .bool c.hardKill)]

def RunnerMessage.toJson : RunnerMessage → Json
  | .Request payload => .object [("type", .string "request"), ("payload", payload.toJson serde)]
  | .Response payload => .object [("type", .string "response"), ("payload", payload.toJson)]
  | .Cancel payload => .object [("type", .string "cancel"), ("payload", payload.toJson)]

end Serialize

-- Reading the fields back. A field that is not known is passed over.

def asString : Json → Option String
  | .string text => some text
  | _ => none

def asBool : Json → Option Bool
  | .bool value => some value
  | _ => none

def asF64 : Json → Option ℚ
  | .number (.integer value) => some (Float64.nearest value)
  | .number (.float value) => some value
  | _ => none

def asU32 : Json → Option UInt32
  | .number (.integer value) =>
      if 0 ≤ value ∧ value < 2 ^ 32 then some (UInt32.ofNat value.toNat) else none
  | _ => none

def asObject : Json → Option (List (String × Json))
  | .object members => some members
  | _ => none

def asContext (value : Json) : Option Context :=
  (asObject value).bind fun members =>
    members.mapM fun entry => (asString entry.2).map fun text => (entry.1, text)

def asStatus (value : Json) : Option OutcomeStatus :=
  (asString value).bind fun text =>
    if text = "success" then some .Success
    else if text = "retry" then some .Retry
    else if text = "timeout" then some .Timeout
    else if text = "error" then some .Error
    else none

-- A field that has to be there.
def field {α : Type} (read : Json → Option α) (name : String)
    (members : List (String × Json)) : Option α := (members.lookup name).bind read

-- A field that is missing or null is read as none.
def optional {α : Type} (read : Json → Option α) (name : String)
    (members : List (String × Json)) : Option (Option α) :=
  match members.lookup name with
  | none | some .null => some none
  | some value => (read value).map some

-- A field that is missing has its default.
def defaulted {α : Type} (read : Json → Option α) (default : α) (name : String)
    (members : List (String × Json)) : Option α :=
  match members.lookup name with
  | none => some default
  | some value => read value

section Deserialize

variable (serde : Serde)

def asTime (value : Json) : Option DateTime := (asString value).bind serde.time.read

def ExecutionContext.ofJson (value : Json) : Option ExecutionContext := do
  let members ← asObject value
  let jobId ← field asString "job_id" members
  let attempt ← field asU32 "attempt" members
  let enqueueTime ← field (asTime serde) "enqueue_time" members
  let queueName ← field asString "queue_name" members
  let deadline ← optional (asTime serde) "deadline" members
  let traceContext ← optional asContext "trace_context" members
  let correlationContext ← optional asContext "correlation_context" members
  let workerId ← optional asString "worker_id" members
  pure ⟨jobId, attempt, enqueueTime, queueName, deadline, traceContext, correlationContext,
    workerId⟩

def ExecutionRequest.ofJson (value : Json) : Option ExecutionRequest := do
  let members ← asObject value
  let protocolVersion ← defaulted asString PROTOCOL_VERSION "protocol_version" members
  let requestId ← field asString "request_id" members
  let jobId ← field asString "job_id" members
  let functionName ← field asString "function_name" members
  let params ← defaulted asObject [] "params" members
  let context ← field (ExecutionContext.ofJson serde) "context" members
  pure ⟨protocolVersion, requestId, jobId, functionName, params, context⟩

def ExecutionError.ofJson (value : Json) : Option ExecutionError := do
  let members ← asObject value
  let message ← field asString "message" members
  let errorType ← optional asString "type" members
  let code ← optional asString "code" members
  let details ← optional some "details" members
  pure ⟨message, errorType, code, details⟩

def ExecutionOutcome.ofJson (value : Json) : Option ExecutionOutcome := do
  let members ← asObject value
  let jobId ← optional asString "job_id" members
  let requestId ← optional asString "request_id" members
  let status ← field asStatus "status" members
  let result ← optional some "result" members
  let error ← optional ExecutionError.ofJson "error" members
  let retryAfterSeconds ← optional asF64 "retry_after_seconds" members
  pure ⟨jobId, requestId, status, result, error, retryAfterSeconds⟩

def CancelRequest.ofJson (value : Json) : Option CancelRequest := do
  let members ← asObject value
  let protocolVersion ← defaulted asString PROTOCOL_VERSION "protocol_version" members
  let jobId ← field asString "job_id" members
  let requestId ← optional asString "request_id" members
  let hardKill ← defaulted asBool false "hard_kill" members
  pure ⟨protocolVersion, jobId, requestId, hardKill⟩

def RunnerMessage.ofJson (value : Json) : Option RunnerMessage := do
  let members ← asObject value
  let kind ← field asString "type" members
  if kind = "request" then
    (field (ExecutionRequest.ofJson serde) "payload" members).map .Request
  else if kind = "response" then (field ExecutionOutcome.ofJson "payload" members).map .Response
  else if kind = "cancel" then (field CancelRequest.ofJson "payload" members).map .Cancel
  else none

end Deserialize

inductive FrameError where
  | invalidLength
  | json
deriving DecidableEq

inductive ReadError where
  | frame (fault : FrameFault)
  | json
deriving DecidableEq

section Frames

variable (serde : Serde)

def payload (message : RunnerMessage) : Bytes := serde.write (message.toJson serde)

def fromSlice (bytes : Bytes) : Option RunnerMessage :=
  (serde.read bytes).bind (RunnerMessage.ofJson serde)

def encodeFrame (message : RunnerMessage) : Except FrameError Bytes :=
  if (payload serde message).length < 2 ^ 32 then
    .ok (frame FRAME_HEADER_LEN (payload serde message))
  else .error .invalidLength

def decodeFrame (bytes : Bytes) : Except FrameError RunnerMessage :=
  if bytes.length < FRAME_HEADER_LEN then .error .invalidLength
  else
    let length := ofBeBytes (bytes.take FRAME_HEADER_LEN)
    if bytes.length - FRAME_HEADER_LEN ≠ length then .error .invalidLength
    else
      match fromSlice serde (bytes.drop FRAME_HEADER_LEN) with
      | some message => .ok message
      | none => .error .json

-- The reader of the orchestrator and that of the runner do the same.
def readMessage (chunks : List Bytes) : Except ReadError (Option RunnerMessage) × List Bytes :=
  match readFrame FRAME_HEADER_LEN MAX_FRAME_LEN chunks with
  | (.error fault, rest) => (.error (.frame fault), rest)
  | (.ok none, rest) => (.ok none, rest)
  | (.ok (some bytes), rest) =>
      match fromSlice serde bytes with
      | some message => (.ok (some message), rest)
      | none => (.error .json, rest)

-- Reading one message after the other gives just these, and then the end of the stream.
def ReadsAs (chunks : List Bytes) : List RunnerMessage → Prop
  | [] => (readMessage serde chunks).1 = .ok none
  | message :: messages => ∃ rest, readMessage serde chunks = (.ok (some message), rest) ∧
      ReadsAs rest messages

end Frames

end Rrq.Protocol
