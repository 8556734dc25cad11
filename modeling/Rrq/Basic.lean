import Mathlib.Data.Rat.Floor

-- Names, numbers and times as the program has them.

namespace Rrq

abbrev JobId := String
abbrev WorkerId := String
abbrev QueueKey := String

def startsWith (text pre : String) : Bool := pre.toList.isPrefixOf text.toList

def QUEUE_KEY_PREFIX : String := "rrq:queue:"
def DLQ_KEY_PREFIX : String := "rrq:dlq:"
def ACTIVE_JOBS_PREFIX : String := "rrq:active:jobs:"
def IDEMPOTENCY_KEY_PREFIX : String := "rrq:idempotency:"
def RATE_LIMIT_KEY_PREFIX : String := "rrq:rate_limit:"
def DEBOUNCE_KEY_PREFIX : String := "rrq:debounce:"

def DEFAULT_DLQ_RESULT_TTL_SECONDS : Int := 60 * 60 * 24 * 7

def withPrefix (pre name : String) : String := if startsWith name pre then name else pre ++ name

def normalizeQueueName (queueName : String) : QueueKey := withPrefix QUEUE_KEY_PREFIX queueName

theorem startsWith_append (pre text : String) : startsWith (pre ++ text) pre = true := by
  simp [startsWith]

theorem startsWith_withPrefix (pre name : String) : startsWith (withPrefix pre name) pre = true := by
  unfold withPrefix
  split
  · assumption
  · exact startsWith_append pre name

-- A name that carries the prefix is left as it is, so normalising twice changes nothing.
@[simp] theorem normalizeQueueName_idem (name : String) :
    normalizeQueueName (normalizeQueueName name) = normalizeQueueName name :=
  if_pos (startsWith_withPrefix QUEUE_KEY_PREFIX name)

-- What is left of a text once every leading copy of a pattern is gone.
def trimStart (pattern : List Char) : Nat → List Char → List Char
  | 0, text => text
  | fuel + 1, text =>
      if pattern.isPrefixOf text then trimStart pattern fuel (text.drop pattern.length) else text

def trimStartMatches (text pattern : String) : String :=
  String.ofList (trimStart pattern.toList text.length text.toList)

-- Signed 64-bit integers, whose checked operations fail rather than wrap.

def I64_MAX : Int := 9223372036854775807
def I64_MIN : Int := -9223372036854775808

def InI64 (n : Int) : Prop := I64_MIN ≤ n ∧ n ≤ I64_MAX

instance (n : Int) : Decidable (InI64 n) := inferInstanceAs (Decidable (_ ∧ _))

def checkedI64 (n : Int) : Option Int := if InI64 n then some n else none

def checkedAdd (a b : Int) : Option Int := checkedI64 (a + b)

def checkedMul (a b : Int) : Option Int := checkedI64 (a * b)

-- A float cast to an integer rounds toward zero and saturates.
def asI64 (x : ℚ) : Int :=
  let n := if 0 ≤ x then ⌊x⌋ else ⌈x⌉
  max I64_MIN (min I64_MAX n)

-- Points of time, in nanoseconds from the epoch.
structure DateTime where
  nanos : Int
deriving DecidableEq

namespace DateTime

-- The first and the last second that a point of time can lie in.
def MIN_SECONDS : Int := -8334601315200
def MAX_SECONDS : Int := 8210266876799

def timestamp (time : DateTime) : Int := time.nanos / 1000000000

def timestampMillis (time : DateTime) : Int := time.nanos / 1000000

def InRange (nanos : Int) : Prop :=
  MIN_SECONDS * 1000000000 ≤ nanos ∧ nanos < (MAX_SECONDS + 1) * 1000000000

instance (nanos : Int) : Decidable (InRange nanos) := inferInstanceAs (Decidable (_ ∧ _))

def timestampMillisOpt (millis : Int) : Option DateTime :=
  if InRange (millis * 1000000) then some ⟨millis * 1000000⟩ else none

-- Adding a duration outside what a duration or a point of time can hold panics.
def addSeconds (time : DateTime) (seconds : Int) : Option DateTime :=
  if |seconds| ≤ I64_MAX / 1000 ∧ InRange (time.nanos + seconds * 1000000000) then
    some ⟨time.nanos + seconds * 1000000000⟩
  else none

end DateTime

end Rrq
