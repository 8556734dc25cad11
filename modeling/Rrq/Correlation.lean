import Mathlib.Data.Char
import Mathlib.Data.Finset.Sort
import Mathlib.Data.List.Lex
import Rrq.Capped
import Rrq.Job
import Rrq.Utf8

-- The attributes that correlate the spans of a job, as they are taken from its parameters.

namespace Rrq.Producer

-- The white space that Unicode knows.
def isWhitespace (c : Char) : Bool :=
  let n := c.toNat
  (9 ≤ n && n ≤ 13) || n == 32 || n == 0x85 || n == 0xA0 || n == 0x1680 ||
    (0x2000 ≤ n && n ≤ 0x200A) || n == 0x2028 || n == 0x2029 || n == 0x202F || n == 0x205F ||
    n == 0x3000

end Rrq.Producer

namespace Rrq.Correlation

open Utf8

-- A number is here the text that it prints as.
inductive Value where
  | null
  | bool (value : Bool)
  | number (value : { text : List Char // text ≠ [] })
  | string (value : List Char)
  | array (items : List Value)
  | object (members : List (List Char × Value))

abbrev Params := List (List Char × Value)
abbrev Attributes := Finmap fun _ : List Char => List Char

-- The names of the attributes with the paths to their values, in the order in which the hash map
-- hands them out.
abbrev Mappings := List (List Char × List Char)

-- The parameters and the contexts of a job as they are looked at here.

mutual

def Value.ofJson : Json → Value
  | .null => .null
  | .bool value => .bool value
  | .number value => .number ⟨value.text, value.text_ne_nil⟩
  | .string value => .string value.toList
  | .array items => .array (itemsOf items)
  | .object members => .object (paramsOf members)

def itemsOf : List Json → List Value
  | [] => []
  | item :: items => Value.ofJson item :: itemsOf items

def paramsOf : List (String × Json) → Params
  | [] => []
  | (name, value) :: members => (name.toList, Value.ofJson value) :: paramsOf members

end

def mappingsOf (mappings : List (String × String)) : Mappings :=
  mappings.map fun mapping => (mapping.1.toList, mapping.2.toList)

def attributesOf (context : Context) : Attributes :=
  (context.map fun entry => (⟨entry.1.toList, entry.2.toList⟩ : Sigma fun _ => _)).toFinmap

-- The attributes in the order of their names.
def contextOf (attributes : Attributes) : Context :=
  attributes.keys.sort.map fun key =>
    (String.ofList key, String.ofList ((attributes.lookup key).getD []))

-- A trace context with what the propagator sets for a span, unless that leaves it empty.
def inject (set : Context → String × String → Context) (traceContext : Option Context)
    (span : Context) : Option Context :=
  let merged := span.foldl set (traceContext.getD [])
  if merged = [] then none else some merged

def Value.asObject : Value → Option Params
  | object members => some members
  | _ => none

def descend (current : Value) : List (List Char) → Option Value
  | [] => some current
  | part :: parts =>
      if part = [] then none
      else do
        let members ← current.asObject
        let next ← members.lookup part
        descend next parts

def lookupValueInParams (params : Params) (path : List Char) : Option Value :=
  let trimmed := trim Producer.isWhitespace path
  let cleaned := (stripPrefix "params.".toList trimmed).getD trimmed
  if cleaned = [] then none
  else
    match cleaned.splitOn '.' with
    | [] => none
    | first :: parts => (params.lookup first).bind (descend · parts)

def scalarValueToString : Value → Option (List Char)
  | .string value => if value = [] then none else some value
  | .bool value => some (if value then "true".toList else "false".toList)
  | .number value => some value
  | _ => none

def truncateLoop (maxLen : Nat) (out : List Char) : List Char → List Char
  | [] => out
  | ch :: value =>
      if maxLen < len out + ch.utf8Size then out else truncateLoop maxLen (out ++ [ch]) value

def truncateUtf8 (value : List Char) (maxLen : Nat) : List Char :=
  if len value ≤ maxLen then value else truncateLoop maxLen [] value

-- The constants of an implementation.
structure Limits where
  maxKeys : Nat
  maxKeyLen : Nat
  maxValueLen : Nat

section Extract

variable (limits : Limits) (params : Params) (traceContext : Option Attributes)

def existing (key : List Char) : Option (List Char) :=
  traceContext.bind (Finmap.lookup key)

-- What the loop inserts for one mapping, if it does not go on to the next.
def attributeOf (mapping : List Char × List Char) : Option (List Char × List Char) :=
  let key := trim Producer.isWhitespace mapping.1
  if key = [] ∨ limits.maxKeyLen < len key then none
  else
    match (existing traceContext key).filter (· ≠ []) with
    | some value => some (key, truncateUtf8 value limits.maxValueLen)
    | none => do
        let raw ← lookupValueInParams params mapping.2
        let value ← scalarValueToString raw
        some (key, truncateUtf8 value limits.maxValueLen)

def extractLoop : Mappings → Attributes → Attributes
  | [], correlation => correlation
  | mapping :: mappings, correlation =>
      if limits.maxKeys ≤ correlation.keys.card then correlation
      else
        match attributeOf limits params traceContext mapping with
        | none => extractLoop mappings correlation
        | some (key, value) => extractLoop mappings (correlation.insert key value)

def extract (mappings : Mappings) : Option Attributes :=
  if mappings = [] then none
  else
    let correlation := extractLoop limits params traceContext mappings ∅
    if correlation.keys = ∅ then none else some correlation

end Extract

end Rrq.Correlation

namespace Rrq.Producer

def correlationLimits : Correlation.Limits where
  maxKeys := 16
  maxKeyLen := 64
  maxValueLen := 256

def extractCorrelationContext (params : Correlation.Params) (mappings : Correlation.Mappings)
    (traceContext : Option Correlation.Attributes) : Option Correlation.Attributes :=
  Correlation.extract correlationLimits params traceContext mappings

end Rrq.Producer

namespace Rrq.Telemetry

-- An entry that is there already is written over.
def HashMapInjector.set (carrier : Context) (entry : String × String) : Context :=
  if (carrier.lookup entry.1).isSome then
    carrier.map fun held => if held.1 = entry.1 then entry else held
  else carrier ++ [entry]

def injectCurrentTraceContext (traceContext : Option Context) (span : Context) : Option Context :=
  Correlation.inject HashMapInjector.set traceContext span

def correlationLimits : Correlation.Limits where
  maxKeys := 16
  maxKeyLen := 64
  maxValueLen := 256

def extractCorrelationContext (params : Correlation.Params) (mappings : Correlation.Mappings)
    (traceContext : Option Correlation.Attributes) : Option Correlation.Attributes :=
  Correlation.extract correlationLimits params traceContext mappings

end Rrq.Telemetry
