import Rrq.Number

-- Values of JSON: how deep they are nested, and the floats in them.

namespace Rrq

inductive Json where
  | null
  | bool (value : Bool)
  | number (value : Number)
  | string (value : String)
  | array (items : List Json)
  | object (members : List (String × Json))

def Number.floats : Number → List ℚ
  | integer _ => []
  | float value => [value]

def Number.mapFloat (f : ℚ → ℚ) : Number → Number
  | integer value => .integer value
  | float value => .float (f value)

theorem Number.mapFloat_eq_self {f : ℚ → ℚ} {number : Number} :
    number.mapFloat f = number ↔ ∀ x ∈ number.floats, f x = x := by
  cases number with
  | integer value => simp [mapFloat, floats]
  | float value => simp [mapFloat, floats]

namespace Json

-- How many arrays and objects stand around one another.
mutual

def depth : Json → Nat
  | array items => depthOfItems items + 1
  | object members => depthOfMembers members + 1
  | _ => 0

def depthOfItems : List Json → Nat
  | [] => 0
  | item :: items => max (depth item) (depthOfItems items)

def depthOfMembers : List (String × Json) → Nat
  | [] => 0
  | (_, value) :: members => max (depth value) (depthOfMembers members)

end

mutual

def floats : Json → List ℚ
  | number value => value.floats
  | array items => floatsOfItems items
  | object members => floatsOfMembers members
  | _ => []

def floatsOfItems : List Json → List ℚ
  | [] => []
  | item :: items => floats item ++ floatsOfItems items

def floatsOfMembers : List (String × Json) → List ℚ
  | [] => []
  | (_, value) :: members => floats value ++ floatsOfMembers members

end

-- The value with other floats in the place of its own.
mutual

def mapFloats (f : ℚ → ℚ) : Json → Json
  | null => .null
  | bool value => .bool value
  | number value => .number (value.mapFloat f)
  | string value => .string value
  | array items => .array (mapItems f items)
  | object members => .object (mapMembers f members)

def mapItems (f : ℚ → ℚ) : List Json → List Json
  | [] => []
  | item :: items => mapFloats f item :: mapItems f items

def mapMembers (f : ℚ → ℚ) : List (String × Json) → List (String × Json)
  | [] => []
  | (name, value) :: members => (name, mapFloats f value) :: mapMembers f members

end

section MapFloats

variable (f : ℚ → ℚ)

theorem mapMembers_append (first second : List (String × Json)) :
    mapMembers f (first ++ second) = mapMembers f first ++ mapMembers f second := by
  induction first with
  | nil => rfl
  | cons member members ih =>
      obtain ⟨name, value⟩ := member
      rw [List.cons_append, mapMembers, ih]
      rfl

mutual

-- A value stays as it is exactly when its floats do.
theorem mapFloats_eq_self : ∀ value : Json,
    value.mapFloats f = value ↔ ∀ x ∈ value.floats, f x = x
  | null | bool _ | string _ => by simp [mapFloats, floats]
  | number value => by simp [mapFloats, floats, Number.mapFloat_eq_self]
  | array items => by simpa [mapFloats, floats] using mapItems_eq_self items
  | object members => by simpa [mapFloats, floats] using mapMembers_eq_self members

theorem mapItems_eq_self : ∀ items : List Json,
    mapItems f items = items ↔ ∀ x ∈ floatsOfItems items, f x = x
  | [] => by simp [mapItems, floatsOfItems]
  | item :: items => by
      simp [mapItems, floatsOfItems, mapFloats_eq_self item, mapItems_eq_self items, or_imp,
        forall_and]

theorem mapMembers_eq_self : ∀ members : List (String × Json),
    mapMembers f members = members ↔ ∀ x ∈ floatsOfMembers members, f x = x
  | [] => by simp [mapMembers, floatsOfMembers]
  | (name, value) :: members => by
      simp [mapMembers, floatsOfMembers, mapFloats_eq_self value, mapMembers_eq_self members,
        or_imp, forall_and]

end

end MapFloats

end Json

end Rrq
