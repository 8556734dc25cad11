import Rrq.Float64

-- The numbers of JSON and the texts that they print as. A float prints as the shortest decimal
-- that reads back as the float.

namespace Rrq

structure Decimal where
  digits : Nat
  exponent : Int

namespace Decimal

def value (d : Decimal) : ℚ := d.digits * (10 : ℚ) ^ d.exponent

-- The decimals on either side of a positive number that have so many digits.
def around (x : ℚ) (precision : Nat) : List Decimal :=
  let exponent := Int.log 10 x + 1 - precision
  let low := ⌊x / (10 : ℚ) ^ exponent⌋.toNat
  [⟨low, exponent⟩, ⟨low + 1, exponent⟩].filter fun d => Float64.nearest d.value = x

-- Of two that read back, the closer one, or the even one.
def closest (x : ℚ) : List Decimal → Option Decimal
  | [] => none
  | [d] => some d
  | low :: high :: _ =>
      if |low.value - x| < |high.value - x| then some low
      else if |high.value - x| < |low.value - x| then some high
      else if low.digits % 2 = 0 then some low
      else some high

-- A number next to a power of ten may be taken for the power.
def normal (d : Decimal) : Decimal :=
  if d.digits % 10 = 0 then ⟨d.digits / 10, d.exponent + 1⟩ else d

-- Seventeen digits are always enough.
def shortest (x : ℚ) : Decimal :=
  let found := (List.range' 1 17).findSome? fun precision => closest x (around x precision)
  (found.map normal).getD ⟨0, 0⟩

def text (d : Decimal) : List Char :=
  let digits := Nat.toDigits 10 d.digits
  let point := digits.length + d.exponent
  if 0 ≤ d.exponent ∧ point ≤ 16 then
    digits ++ List.replicate d.exponent.toNat '0' ++ ['.', '0']
  else if 0 < point ∧ point ≤ 16 then
    digits.take point.toNat ++ '.' :: digits.drop point.toNat
  else if -5 < point ∧ point ≤ 0 then
    '0' :: '.' :: (List.replicate (-point).toNat '0' ++ digits)
  else
    let fraction := if digits.length = 1 then [] else '.' :: digits.drop 1
    digits.take 1 ++ fraction ++ 'e' :: (toString (point - 1)).toList

theorem text_ne_nil (d : Decimal) : d.text ≠ [] := by
  unfold text
  dsimp only
  split_ifs <;> simp

end Decimal

inductive Number where
  | integer (value : Int)
  -- A finite float.
  | float (value : ℚ)

namespace Number

def integerText (value : Int) : List Char :=
  let digits := Nat.toDigits 10 value.natAbs
  if value < 0 then '-' :: digits else digits

def floatText (value : ℚ) : List Char :=
  if value = 0 then ['0', '.', '0']
  else
    let digits := (Decimal.shortest |value|).text
    if value < 0 then '-' :: digits else digits

def text : Number → List Char
  | integer value => integerText value
  | float value => floatText value

theorem text_ne_nil (number : Number) : number.text ≠ [] := by
  cases number with
  | integer value =>
      simp only [text, integerText]
      split_ifs
      · exact List.cons_ne_nil _ _
      · exact Nat.toDigits_ne_nil
  | float value =>
      simp only [text, floatText]
      split_ifs
      · exact List.cons_ne_nil _ _
      · exact List.cons_ne_nil _ _
      · exact Decimal.text_ne_nil _

example : (float (1 / 4)).text = "0.25".toList := by decide +kernel

end Number

end Rrq
