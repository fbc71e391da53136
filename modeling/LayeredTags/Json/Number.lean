import LayeredTags.Json.Decimal

/-!
# Numbers of JSON texts

A numeral without fraction and exponent is an integer if 64 bits can hold it; any other numeral is
a double.

* `Numeral`: a number as it is spelled.
* `Number`: its value.
* `Numeral.number?`: the value of a numeral, unless it is too large for a double.
-/

namespace LayeredTags.Json

/-- A number as it is spelled: sign, digits before and behind the point, and sign and digits of the
exponent. -/
structure Numeral where
  negative : Bool
  integer : List Nat
  fraction : Option (List Nat)
  exponent : Option (Bool × List Nat)
  deriving DecidableEq, Repr, Inhabited

/-- The value of a number. -/
inductive Number where
  | natural (n : Nat)
  /-- the negative of a positive number -/
  | negative (n : Nat)
  /-- a finite double, by its bits -/
  | double (bits : UInt64)
  deriving DecidableEq, Repr, Inhabited

def Number.text : Number → String
  | natural n => toString n
  | negative n => "-" ++ toString n
  | double bits => Decimal.ofBits bits

/-- Whether a condition on the number holds: zero does not count, and neither does a double that is
too small to be normalised. -/
def Number.counts : Number → Bool
  | natural n => n ≠ 0
  | negative n => n ≠ 0
  | double bits => (bits.toNat >>> 52) % 2048 ≠ 0

/-- The value as an integer and the power of two that scales it. -/
def Number.scaled : Number → Int × Int
  | natural n => (n, 0)
  | negative n => (-n, 0)
  | double bits =>
    let b := Decimal.Binary.ofBits bits
    (if bits.toNat >>> 63 = 1 then -b.mantissa else b.mantissa, b.exponent)

def Number.order (a b : Number) : Ordering :=
  let (m, e) := a.scaled
  let (n, f) := b.scaled
  compare (m * Nat.pow 2 (e - min e f).toNat) (n * Nat.pow 2 (f - min e f).toNat)

namespace Numeral

def ofDigits (digits : List Nat) : Nat :=
  digits.foldl (fun n d => n * 10 + d) 0

/-- The digits that fit into 64 bits behind a number, as a number, and how many digits are left. -/
def takeDigits : Nat → List Nat → Nat × Nat
  | n, [] => (n, 0)
  | n, d :: rest =>
    if n * 10 + d < UInt64.size then takeDigits (n * 10 + d) rest else (n, rest.length + 1)

/-- The double nearest to a power of ten. -/
def powerOfTen (exponent : Nat) : Float :=
  Float.ofScientific 1 false exponent

/-- The largest exponent of a power of ten that is a double. -/
def largestPower : Nat := 308

/-- A scaled significand, unless it is too large. Powers of ten that are no doubles are reached in
two divisions, beyond which nothing is left. -/
def scale (significand : Nat) (exponent : Int) : Option Float :=
  let f := (UInt64.ofNat significand).toFloat
  if 0 ≤ exponent then
    if exponent ≤ largestPower then
      let scaled := f * powerOfTen exponent.toNat
      if scaled.isInf then none else some scaled
    else if significand = 0 then some f else none
  else
    let down := (-exponent).toNat
    if down ≤ largestPower then some (f / powerOfTen down)
    else if down ≤ 2 * largestPower then
      some (f / powerOfTen largestPower / powerOfTen (down - largestPower))
    else some 0

/-- The significand of at most 64 bits and the power of ten that a numeral spells; digits beyond
the significand only move the point. -/
def significand (n : Numeral) : Nat × Int :=
  let (whole, dropped) := takeDigits 0 n.integer
  let fraction := n.fraction.getD []
  let (all, unread) := takeDigits whole fraction
  (all, (dropped : Int) - ((fraction.length : Int) - unread))

/-- The value as a double, unless it is too large. -/
def double? (n : Numeral) : Option Float :=
  let (significand, exponent) := n.significand
  let magnitude :=
    match n.exponent with
    | none => scale significand exponent
    | some (negative, digits) =>
      let e := ofDigits digits
      if e < UInt32.size / 2 then
        scale significand (if negative then exponent - e else exponent + e)
      else if significand = 0 ∨ negative then some 0
      else none
  magnitude.map fun f => if n.negative then -f else f

def number? (n : Numeral) : Option Number :=
  let whole := ofDigits n.integer
  if n.fraction = none ∧ n.exponent = none ∧ !n.negative ∧ whole < UInt64.size then
    some (.natural whole)
  else if n.fraction = none ∧ n.exponent = none ∧ n.negative ∧ 0 < whole ∧
      whole ≤ UInt64.size / 2 then
    some (.negative whole)
  else n.double?.map fun f => .double f.toBits

end Numeral

end LayeredTags.Json
