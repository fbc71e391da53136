/-!
# The shortest decimals of binary floating-point numbers

A finite double is printed with the fewest significant digits that read back as the same number,
and among those with the digits nearest to it.

* `Decimal.shortest`: digits and exponent.
* `Decimal.text`: the notation, positional for magnitudes from 10⁻⁵ up to 10¹⁶.
-/

namespace LayeredTags.Json

/-- The magnitude `digits * 10 ^ exponent`. -/
structure Decimal where
  digits : Nat
  exponent : Int
  deriving DecidableEq, Repr

namespace Decimal

/-- A positive magnitude `mantissa * 2 ^ exponent` of the double format, and whether the gap to the
next smaller one is half the gap to the next larger one. -/
structure Binary where
  mantissa : Nat
  exponent : Int
  narrowBelow : Bool

/-- The magnitude of a finite double, given by its bits. -/
def Binary.ofBits (bits : UInt64) : Binary :=
  let fraction : Nat := bits.toNat % (1 <<< 52)
  let biased : Nat := (bits.toNat >>> 52) % 2048
  if biased = 0 then ⟨fraction, -1074, false⟩
  else ⟨(1 <<< 52) + fraction, (biased : Int) - 1075, fraction == 0 && biased > 1⟩

structure Ratio where
  num : Nat
  den : Nat

/-- The fraction `scale * 2 ^ exponent / 4`. -/
def quarterRatio (scale : Nat) (exponent : Int) : Ratio :=
  if 0 ≤ exponent then ⟨scale <<< exponent.toNat, 4⟩ else ⟨scale, 4 <<< (-exponent).toNat⟩

def Ratio.shift (r : Ratio) (exponent : Int) : Ratio :=
  if 0 ≤ exponent then ⟨r.num, r.den * Nat.pow 10 exponent.toNat⟩
  else ⟨r.num * Nat.pow 10 (-exponent).toNat, r.den⟩

/-- The exponent `e` with `10 ^ e ≤ r < 10 ^ (e + 1)` for a double's magnitude `r`. -/
def Ratio.magnitude (r : Ratio) : Int :=
  if r.den ≤ r.num then ((Nat.toDigits 10 (r.num / r.den)).length : Int) - 1
  else
    match (List.range 330).find? fun t => r.den ≤ r.num * Nat.pow 10 (t + 1) with
    | some t => -((t : Int) + 1)
    | none => -330

/-- A decimal on the grid of `count` digits; the power of ten that ends the grid has one digit. -/
def onGrid (count digits : Nat) (exponent : Int) : Decimal :=
  if digits = Nat.pow 10 count then ⟨1, exponent + count⟩ else ⟨digits, exponent⟩

/-- The nearest decimal with the given number of digits, if it reads back as the same double: the
neighbours of the value on that grid are tried, and of two that read back the nearer is taken, an
even one at equal distance. -/
def withDigits (b : Binary) (count : Nat) : Option Decimal :=
  let value := quarterRatio (4 * b.mantissa) b.exponent
  let low := quarterRatio (4 * b.mantissa - if b.narrowBelow then 1 else 2) b.exponent
  let high := quarterRatio (4 * b.mantissa + 2) b.exponent
  let exponent := value.magnitude - (count : Int) + 1
  let v := value.shift exponent
  let below := v.num / v.den
  let inside (c : Nat) : Bool :=
    let l := low.shift exponent
    let h := high.shift exponent
    if b.mantissa % 2 == 0 then l.num ≤ c * l.den && c * h.den ≤ h.num
    else l.num < c * l.den && c * h.den < h.num
  let rest := v.num % v.den
  let nearer :=
    if 2 * rest < v.den then below
    else if v.den < 2 * rest then below + 1
    else if below % 2 == 0 then below else below + 1
  let farther := if nearer = below then below + 1 else below
  if inside nearer then some (onGrid count nearer exponent)
  else if inside farther then some (onGrid count farther exponent)
  else none

def shortest (b : Binary) : Decimal :=
  ((List.range 17).findSome? fun n => withDigits b (n + 1)).getD ⟨b.mantissa, b.exponent⟩

/-- The decimal with a point or an exponent, which always has a sign. -/
def text (d : Decimal) : String :=
  let digits := Nat.toDigits 10 d.digits
  let length : Int := digits.length
  let point := length + d.exponent
  if 0 ≤ d.exponent ∧ point ≤ 16 then
    String.ofList (digits ++ List.replicate d.exponent.toNat '0' ++ ['.', '0'])
  else if 0 < point ∧ point ≤ 16 then
    String.ofList (digits.take point.toNat ++ '.' :: digits.drop point.toNat)
  else if -5 < point ∧ point ≤ 0 then
    String.ofList (['0', '.'] ++ List.replicate (-point).toNat '0' ++ digits)
  else
    let fraction := digits.drop 1
    String.ofList (digits.take 1 ++ (if fraction = [] then [] else '.' :: fraction)) ++
      (if 1 ≤ point then "e+" else "e") ++ toString (point - 1)

def ofBits (bits : UInt64) : String :=
  let sign := if bits.toNat >>> 63 = 1 then "-" else ""
  let b := Binary.ofBits bits
  sign ++ if b.mantissa = 0 then "0.0" else (shortest b).text

end Decimal

end LayeredTags.Json
