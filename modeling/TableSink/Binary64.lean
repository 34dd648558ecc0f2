import TableSink.Text.Numeral

/-!
# Binary floating point numbers of 64 bits

A finite number is `± significand · 2 ^ exponent`, in the one form that the width allows: 53 bits of
significand, the leading one set unless the exponent is the least. Every operation gives the number
nearest to the exact result.

The two ways between decimal and binary are not alike. `ofDecimal?` goes from a decimal to a number
by operations that are rounded one after the other, so it may miss the nearest number by a little;
`shortest` is exact, and gives the fewest decimal digits that are nearest to a number.
-/

namespace TableSink

/-- A finite binary floating point number of 64 bits. -/
structure Binary64 where
  /-- Whether the number carries a minus sign; zero may carry one. -/
  negative : Bool
  /-- The significand, below `2 ^ 53`. -/
  significand : Nat
  /-- The exponent of two, from `-1074` to `971`. -/
  exponent : Int
deriving DecidableEq, Repr

namespace Binary64

/-- The exponent of the smallest numbers. -/
def leastExponent : Int := -1074

/-- The exponent of the largest numbers. -/
def greatestExponent : Int := 971

/-- The least significand of 53 bits, `2 ^ 52`. -/
def leadingBit : Nat := 0x10000000000000

/-- Zero with a sign. -/
def zero (negative : Bool) : Binary64 := ⟨negative, 0, leastExponent⟩

/-- The number `n · b ^ e` as a fraction. -/
def scale (b n : Nat) (e : Int) : Nat × Nat :=
  if 0 ≤ e then (n * Nat.pow b e.toNat, 1) else (n, Nat.pow b (-e).toNat)

/-! ## Rounding to the nearest number -/

/-- The natural number nearest to a fraction; a half goes to the even neighbour. -/
def roundHalfEven (num den : Nat) : Nat :=
  let q := num / den
  let r := num % den
  if den < 2 * r ∨ (2 * r = den ∧ q % 2 = 1) then q + 1 else q

/-- Significand and exponent of the number nearest to a positive fraction; none beyond the largest.
The exponent is the least at which 53 bits hold the whole part. -/
def nearest? (num den : Nat) : Option (Nat × Int) :=
  let low := max ((num.log2 : Int) - den.log2 - 53) leastExponent
  let parts := fun e : Int ↦
    let two := scale 2 1 e
    (num * two.2, den * two.1)
  let e := if 2 * leadingBit ≤ (parts low).1 / (parts low).2 then low + 1 else low
  let m := roundHalfEven (parts e).1 (parts e).2
  let result := if m = 2 * leadingBit then (leadingBit, e + 1) else (m, e)
  if result.2 ≤ greatestExponent then some result else none

/-- The number nearest to a fraction; none beyond the largest. -/
def ofFraction? (num den : Nat) : Option Binary64 :=
  if num = 0 then some (zero false) else (nearest? num den).map fun r ↦ ⟨false, r.1, r.2⟩

/-! ## Reading decimals -/

/-- The product of two magnitudes; none beyond the largest number. -/
def times? (x y : Binary64) : Option Binary64 :=
  let product := scale 2 (x.significand * y.significand) (x.exponent + y.exponent)
  ofFraction? product.1 product.2

/-- The quotient of two magnitudes; none beyond the largest number. -/
def over? (x y : Binary64) : Option Binary64 :=
  let quotient := scale 2 x.significand (x.exponent - y.exponent)
  ofFraction? quotient.1 (quotient.2 * y.significand)

/-- The greatest power of ten that is a number. -/
def greatestPower : Nat := 308

/-- The number nearest to a power of ten. -/
def tenTo? (k : Nat) : Option Binary64 := ofFraction? (Nat.pow 10 k) 1

/-- Divide by the greatest power of ten so many times, as long as anything is left. -/
def shrink? : (times : Nat) → Binary64 → Option Binary64
  | 0, x => some x
  | times + 1, x =>
    if x.significand = 0 then some x
    else do shrink? times (← x.over? (← tenTo? greatestPower))

/-- A number for `digits · 10 ^ e`; none beyond the largest. The digits are rounded to a number
first, and this is multiplied with a power of ten or divided by some. -/
def ofDecimal? (negative : Bool) (digits : Nat) (e : Int) : Option Binary64 := do
  let x ← ofFraction? digits 1
  let x ←
    if 0 ≤ e then
      if e ≤ greatestPower then x.times? (← tenTo? e.toNat)
      else if digits = 0 then some x
      else none
    else do
      let times := ((-e).toNat - 1) / greatestPower
      (← x.shrink? times).over? (← tenTo? ((-e).toNat - greatestPower * times))
  return { x with negative }

/-! ## The fewest digits that round back -/

/-- In quarters of a unit of the last place: the lower end of the decimals that round to `x`, `x`
itself, and the upper end. Below a power of two the numbers lie twice as close. -/
def quarters (x : Binary64) : Nat × Nat × Nat :=
  let m := 4 * x.significand
  let low := if x.significand = leadingBit ∧ leastExponent < x.exponent then m - 1 else m - 2
  (low, m, m + 2)

/-- Whether `digits · 10 ^ k` rounds to the magnitude of `x`. The ends belong to an even `x`. -/
def roundsTo (x : Binary64) (digits : Nat) (k : Int) : Bool :=
  let (low, _, high) := x.quarters
  let unit := scale 2 1 (x.exponent - 2)
  let decimal := scale 10 digits k
  let value := decimal.1 * unit.2
  let one := unit.1 * decimal.2
  if x.significand % 2 = 0 then low * one ≤ value && value ≤ high * one
  else low * one < value && value < high * one

/-- The whole part of the magnitude of `x` in units of `10 ^ k`. -/
def wholePart (x : Binary64) (k : Int) : Nat :=
  let value := scale 2 x.significand x.exponent
  let unit := scale 10 1 k
  (value.1 * unit.2) / (value.2 * unit.1)

/-- The power of ten of the leading decimal digit of a nonzero `x`. -/
def leadingPower (x : Binary64) : Int :=
  (Text.decimalDigits (x.wholePart (-400))).length - 401

/-- Which of two neighbours on a decimal grid stands for `x`, if one rounds to it: the nearer one,
and of two equally near the even one. -/
def onGrid? (x : Binary64) (k : Int) : Option Nat :=
  let below := x.wholePart k
  match x.roundsTo below k, x.roundsTo (below + 1) k with
  | false, false => none
  | true, false => some below
  | false, true => some (below + 1)
  | true, true =>
    let value := scale 2 x.significand x.exponent
    let unit := scale 10 1 k
    some (roundHalfEven (value.1 * unit.2) (value.2 * unit.1))

/-- A row of digits without the zeros at its end, and the power of ten of its last digit. -/
def trimZeros : (fuel : Nat) → Nat → Int → Nat × Int
  | 0, digits, k => (digits, k)
  | fuel + 1, digits, k =>
    if digits ≠ 0 ∧ digits % 10 = 0 then trimZeros fuel (digits / 10) (k + 1) else (digits, k)

/-- The fewest digits whose decimal rounds to the magnitude of `x`, with the power of ten of the
last one. Seventeen digits are always enough. -/
def shortest (x : Binary64) : Nat × Int :=
  if x.significand = 0 then (0, 0)
  else
    let top := x.leadingPower
    let hit := (List.range 17).findSome? fun (n : Nat) ↦
      let k := top - (n : Int)
      (x.onGrid? k).map fun digits ↦ (digits, k)
    let found := hit.getD (x.wholePart (top - 16), top - 16)
    trimZeros 17 found.1 found.2

example : (ofDecimal? false 5 (-324)).map shortest = some (5, -324) := by decide +kernel

example : (ofDecimal? false 17976931348623159 292) = none := by decide +kernel

example : (ofDecimal? false 90071992547409930 (-1)).map shortest = some (9007199254740994, 0) := by
  decide +kernel

end Binary64

end TableSink
