/-!
# Numerals

Natural numbers written in positional notation, most significant digit first.
-/

namespace TableSink.Text

/-- The value of a digit in a base up to sixteen, letters in either case. -/
def digitValue? (base : Nat) (c : Char) : Option Nat :=
  let value :=
    if '0' ≤ c ∧ c ≤ '9' then some (c.toNat - 0x30)
    else if 'a' ≤ c ∧ c ≤ 'f' then some (c.toNat - 0x61 + 10)
    else if 'A' ≤ c ∧ c ≤ 'F' then some (c.toNat - 0x41 + 10)
    else none
  value.filter (· < base)

/-- The number that a row of digits stands for; none without a digit or with a foreign character. -/
def numeral? (base : Nat) (cs : List Char) : Option Nat :=
  if cs = [] then none
  else cs.foldlM (fun value c ↦ (digitValue? base c).map (value * base + ·)) 0

/-- The number that a row of decimal digits stands for, other characters counted as they come. -/
def ofDecimalDigits (cs : List Char) : Nat :=
  cs.foldl (fun value c ↦ value * 10 + (c.toNat - 0x30)) 0

/-- The decimal digits of a number. -/
def decimalDigits (n : Nat) : List Char := Nat.toDigits 10 n

example : numeral? 16 "fF".toList = some 255 := by decide +kernel

example : numeral? 8 "8".toList = none := by decide +kernel

end TableSink.Text
