import TableSink.Json.Basic

/-!
# Writing JSON

Values are written without spaces, members in the order in which they stand. In a string only the
quote, the backslash and the control characters below the space are escaped. A floating point number
is written with the fewest digits that read back as it.
-/

namespace TableSink

/-- How floating point numbers are written: which powers of ten of the leading digit are written
out, and what stands in front of an exponent. -/
structure NumberFormat where
  /-- The least power of ten that is written out. -/
  leastPlain : Int
  /-- The greatest power of ten that is written out. -/
  greatestPlain : Int
  /-- The sign in front of an exponent that is not negative. -/
  plus : List Char

namespace Json

/-- Numbers are written out from `10 ^ -5` to below `10 ^ 16`; an exponent always has its sign. -/
def numberFormat : NumberFormat := ⟨-5, 15, ['+']⟩

/-- The digits `digits · 10 ^ k` written out, always with a fraction. -/
def plainText (digits : List Char) (k : Int) : List Char :=
  let point := (digits.length : Int) + k
  if 0 ≤ k then digits ++ List.replicate k.toNat '0' ++ ".0".toList
  else if 0 < point then digits.take point.toNat ++ '.' :: digits.drop point.toNat
  else "0.".toList ++ List.replicate (-point).toNat '0' ++ digits

/-- The digits `digits · 10 ^ k` as one digit, a fraction if there are more, and an exponent. -/
def exponentText (plus digits : List Char) (k : Int) : List Char :=
  let power := (digits.length : Int) + k - 1
  let sign := if power < 0 then ['-'] else plus
  let mantissa := match digits with
    | [] => []
    | [d] => [d]
    | d :: ds => d :: '.' :: ds
  mantissa ++ 'e' :: sign ++ Text.decimalDigits power.natAbs

/-- A floating point number. -/
def realText (x : Binary64) : List Char :=
  let sign := if x.negative then ['-'] else []
  if x.significand = 0 then sign ++ "0.0".toList
  else
    let (digits, k) := x.shortest
    let ds := Text.decimalDigits digits
    let power := (ds.length : Int) + k - 1
    sign ++
      if numberFormat.leastPlain ≤ power ∧ power ≤ numberFormat.greatestPlain then plainText ds k
      else exponentText numberFormat.plus ds k

/-- An integer. -/
def integerText (n : Int) : List Char :=
  (if n < 0 then ['-'] else []) ++ Text.decimalDigits n.natAbs

/-- A number. -/
def Number.render : Number → List Char
  | .integer n => integerText n
  | .real x => realText x

/-- The lower case hexadecimal digit of a number below sixteen. -/
def lowerHexDigit (n : Nat) : Char :=
  Char.ofNat (if n < 10 then 0x30 + n else 0x61 + (n - 10))

/-- A character inside a string. -/
def escapeChar (c : Char) : List Char :=
  if c = '\x22' then ['\\', '\x22']
  else if c = '\\' then ['\\', '\\']
  else if 0x20 ≤ c.toNat then [c]
  else match c.toNat with
    | 0x08 => ['\\', 'b']
    | 0x09 => ['\\', 't']
    | 0x0a => ['\\', 'n']
    | 0x0c => ['\\', 'f']
    | 0x0d => ['\\', 'r']
    | n => ['\\', 'u', '0', '0', lowerHexDigit (n / 16), lowerHexDigit (n % 16)]

/-- A string in quotes. -/
def stringText (s : String) : List Char :=
  '\x22' :: s.toList.flatMap escapeChar ++ ['\x22']

mutual
/-- The written form of a value. -/
def render : Json → List Char
  | .null => "null".toList
  | .boolean b => if b then "true".toList else "false".toList
  | .number n => n.render
  | .string s => stringText s
  | .array items => '[' :: renderItems items ++ [']']
  | .object members => '\x7b' :: renderMembers members ++ ['\x7d']

/-- Items with commas between them. -/
def renderItems : List Json → List Char
  | [] => []
  | [item] => render item
  | item :: next :: items => render item ++ ',' :: renderItems (next :: items)

/-- Members with commas between them. -/
def renderMembers : List (String × Json) → List Char
  | [] => []
  | [(name, value)] => stringText name ++ ':' :: render value
  | (name, value) :: next :: members =>
    stringText name ++ ':' :: render value ++ ',' :: renderMembers (next :: members)
end

/-- The text of a value. -/
def text (v : Json) : String := String.ofList v.render

end Json

end TableSink
