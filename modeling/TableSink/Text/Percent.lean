/-!
# Percent escapes

A byte is written as `%` and two upper case hexadecimal digits. Which characters need the escape
is decided by the format that uses it.
-/

namespace TableSink.Text

/-- The upper case hexadecimal digit of a number below sixteen. -/
def upperHexDigit (n : Nat) : Char :=
  Char.ofNat (if n < 10 then 0x30 + n else 0x41 + (n - 10))

/-- One byte as `%XX`. -/
def percentByte (b : UInt8) : List Char :=
  ['%', upperHexDigit (b.toNat / 16), upperHexDigit (b.toNat % 16)]

/-- A character as the escapes of its UTF-8 bytes. -/
def percentChar (c : Char) : List Char :=
  (String.utf8EncodeChar c).flatMap percentByte

example : percentChar 'ü' = "%C3%BC".toList := by decide

end TableSink.Text
