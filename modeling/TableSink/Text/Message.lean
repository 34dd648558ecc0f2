/-!
# Messages

A message on its way to a terminal. Controls that a terminal takes for orders are escaped, so no
text that a message quotes can steer it; tabs, line ends and all other characters stay as they are.
-/

namespace TableSink.Text

/-- Whether a terminal takes a character for an order. -/
def isOrder (c : Char) : Bool :=
  ['\x07', '\x08', '\x0c', '\x1b', '\x7f'].contains c || (0x80 ≤ c.toNat && c.toNat ≤ 0x9f)

/-- A character as a message shows it. -/
def messageChar (c : Char) : List Char :=
  let digits := Nat.toDigits 16 c.toNat
  if !isOrder c then [c]
  else if c.toNat < 0x80 then "\\x".toList ++ List.replicate (2 - digits.length) '0' ++ digits
  else "\\u\x7b".toList ++ digits ++ ['\x7d']

/-- A text as a message shows it. -/
def message (s : String) : String := String.ofList (s.toList.flatMap messageChar)

example : message "\x1b[31m\t\x07\u0085" = "\\x1b[31m\t\\x07\\u\x7b85\x7d" := by decide +kernel

end TableSink.Text
