/-!
# Lines of bytes

Bytes cut into lines. Every line feed ends a line, together with one carriage return in front of it;
bytes behind the last line feed are a line of their own.
-/

namespace TableSink.Text

/-- The byte of a line feed. -/
def lineFeed : UInt8 := 0x0a

/-- The byte of a carriage return. -/
def carriageReturn : UInt8 := 0x0d

/-- A line without the carriage return at its end. -/
def dropReturn (line : List UInt8) : List UInt8 :=
  if line.getLast? = some carriageReturn then line.dropLast else line

/-- The lines of some bytes, given the bytes of the line that has begun, last one in front. -/
def linesFrom (begun : List UInt8) : List UInt8 → List (List UInt8)
  | [] => if begun = [] then [] else [begun.reverse]
  | b :: bs =>
    if b = lineFeed then dropReturn begun.reverse :: linesFrom [] bs
    else linesFrom (b :: begun) bs

/-- The lines of some bytes. -/
def byteLines (bytes : ByteArray) : List ByteArray :=
  (linesFrom [] bytes.data.toList).map fun line ↦ ⟨line.toArray⟩

example : linesFrom [] [0x61, 0x0d, 0x0a, 0x0a, 0x0d] = [[0x61], [], [0x0d]] := by decide

end TableSink.Text
