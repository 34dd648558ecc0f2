import TableSink.Json.Basic

/-!
# Reading JSON values

The reader works on a list of characters and gives what it read together with the rest. A fault
says whether the text ended too early or went wrong before its end. Arrays and objects may nest up
to a fixed depth.

Values are read in one of two ways: *kept*, as trees, or *passed over*. What is passed over is
checked for its shape only: it may nest to any depth, and neither the size of a number nor the
pairing of surrogates matters there.
-/

namespace TableSink.Json

/-- Why a text is not taken. -/
inductive Fault where
  /-- The text breaks the grammar or a limit of the reader. -/
  | malformed
  /-- The text ends inside a value or before one. -/
  | truncated
  /-- The text is well formed and holds a value of another shape or range than asked for. -/
  | mismatch
deriving DecidableEq, Repr

/-- The tag that stands for a fault in a message. -/
def Fault.tag : Fault → String
  | .malformed => "<json:Syntax>"
  | .truncated => "<json:Eof>"
  | .mismatch => "<json:Data>"

/-- Reads something off the front of a text. -/
abbrev Reader (α : Type) := List Char → Except Fault (α × List Char)

/-- How a value is read. -/
inductive Manner where
  /-- The value is wanted. -/
  | kept
  /-- The value is only passed over. -/
  | passed
deriving DecidableEq

/-- How deep arrays and objects may nest in a value that is kept. -/
def depthLimit : Nat := 127

/-! ## Characters -/

/-- Whether a character may stand between the parts of a value. -/
def isSpace (c : Char) : Bool := c == ' ' || c == '\t' || c == '\n' || c == '\r'

/-- The text behind the spaces at its front. -/
def skipSpace (cs : List Char) : List Char := cs.dropWhile isSpace

/-- Whether a character is a decimal digit. -/
def isDigit (c : Char) : Bool := '0' ≤ c && c ≤ '9'

/-- The rest of a word whose first letter was read. -/
def word : (letters : List Char) → List Char → Except Fault (List Char)
  | [], cs => .ok cs
  | _ :: _, [] => .error .truncated
  | l :: ls, c :: cs => if l = c then word ls cs else .error .malformed

/-! ## Strings -/

/-- Four hexadecimal digits. Fewer than four bytes left count as an early end. -/
def hexDigits (cs : List Char) : Except Fault Nat :=
  let four := cs.take 4
  if (String.ofList four).utf8ByteSize < 4 then .error .truncated
  else match Text.numeral? 16 four with
    | some n => if four.length = 4 then .ok n else .error .malformed
    | none => .error .malformed

/-- The character of an escape behind `\u`, and how many characters it takes. Characters beyond the
first plane are written as two surrogates. -/
def unicodeEscape (manner : Manner) (cs : List Char) : Except Fault (Char × Nat) := do
  let first ← hexDigits cs
  if manner = .passed then return (Char.ofNat first, 4)
  if 0xdc00 ≤ first ∧ first ≤ 0xdfff then throw .malformed
  if first < 0xd800 ∨ 0xdbff < first then return (Char.ofNat first, 4)
  match cs.drop 4 with
  | [] | ['\\'] => throw .truncated
  | '\\' :: 'u' :: rest =>
    let second ← hexDigits rest
    if 0xdc00 ≤ second ∧ second ≤ 0xdfff then
      return (Char.ofNat (0x10000 + (first - 0xd800) * 0x400 + (second - 0xdc00)), 10)
    else throw .malformed
  | _ => throw .malformed

/-- The character of an escape behind the backslash, and how many characters it takes. -/
def escape (manner : Manner) : List Char → Except Fault (Char × Nat)
  | [] => .error .truncated
  | 'u' :: cs => (unicodeEscape manner cs).map fun r ↦ (r.1, r.2 + 1)
  | c :: _ =>
    match [('\x22', '\x22'), ('\\', '\\'), ('/', '/'), ('b', '\x08'), ('f', '\x0c'), ('n', '\n'),
        ('r', '\r'), ('t', '\t')].lookup c with
    | some meant => .ok (meant, 1)
    | none => .error .malformed

/-- The characters up to the closing quote, behind the first `skip` characters. -/
def stringBody (manner : Manner) : (skip : Nat) → Reader (List Char)
  | _, [] => .error .truncated
  | skip + 1, _ :: cs => stringBody manner skip cs
  | 0, c :: cs =>
    if c = '\x22' then .ok ([], cs)
    else if c = '\\' then do
      let (meant, taken) ← escape manner cs
      let (body, rest) ← stringBody manner taken cs
      return (meant :: body, rest)
    else if c.toNat < 0x20 then .error .malformed
    else do
      let (body, rest) ← stringBody manner 0 cs
      return (c :: body, rest)

/-- A string behind its opening quote. -/
def readString (manner : Manner) : Reader String := fun cs ↦
  (stringBody manner 0 cs).map fun r ↦ (String.ofList r.1, r.2)

/-! ## Numbers -/

/-- The fault of a number that breaks off: an early end if nothing follows. -/
def numberFault (manner : Manner) (rest : List Char) : Fault :=
  if manner = .kept ∧ rest = [] then .truncated else .malformed

/-- The digits in front of the point: a single zero, or a row that does not begin with one. -/
def wholeDigits (manner : Manner) : Reader (List Char)
  | '0' :: cs => if cs.head?.any isDigit then .error .malformed else .ok (['0'], cs)
  | cs =>
    let digits := cs.takeWhile isDigit
    if digits = [] then .error (numberFault manner cs) else .ok (digits, cs.drop digits.length)

/-- At least one digit. -/
def someDigits (manner : Manner) : Reader (List Char) := fun cs ↦
  let digits := cs.takeWhile isDigit
  if digits = [] then .error (numberFault manner cs) else .ok (digits, cs.drop digits.length)

/-- The digits behind the point; none without a point. -/
def fractionDigits (manner : Manner) : Reader (Option (List Char))
  | '.' :: cs => (someDigits manner cs).map fun r ↦ (some r.1, r.2)
  | cs => .ok (none, cs)

/-- The exponent; none without its letter. -/
def exponent (manner : Manner) : Reader (Option Int)
  | c :: cs =>
    if c = 'e' ∨ c = 'E' then
      let (negative, digits) := match cs with
        | '-' :: rest => (true, rest)
        | '+' :: rest => (false, rest)
        | _ => (false, cs)
      (someDigits manner digits).map fun r ↦
        let n : Int := Text.ofDecimalDigits r.1
        (some (if negative then -n else n), r.2)
    else .ok (none, c :: cs)
  | [] => .ok (none, [])

/-- Digits read behind a number that was read before, as far as 64 bits reach, and how many digits
are left then. -/
def fillDigits (n : Nat) : List Char → Nat × Nat
  | [] => (n, 0)
  | c :: cs =>
    let next := n * 10 + (c.toNat - 0x30)
    if next < UInt64.size then fillDigits next cs else (n, cs.length + 1)

/-- The number of its parts. Without fraction and exponent it is an integer as far as 64 bits reach,
a zero with a minus sign excepted. Digits beyond that only tell how large it is. -/
def numberOfParts (negative : Bool) (whole : List Char) (fraction : Option (List Char))
    (power : Option Int) : Option Number :=
  let n := Text.ofDecimalDigits whole
  let plain := fraction.isNone && power.isNone
  if plain && !negative && n < UInt64.size then some (.integer n)
  else if plain && negative && n != 0 && n ≤ UInt64.size / 2 then some (.integer (-n))
  else
    let behind := fraction.getD []
    let (n, more) := fillDigits 0 whole
    let (n, less) := fillDigits n behind
    (Binary64.ofDecimal? negative n (power.getD 0 + more - (behind.length - less : Nat))).map .real

/-- A number, sign included. -/
def readNumber (manner : Manner) : Reader Number := fun cs ↦ do
  let (negative, cs) := match cs with
    | '-' :: rest => (true, rest)
    | _ => (false, cs)
  let (whole, cs) ← wholeDigits manner cs
  let (fraction, cs) ← fractionDigits manner cs
  let (power, cs) ← exponent manner cs
  match manner, numberOfParts negative whole fraction power with
  | .kept, none => throw .malformed
  | _, n => return (n.getD (.integer 0), cs)

/-! ## Values -/

/-- Items with commas between them, up to the closing bracket. The text bounds their number. -/
def readItems {α : Type} (item : Reader α) : (fuel : Nat) → Reader (List α)
  | 0, _ => .error .truncated
  | fuel + 1, cs => do
    let (first, cs) ← item cs
    match skipSpace cs with
    | ',' :: cs =>
      let (others, cs) ← readItems item fuel cs
      return (first :: others, cs)
    | ']' :: cs => return ([first], cs)
    | [] => throw .truncated
    | _ => throw .malformed

/-- The name of a member. -/
def readName (manner : Manner) : Reader String := fun cs ↦
  match skipSpace cs with
  | '\x22' :: cs => readString manner cs
  | [] => .error .truncated
  | _ => .error .malformed

/-- The colon behind the name of a member. -/
def readColon (cs : List Char) : Except Fault (List Char) :=
  match skipSpace cs with
  | ':' :: cs => .ok cs
  | [] => .error .truncated
  | _ => .error .malformed

/-- Members with commas between them, up to the closing brace. The text bounds their number. -/
def readMembers {α : Type} (manner : Manner) (value : Reader α) :
    (fuel : Nat) → Reader (List (String × α))
  | 0, _ => .error .truncated
  | fuel + 1, cs => do
    let (name, cs) ← readName manner cs
    let cs ← readColon cs
    let (first, cs) ← value cs
    match skipSpace cs with
    | ',' :: cs =>
      let (others, cs) ← readMembers manner value fuel cs
      return ((name, first) :: others, cs)
    | '\x7d' :: cs => return ([(name, first)], cs)
    | [] => throw .truncated
    | _ => throw .malformed

/-- A value that is neither an array nor an object, from its first character on. -/
def readScalar (manner : Manner) : Reader Json
  | 'n' :: cs => (word "ull".toList cs).map (.null, ·)
  | 't' :: cs => (word "rue".toList cs).map (.boolean true, ·)
  | 'f' :: cs => (word "alse".toList cs).map (.boolean false, ·)
  | '\x22' :: cs => (readString manner cs).map fun r ↦ (.string r.1, r.2)
  | c :: cs =>
    if c = '-' ∨ isDigit c then (readNumber manner (c :: cs)).map fun r ↦ (.number r.1, r.2)
    else .error .malformed
  | [] => .error .truncated

/-- A value in which arrays and objects nest up to `depth` times. -/
def readValue (manner : Manner) : (depth : Nat) → Reader Json
  | 0, cs =>
    match skipSpace cs with
    | '[' :: _ | '\x7b' :: _ => .error .malformed
    | cs => readScalar manner cs
  | depth + 1, cs =>
    match skipSpace cs with
    | '[' :: cs =>
      match skipSpace cs with
      | ']' :: cs => .ok (.array [], cs)
      | cs => (readItems (readValue manner depth) (cs.length + 1) cs).map fun r ↦ (.array r.1, r.2)
    | '\x7b' :: cs =>
      match skipSpace cs with
      | '\x7d' :: cs => .ok (.object [], cs)
      | cs =>
        (readMembers manner (readValue manner depth) (cs.length + 1) cs).map fun r ↦
          (.object r.1, r.2)
    | cs => readScalar manner cs

/-- Pass over a value. -/
def passValue : Reader Unit := fun cs ↦ (readValue .passed cs.length cs).map fun r ↦ ((), r.2)

/-- What a reader makes of a whole text; only spaces may be left. -/
def readAll {α : Type} (read : Reader α) (text : String) : Except Fault α := do
  let (result, rest) ← read text.toList
  if skipSpace rest = [] then return result else throw .malformed

/-- The canonical value that a text holds. -/
def parse (text : String) : Except Fault Json :=
  (readAll (readValue .kept depthLimit) text).map canonical

example : (parse "[1, -0, \"\\u00e9\"]").toOption.map kind = some "array" := by decide +kernel

end TableSink.Json
