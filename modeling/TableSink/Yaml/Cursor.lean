/-!
# Going through a YAML text

A cursor is a position in a text together with what follows. Lines and columns matter in YAML, so a
cursor counts both. A line ends at a line feed, a carriage return, both in this order, or one of
three breaks beyond ASCII; in what a scalar holds, the first four of these read as a line feed.
-/

namespace TableSink.Yaml

/-! ## Characters -/

/-- Whether a text may hold a character at all. -/
def isAllowed (c : Char) : Bool :=
  let n := c.toNat
  n == 0x09 || n == 0x0a || n == 0x0d || (0x20 ≤ n && n ≤ 0x7e) || n == 0x85 ||
    (0xa0 ≤ n && n ≤ 0xfffd) || 0x10000 ≤ n

/-- Whether a character is a space or a tab. -/
def isSpace (c : Char) : Bool := c == ' ' || c == '\t'

/-- Whether a character ends a line. -/
def isBreak (c : Char) : Bool :=
  c == '\n' || c == '\r' || c == '\u0085' || c == '\u2028' || c == '\u2029'

/-- Whether a character parts words. -/
def isGap (c : Char) : Bool := isSpace c || isBreak c

/-- Whether a character may stand in the name of an anchor or a directive. -/
def isWordChar (c : Char) : Bool := c.isAlphanum || c == '_' || c == '-'

/-- Whether a text goes on with a character that parts words, or ends. -/
def atGap (cs : List Char) : Bool := cs.head?.all isGap

/-- Whether a line goes on with its end. -/
def atLineEnd (cs : List Char) : Bool := cs.head?.all isBreak

/-- Whether a text begins with the mark for the start or the end of a document. -/
def atDocumentMark (cs : List Char) : Bool :=
  (cs.take 3 == "---".toList || cs.take 3 == "...".toList) && atGap (cs.drop 3)

/-- A text with line breaks as a scalar holds them. -/
def unifyBreaks : List Char → List Char
  | '\r' :: '\n' :: cs => '\n' :: unifyBreaks cs
  | '\r' :: cs | '\u0085' :: cs => '\n' :: unifyBreaks cs
  | c :: cs => c :: unifyBreaks cs
  | [] => []

/-! ## Cursors -/

/-- A position in a text. -/
structure Cursor where
  /-- The text from the position on. -/
  rest : List Char
  /-- How many bytes come before the position. -/
  offset : Nat := 0
  /-- How many lines end before the position. -/
  line : Nat := 0
  /-- How many characters of the line come before the position. -/
  column : Nat := 0
deriving Repr

namespace Cursor

/-- The position behind the next character. The line feed of a pair ends the line. -/
def next (c : Cursor) : Cursor :=
  match c.rest with
  | [] => c
  | '\r' :: '\n' :: rest => ⟨'\n' :: rest, c.offset + 1, c.line, c.column⟩
  | ch :: rest =>
    if isBreak ch then ⟨rest, c.offset + ch.utf8Size, c.line + 1, 0⟩
    else ⟨rest, c.offset + ch.utf8Size, c.line, c.column + 1⟩

/-- The position some characters further on. -/
def advance : (count : Nat) → Cursor → Cursor
  | 0, c => c
  | count + 1, c => advance count c.next

/-- The longest row of characters of a class. -/
def span (c : Cursor) (p : Char → Bool) : List Char := c.rest.takeWhile p

/-- The position behind the longest row of characters of a class. -/
def skip (c : Cursor) (p : Char → Bool) : Cursor := c.advance (c.span p).length

/-- The position behind a line break; nothing happens elsewhere. -/
def skipBreak (c : Cursor) : Cursor :=
  match c.rest with
  | '\r' :: '\n' :: _ => c.next.next
  | ch :: _ => if isBreak ch then c.next else c
  | [] => c

/-- The line break that stands here, as a scalar holds it; nothing elsewhere. -/
def lineBreak (c : Cursor) : List Char :=
  match c.rest with
  | '\r' :: '\n' :: _ => ['\n']
  | ch :: _ => if isBreak ch then unifyBreaks [ch] else []
  | [] => []

/-- The position behind the spaces and the comment at the end of a line. -/
def skipComment (c : Cursor) : Cursor :=
  let c := c.skip isSpace
  if c.rest.head? = some '#' then c.skip (!isBreak ·) else c

/-- Whether the mark for the start or the end of a document stands here. -/
def atMark (c : Cursor) : Bool := c.column == 0 && atDocumentMark c.rest

/-- The position behind a byte order mark at the start of a line; the mark takes up a column. -/
def skipOrderMark (c : Cursor) : Cursor :=
  if c.column = 0 ∧ c.rest.head? = some '\ufeff' then c.next else c

end Cursor

end TableSink.Yaml
