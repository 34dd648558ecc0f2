import TableSink.Yaml.Scalar

/-!
# Tokens

The marks and scalars of a YAML text in a row, with tokens of their own where indentation opens and
closes a block. What is a key shows only at the colon behind it: every place where a key may begin
is remembered, and the tokens that open a mapping are put in there afterwards.

A remembered place is given up at the end of its line or after a certain number of bytes. Where
the indentation says that there has to be a key, giving it up is an error.
-/

namespace TableSink.Yaml

/-- A part of a YAML text. -/
inductive Token where
  /-- The directive that names a version. -/
  | version (major minor : Nat)
  /-- The directive that lets a handle stand for the start of tags. -/
  | tagHandle (handle : String) (start : List UInt8)
  | documentStart
  | documentEnd
  /-- A sequence whose entries are lines begins. -/
  | blockSequence
  /-- A mapping whose entries are lines begins. -/
  | blockMapping
  /-- Either of them ends. -/
  | blockEnd
  /-- The dash in front of an entry. -/
  | entry
  | flowSequence
  | flowSequenceEnd
  | flowMapping
  | flowMappingEnd
  /-- The comma between the entries of a flow collection. -/
  | flowEntry
  /-- A key follows. -/
  | key
  /-- A value follows. -/
  | value
  | alias (name : String)
  | anchor (name : String)
  /-- A tag: a handle and the bytes behind it. -/
  | tag (handle : String) (suffix : List UInt8)
  | scalar (text : String) (style : Style)
deriving DecidableEq, Repr

namespace Token

/-! ## Words -/

/-- The name behind the mark of an anchor or alias, and the position behind it. -/
def anchorName (c : Cursor) : Option (String × Cursor) :=
  let c := c.next
  let name := c.span isWordChar
  let last := c.advance name.length
  if name ≠ [] ∧ (atGap last.rest ∨
      last.rest.head?.any (['?', ':', ',', ']', '\x7d', '%', '@', '\x60'].contains ·)) then
    some (String.ofList name, last)
  else none

/-- Whether a tag holds a character as it is; between angle brackets some more may stand there. -/
def isTagChar (bracketed : Bool) (c : Char) : Bool :=
  isWordChar c ||
    [';', '/', '?', ':', '@', '&', '=', '+', '$', '.', '!', '~', '*', '\x27', '(',
      ')'].contains c ||
    (bracketed && [',', '[', ']'].contains c)

/-- A byte in escaped form behind the percent sign. -/
def escapedByte? (cs : List Char) : Option UInt8 :=
  if (cs.take 2).length = 2 then (Text.numeral? 16 (cs.take 2)).map Nat.toUInt8 else none

/-- Bytes in escaped form that go on a character. -/
def escapedTail : (count : Nat) → List Char → Option (List UInt8)
  | 0, _ => some []
  | count + 1, '%' :: cs => do
    let byte ← escapedByte? cs
    if byte &&& 0xc0 = 0x80 then return byte :: (← escapedTail count (cs.drop 2)) else none
  | _, _ => none

/-- The bytes of a character in escaped form behind the first percent sign. The first byte says how
many there are; nothing more is asked of them. -/
def escapedBytes? (cs : List Char) : Option (List UInt8) := do
  let first ← escapedByte? cs
  let more ← if first < 0x80 then some 0 else if first < 0xc0 then none
    else if first < 0xe0 then some 1 else if first < 0xf0 then some 2
    else if first < 0xf8 then some 3 else none
  return first :: (← escapedTail more (cs.drop 2))

/-- The bytes of a row of characters for tags behind the first `skip` ones, and how many characters
they take. -/
def tagBytes (bracketed : Bool) : (skip : Nat) → List Char → Option (List UInt8 × Nat)
  | _, [] => some ([], 0)
  | skip + 1, _ :: cs => (tagBytes bracketed skip cs).map fun r ↦ (r.1, r.2 + 1)
  | 0, c :: cs =>
    if c = '%' then do
      let bytes ← escapedBytes? cs
      let (others, count) ← tagBytes bracketed (3 * bytes.length - 1) cs
      return (bytes ++ others, count + 1)
    else if isTagChar bracketed c then do
      let (others, count) ← tagBytes bracketed 0 cs
      return (String.utf8EncodeChar c ++ others, count + 1)
    else some ([], 0)

/-- A part of a tag, and how many characters it takes. A zero byte ends what is meant, not what is
written. -/
def tagPart (bracketed : Bool) (cs : List Char) : Option (List UInt8 × Nat) :=
  (tagBytes bracketed 0 cs).map fun r ↦ (r.1.takeWhile (· ≠ 0), r.2)

/-- The start of a tag up to a second exclamation mark, if there is one behind a word. -/
def tagHandle? (cs : List Char) : Option (List Char) :=
  let name := cs.tail.takeWhile isWordChar
  if cs.head? = some '!' ∧ (cs.drop (name.length + 1)).head? = some '!' then
    some ('!' :: name ++ ['!'])
  else none

/-- A tag: its handle and what is behind it, and the position behind both. -/
def tagParts (c : Cursor) : Option (String × List UInt8 × Cursor) :=
  if c.rest.take 2 = ['!', '<'] then do
    let (bytes, count) ← tagPart true (c.rest.drop 2)
    let last := c.advance (count + 2)
    if count ≠ 0 ∧ last.rest.head? = some '>' then return ("", bytes, last.next) else none
  else
    match tagHandle? c.rest with
    | some handle => do
      let (bytes, count) ← tagPart false (c.rest.drop handle.length)
      if count = 0 then none
      else return (String.ofList handle, bytes, c.advance (handle.length + count))
    | none => do
      let (bytes, count) ← tagPart false (c.rest.drop 1)
      let last := c.advance (count + 1)
      return if bytes = [] then ("", String.utf8EncodeChar '!', last) else ("!", bytes, last)

/-- A tag and the position behind it, where something has to part it from what follows. -/
def readTag (flow : Bool) (c : Cursor) : Option (Token × Cursor) := do
  let (handle, suffix, last) ← tagParts c
  if atGap last.rest || (flow && last.rest.head? == some ',') then
    return (.tag handle suffix, last)
  else none

/-! ## Directives -/

/-- A row of at most nine digits. -/
def versionNumber (c : Cursor) : Option (Nat × Cursor) := do
  let digits := c.span Char.isDigit
  if 9 < digits.length then none
  else return (← Text.numeral? 10 digits, c.advance digits.length)

/-- A directive from its percent sign on, and the line behind it. -/
def readDirective (c : Cursor) : Option (Token × Cursor) := do
  let name := c.next.span isWordChar
  let c := c.advance (name.length + 1)
  if !atGap c.rest then none
  else
    let c := c.skip isSpace
    let (token, c) ← match String.ofList name with
      | "YAML" => do
        let (major, c) ← versionNumber c
        if c.rest.head? ≠ some '.' then none
        else
          let (minor, c) ← versionNumber c.next
          some (Token.version major minor, c)
      | "TAG" => do
        let handle ← (tagHandle? c.rest).orElse fun _ ↦
          if c.rest.head? = some '!' ∧ !(c.rest.tail.head?.any isWordChar) then some ['!'] else none
        let c := c.advance handle.length
        if !(c.rest.head?.any isSpace) then none
        else
          let c := c.skip isSpace
          let (start, count) ← tagPart true c.rest
          let c := c.advance count
          if count ≠ 0 ∧ atGap c.rest then some (.tagHandle (String.ofList handle) start, c)
          else none
      | _ => none
    let c := c.skipComment
    if atLineEnd c.rest then return (token, c.skipBreak) else none

end Token

/-! ## Scanning -/

/-- A place where a key may begin. -/
structure KeyPlace where
  /-- How many tokens come before it. -/
  before : Nat
  /-- Whether the indentation says that there is a key. -/
  required : Bool
  /-- Where it is. -/
  position : Cursor

/-- How far a text was read. -/
structure Scanner where
  cursor : Cursor
  /-- The tokens so far, the last one in front. -/
  tokens : List Token := []
  /-- The columns of the open blocks, innermost in front. -/
  indents : List Nat := []
  /-- For the block and every open flow collection, innermost in front, where its next key may
  begin. -/
  keys : List (Option KeyPlace) := [none]
  /-- Whether a key may begin here. -/
  keyAllowed : Bool := true

namespace Scanner

/-- How many bytes a key may take when nothing is written in front of it. -/
def keyLimit : Nat := 1024

/-- Whether the text is in a flow collection. -/
def inFlow (s : Scanner) : Bool := 1 < s.keys.length

/-- The scanner with one more token. -/
def push (s : Scanner) (t : Token) : Scanner := { s with tokens := t :: s.tokens }

/-- The scanner with a token put in behind the first `count` ones. -/
def insert (s : Scanner) (count : Nat) (t : Token) : Scanner :=
  let behind := s.tokens.length - count
  { s with tokens := s.tokens.take behind ++ t :: s.tokens.drop behind }

/-- The scanner at another position. -/
def moveTo (s : Scanner) (c : Cursor) : Scanner := { s with cursor := c }

/-- The scanner with one more token, some characters further on. -/
def take (s : Scanner) (t : Token) (count : Nat) : Scanner :=
  (s.push t).moveTo (s.cursor.advance count)

/-- The scanner where a key may begin, or may not. -/
def allowKey (s : Scanner) (allowed : Bool) : Scanner := { s with keyAllowed := allowed }

/-! ### Indentation -/

/-- Open a block at a column if it lies deeper than the blocks that are open. -/
def roll (s : Scanner) (column before : Nat) (t : Token) : Scanner :=
  if !s.inFlow && s.indents.head?.all (· < column) then
    { s.insert before t with indents := column :: s.indents }
  else s

/-- Open a block at the position if it lies deeper than the blocks that are open. -/
def rollHere (s : Scanner) (t : Token) : Scanner := s.roll s.cursor.column s.tokens.length t

/-- Close the blocks that lie deeper than a column, or all of them. -/
def unroll (s : Scanner) (column : Option Nat) : Scanner :=
  if s.inFlow then s
  else
    let closed := s.indents.takeWhile fun indent ↦ column.all (· < indent)
    { s with
      tokens := closed.map (fun _ ↦ Token.blockEnd) ++ s.tokens
      indents := s.indents.drop closed.length }

/-! ### Places of keys -/

/-- Give up a place where there may have been a key. -/
def dropKey (s : Scanner) : Option Scanner :=
  match s.keys with
  | some place :: keys => if place.required then none else some { s with keys := none :: keys }
  | _ => some s

/-- Remember the position as the place of a key if one may begin here. -/
def saveKey (s : Scanner) : Option Scanner :=
  if s.keyAllowed then do
    let required := !s.inFlow && s.indents.head? == some s.cursor.column
    let s ← s.dropKey
    return { s with keys := some ⟨s.tokens.length, required, s.cursor⟩ :: s.keys.tail }
  else some s

/-- Give up the places that are too far back. -/
def dropStale (s : Scanner) : Option Scanner := do
  let keys ← s.keys.mapM fun
    | some place =>
      if place.position.line < s.cursor.line ∨
          place.position.offset + keyLimit < s.cursor.offset then
        if place.required then none else some none
      else some (some place)
    | none => some none
  return { s with keys }

/-! ### Steps -/

/-- Go on to the next token, past spaces, comments and line ends. In a block a new line may begin
with a key. Tabs count as spaces only where no key may begin, and byte order marks only at the start
of a line. -/
def skipToToken : (fuel : Nat) → Scanner → Scanner
  | 0, s => s
  | fuel + 1, s =>
    let tabs := s.inFlow || !s.keyAllowed
    let c := s.cursor.skipOrderMark.skip fun c ↦ c == ' ' || (tabs && c == '\t')
    let c := if c.rest.head? = some '#' then c.skip (!isBreak ·) else c
    if c.rest.head?.any isBreak then
      skipToToken fuel { s with cursor := c.skipBreak, keyAllowed := s.keyAllowed || !s.inFlow }
    else s.moveTo c

/-- Begin a line that belongs to no block. -/
def leaveBlocks (s : Scanner) : Option Scanner :=
  (s.unroll none).dropKey.map (·.allowKey false)

/-- A flow collection begins. -/
def openFlow (s : Scanner) (t : Token) : Option Scanner := do
  let s ← s.saveKey
  return ({ s with keys := none :: s.keys }.allowKey true).take t 1

/-- A flow collection ends. -/
def closeFlow (s : Scanner) (t : Token) : Option Scanner := do
  let s ← s.dropKey
  let s := if s.inFlow then { s with keys := s.keys.tail } else s
  return (s.allowKey false).take t 1

/-- A dash or a question mark in front of an entry. -/
def openEntry (s : Scanner) (block mark : Token) (allowed : Bool) : Option Scanner :=
  if !s.inFlow && !s.keyAllowed then none
  else do
    let s ← (s.rollHere block).dropKey
    return (s.allowKey allowed).take mark 1

/-- A colon in front of a value. -/
def openValue (s : Scanner) : Option Scanner :=
  match s.keys with
  | some place :: keys =>
    let s := (s.insert place.before .key).roll place.position.column place.before .blockMapping
    some (({ s with keys := none :: keys }.allowKey false).take .value 1)
  | _ =>
    if s.inFlow then some ((s.allowKey false).take .value 1)
    else if s.keyAllowed then some (((s.rollHere .blockMapping).allowKey true).take .value 1)
    else none

/-- Something that a key may begin with. -/
def openContent (s : Scanner) (content : Option (Token × Cursor)) : Option Scanner := do
  let s ← s.saveKey
  let (token, c) ← content
  return ((s.allowKey false).push token).moveTo c

/-- A plain scalar. Behind a line end a key may begin. -/
def plain (s : Scanner) : Option Scanner := do
  let indent := s.indents.head?.elim 0 (· + 1)
  let s ← s.saveKey
  let (text, c, broken) ← Scalar.plain s.inFlow indent s.cursor
  return ((s.allowKey broken).push (.scalar (String.ofList text) .plain)).moveTo c

/-- A block scalar. -/
def block (s : Scanner) (style : Style) : Option Scanner := do
  let s ← s.dropKey
  let (text, c) ← Scalar.block style s.indents.head? s.cursor.next
  return ((s.allowKey true).push (.scalar (String.ofList text) style)).moveTo c

/-- Whether a character is a mark of the notation. -/
def isIndicator (c : Char) : Bool :=
  ['-', '?', ':', ',', '[', ']', '\x7b', '\x7d', '#', '&', '*', '!', '|', '>', '\x27', '\x22', '%',
    '@', '\x60'].contains c

/-- Whether a plain scalar begins with this character, given what follows it. -/
def startsPlain (flow : Bool) (c : Char) (cs : List Char) : Bool :=
  (!isGap c && !isIndicator c) || (c == '-' && !cs.head?.any isSpace) ||
    (!flow && (c == '?' || c == ':') && !atGap cs)

/-- A quoted scalar as a token. -/
def readQuoted (quote : Char) (c : Cursor) : Option (Token × Cursor) :=
  (Scalar.quoted quote c).map fun r ↦ (.scalar (String.ofList r.1) .quoted, r.2)

/-- Read one token that begins with the character `ch`. -/
def readToken (s : Scanner) (ch : Char) (cs : List Char) : Option Scanner :=
  let flow := s.inFlow
  let c := s.cursor
  if c.column = 0 ∧ ch = '%' then do
    let s ← s.leaveBlocks
    let (token, c) ← Token.readDirective c
    return (s.push token).moveTo c
  else if c.atMark then
    s.leaveBlocks.map (·.take (if ch = '-' then .documentStart else .documentEnd) 3)
  else if ch = '[' then s.openFlow .flowSequence
  else if ch = '\x7b' then s.openFlow .flowMapping
  else if ch = ']' then s.closeFlow .flowSequenceEnd
  else if ch = '\x7d' then s.closeFlow .flowMappingEnd
  else if ch = ',' then s.dropKey.map fun s ↦ (s.allowKey true).take .flowEntry 1
  else if ch = '-' ∧ atGap cs then s.openEntry .blockSequence .entry true
  else if ch = '?' ∧ (flow ∨ atGap cs) then s.openEntry .blockMapping .key (!flow)
  else if ch = ':' ∧ (flow ∨ atGap cs) then s.openValue
  else if ch = '*' then
    s.openContent ((Token.anchorName c).map fun r ↦ (.alias r.1, r.2))
  else if ch = '&' then
    s.openContent ((Token.anchorName c).map fun r ↦ (.anchor r.1, r.2))
  else if ch = '!' then s.openContent (Token.readTag flow c)
  else if ch = '|' ∧ !flow then s.block .literal
  else if ch = '>' ∧ !flow then s.block .folded
  else if ch = '\x27' ∨ ch = '\x22' then s.openContent (readQuoted ch c)
  else if startsPlain flow ch cs then s.plain
  else none

/-- Read the tokens that are left. -/
def finish : (fuel : Nat) → Scanner → Option (List Token)
  | 0, _ => none
  | fuel + 1, s => do
    let s ← (s.skipToToken (s.cursor.rest.length + 1)).dropStale
    let s := s.unroll (some s.cursor.column)
    match s.cursor.rest with
    | [] => s.leaveBlocks.map (·.tokens.reverse)
    | ch :: cs => finish fuel (← s.readToken ch cs)

end Scanner

/-- The tokens of a text. -/
def Token.ofText? (text : String) : Option (List Token) :=
  let cs := text.toList
  if cs.all isAllowed then Scanner.finish (cs.length + 1) { cursor := { rest := cs } } else none

end TableSink.Yaml
