import TableSink.Text.Numeral
import TableSink.Yaml.Cursor

/-!
# Scalars

The text of a scalar in each of the styles in which it can be written. In all of them but one, lines
are *folded*: a single line break between words reads as a space, and of several in a row all but
the first stay.
-/

namespace TableSink.Yaml

/-- How a scalar is written. -/
inductive Style where
  /-- Without any mark. -/
  | plain
  /-- Between quotes of either kind. -/
  | quoted
  /-- As indented lines that stay lines. -/
  | literal
  /-- As indented lines that are folded. -/
  | folded
deriving DecidableEq, Repr

namespace Scalar

/-- What a row of spaces and breaks between words reads as. Spaces around a break do not count; if
the first break was `escaped`, it does not count either. -/
def foldGap (escaped : Bool) (gap : List Char) : List Char :=
  let gap := unifyBreaks gap
  match escaped, gap.filter isBreak with
  | false, [] => gap
  | false, ['\n'] => [' ']
  | false, '\n' :: breaks => breaks
  | _, breaks => breaks

/-! ## Plain scalars -/

/-- The characters that part the items of a flow collection. -/
def isFlowMark (c : Char) : Bool := [',', '[', ']', '\x7b', '\x7d'].contains c

/-- A word of a plain scalar. In a flow collection a colon may not stand before a mark. -/
def plainWord (flow : Bool) : List Char → Option (List Char)
  | [] => some []
  | c :: cs =>
    if isGap c then some []
    else if flow && c == ':' && cs.head?.any (fun d ↦ isFlowMark d || d == '?') then none
    else if (c == ':' && atGap cs) || (flow && isFlowMark c) then some []
    else (plainWord flow cs).map (c :: ·)

/-- Whether a tab indents one of the lines that a gap ends with less than `indent` spaces before. -/
def tabIndents (indent : Nat) (gap : List Char) : Bool :=
  let lines := (unifyBreaks gap).foldr (fun c lines ↦
    if isBreak c then [] :: lines else match lines with
      | line :: lines => (c :: line) :: lines
      | [] => [[c]]) [[]]
  lines.tail.any fun line ↦
    line.contains '\t' && (line.takeWhile (· == ' ')).length < indent

/-- The words of a plain scalar behind a gap, each line indented by at least `indent` columns. Also
says whether the scalar ends with a line break. -/
def plainFrom (flow : Bool) (indent : Nat) : (fuel : Nat) → (gap : List Char) → Cursor →
    Option (List Char × Cursor × Bool)
  | 0, _, _ => none
  | fuel + 1, gap, c => do
    let stop := ([], c, gap.any isBreak)
    if c.atMark || c.rest.head? = some '#' then return stop
    let word ← plainWord flow c.rest
    if word = [] then return stop
    let next := c.advance word.length
    let more := next.span isGap
    let last := next.advance more.length
    let front := foldGap false gap ++ word
    if more = [] then return (front, next, false)
    if tabIndents indent more then none
    else if !flow && more.any isBreak && last.column < indent then return (front, last, true)
    else
      let (text, last, broken) ← plainFrom flow indent fuel more last
      return (front ++ text, last, broken)

/-- A plain scalar. -/
def plain (flow : Bool) (indent : Nat) (c : Cursor) : Option (List Char × Cursor × Bool) :=
  plainFrom flow indent (c.rest.length + 1) [] c

/-! ## Quoted scalars -/

/-- What single letters behind a backslash mean. -/
def shortEscapes : List (Char × Char) :=
  [('0', '\x00'), ('a', '\x07'), ('b', '\x08'), ('t', '\t'), ('\t', '\t'), ('n', '\n'),
    ('v', '\x0b'), ('f', '\x0c'), ('r', '\r'), ('e', '\x1b'), (' ', ' '), ('\x22', '\x22'),
    ('/', '/'), ('\\', '\\'), ('N', '\u0085'), ('_', '\u00a0'), ('L', '\u2028'), ('P', '\u2029')]

/-- How many digits follow a letter behind a backslash. -/
def longEscapes : List (Char × Nat) := [('x', 2), ('u', 4), ('U', 8)]

/-- The character of an escape behind the backslash, and how many characters it takes. -/
def escape : List Char → Option (Char × Nat)
  | [] => none
  | c :: cs =>
    match shortEscapes.lookup c, longEscapes.lookup c with
    | some meant, _ => some (meant, 1)
    | none, some count => do
      let digits := cs.take count
      let n ← Text.numeral? 16 digits
      if digits.length = count ∧ n.isValidChar then return (Char.ofNat n, count + 1) else none
    | none, none => none

/-- How a word of a quoted scalar ends. -/
inductive WordEnd where
  /-- At the end of the text or before a gap. -/
  | gap
  /-- Before the closing quote. -/
  | quote
  /-- Before a backslash at the end of a line. -/
  | escapedBreak
deriving DecidableEq

/-- A word of a quoted scalar behind the first `skip` characters: what it reads as, how many
characters it takes, and its end. -/
def quotedWord (quote : Char) : (skip : Nat) → List Char → Option (List Char × Nat × WordEnd)
  | _, [] => some ([], 0, .gap)
  | skip + 1, _ :: cs => (quotedWord quote skip cs).map fun r ↦ (r.1, r.2.1 + 1, r.2.2)
  | 0, c :: cs =>
    let push := fun (meant : Char) (r : List Char × Nat × WordEnd) ↦
      (meant :: r.1, r.2.1 + 1, r.2.2)
    if isGap c then some ([], 0, .gap)
    else if c = '\x27' ∧ quote = '\x27' ∧ cs.head? = some '\x27' then
      (quotedWord quote 1 cs).map (push c)
    else if c = quote then some ([], 0, .quote)
    else if c = '\\' ∧ quote = '\x22' then
      if cs.head?.any isBreak then some ([], 0, .escapedBreak)
      else do
        let (meant, taken) ← escape cs
        (quotedWord quote taken cs).map (push meant)
    else (quotedWord quote 0 cs).map (push c)

/-- A quoted scalar behind its opening quote. -/
def quotedFrom (quote : Char) : (fuel : Nat) → Cursor → Option (List Char × Cursor)
  | 0, _ => none
  | fuel + 1, c => do
    if c.atMark || c.rest = [] then none
    else
      let (word, taken, ending) ← quotedWord quote 0 c.rest
      let c := c.advance taken
      if ending = .quote then return (word, c.next)
      let escaped := ending = .escapedBreak
      let c := if escaped then c.next.skipBreak else c
      let gap := c.span isGap
      let (text, c) ← quotedFrom quote fuel (c.advance gap.length)
      return (word ++ foldGap escaped gap ++ text, c)

/-- A quoted scalar from its opening quote on. -/
def quoted (quote : Char) (c : Cursor) : Option (List Char × Cursor) :=
  quotedFrom quote (c.rest.length + 1) c.next

/-! ## Block scalars -/

/-- What becomes of the line breaks at the end. -/
inductive Chomping where
  /-- All are taken off. -/
  | strip
  /-- The first one stays. -/
  | clip
  /-- All stay. -/
  | keep
deriving DecidableEq

/-- The chomping that a sign asks for. -/
def chomping? : Char → Option Chomping
  | '+' => some .keep
  | '-' => some .strip
  | _ => none

/-- The depth that a digit asks for. -/
def depth? (c : Char) : Option Nat :=
  (Text.digitValue? 10 c).filter (· ≠ 0)

/-- The sign and the digit behind the mark of a block scalar, in either order, and how many
characters they take. -/
def blockHeader (cs : List Char) : Chomping × Option Nat × Nat :=
  match cs.head? >>= chomping?, cs.head? >>= depth? with
  | some chomping, _ =>
    match cs[1]? >>= depth? with
    | some depth => (chomping, some depth, 2)
    | none => (chomping, none, 1)
  | none, some depth =>
    match cs[1]? >>= chomping? with
    | some chomping => (chomping, some depth, 2)
    | none => (.clip, some depth, 1)
  | none, none => (.clip, none, 0)

/-- The empty lines before the next line of a block scalar, and the widest column that was reached
among spaces. Nothing is known yet of the depth of the lines if `indent` is missing. -/
def emptyLines (indent : Option Nat) : (fuel : Nat) → (widest : Nat) → Cursor →
    Option (List Char × Nat × Cursor)
  | 0, _, _ => none
  | fuel + 1, widest, c => do
    let spaces := (c.span (· == ' ')).length
    let c := c.advance (indent.elim spaces fun n ↦ min spaces (n - c.column))
    let widest := max widest c.column
    if c.rest.head? = some '\t' ∧ indent.all (c.column < ·) then none
    else if c.rest.head?.any isBreak then
      let (breaks, widest, last) ← emptyLines indent fuel widest c.skipBreak
      return (c.lineBreak ++ breaks, widest, last)
    else return ([], widest, c)

/-- The lines of a block scalar, each `indent` columns deep, behind a line break and the breaks of
some empty lines. `deeper` says that the line before began with a space. Gives the text, and the
last two kinds of break again. -/
def blockLines (style : Style) (indent : Nat) : (fuel : Nat) → (deeper : Bool) →
    (ending breaks : List Char) → Cursor → Option (List Char × List Char × List Char × Cursor)
  | 0, _, _, _, _ => none
  | fuel + 1, deeper, ending, breaks, c => do
    if c.column ≠ indent ∨ c.rest = [] then return ([], ending, breaks, c)
    let indented := c.rest.head?.any isSpace
    let joint :=
      if style = .folded ∧ ending = ['\n'] ∧ !deeper ∧ !indented then
        if breaks = [] then [' '] else []
      else ending
    let line := c.span (!isBreak ·)
    let next := c.advance line.length
    let (empty, _, last) ← emptyLines (some indent) (next.rest.length + 1) 0 next.skipBreak
    let (text, lastBreak, lastBreaks, last) ←
      blockLines style indent fuel indented next.lineBreak empty last
    return (joint ++ breaks ++ line ++ text, lastBreak, lastBreaks, last)

/-- A block scalar behind its mark, inside of a block that is `parent` columns deep. -/
def block (style : Style) (parent : Option Nat) (c : Cursor) : Option (List Char × Cursor) := do
  let (chomping, depth, taken) := blockHeader c.rest
  let c := (c.advance taken).skipComment
  if !atLineEnd c.rest then none
  else
    let c := c.skipBreak
    let fuel := c.rest.length + 1
    let indent := depth.map (parent.getD 0 + ·)
    let (breaks, widest, c) ← emptyLines indent fuel 0 c
    let indent := indent.getD (max (max widest (parent.elim 0 (· + 1))) 1)
    let (text, lastBreak, breaks, c) ← blockLines style indent fuel false [] breaks c
    return match chomping with
      | .strip => (text, c)
      | .clip => (text ++ lastBreak, c)
      | .keep => (text ++ lastBreak ++ breaks, c)

end Scalar

end TableSink.Yaml
