import TableSink.Text.Percent
import TableSink.Text.Split

/-!
# Object paths

A path names an object below a table root. It is a list of segments, written with `/` between
them. There are two ways in: `ofText` and `child` take any text and escape what a segment may not
hold, `parse?` takes a written path back and refuses what no escaped path could be.
-/

namespace TableSink

/-- The place of an object below the root of its table. -/
structure ObjectPath where
  /-- The escaped segments, outermost first; none for the root itself. -/
  segments : List String
deriving DecidableEq, Repr, Inhabited

/-- Why a written path is refused. -/
inductive PathFault where
  /-- Two separators stand next to each other. -/
  | emptySegment
  /-- A segment is `.` or `..` or holds a control character. -/
  | badSegment
deriving DecidableEq, Repr

namespace PathFault

/-- The tag that stands for a refused path in a message. -/
def tag : PathFault → String
  | .emptySegment => "<path:EmptySegment>"
  | .badSegment => "<path:BadSegment>"

end PathFault

namespace ObjectPath

/-! ## Segments -/

/-- The printable ASCII characters that a segment holds in escaped form only. -/
def reserved : List Char :=
  ['/', '\\', '\x7b', '^', '\x7d', '%', '\x60', ']', '\x22', '>', '[', '~', '<', '#', '|', '*', '?']

/-- The ASCII control characters. -/
def isControl (c : Char) : Bool := c.toNat < 0x20 || c.toNat == 0x7f

/-- Whether a segment holds this character as it is. -/
def isPlain (c : Char) : Bool := c.toNat < 0x7f && !isControl c && !reserved.contains c

/-- The escaped form of one segment. The two names with a meaning of their own in a directory tree
are escaped although their characters are plain. -/
def encodeSegment : List Char → List Char
  | ['.'] => "%2E".toList
  | ['.', '.'] => "%2E%2E".toList
  | cs => cs.flatMap fun c ↦ if isPlain c then [c] else Text.percentChar c

/-- Whether a written segment is taken as it stands. -/
def checkSegment (cs : List Char) : Except PathFault String :=
  if cs = [] then .error .emptySegment
  else if cs = ['.'] ∨ cs = ['.', '.'] ∨ cs.any isControl then .error .badSegment
  else .ok (String.ofList cs)

/-! ## Paths -/

/-- The root of the table. -/
def root : ObjectPath := ⟨[]⟩

/-- The written form: segments with `/` between them. -/
def text (p : ObjectPath) : String :=
  String.ofList (Text.join '/' (p.segments.map String.toList))

instance : ToString ObjectPath := ⟨text⟩

/-- The path one segment further down. Nothing is added for an empty name at the root, where the
written form could not show it. -/
def child (p : ObjectPath) (name : String) : ObjectPath :=
  if p.segments = [] ∧ name = "" then p
  else ⟨p.segments ++ [String.ofList (encodeSegment name.toList)]⟩

/-- Any text as a path: cut at `/`, empty pieces dropped, the others escaped. -/
def ofText (s : String) : ObjectPath :=
  ⟨((Text.split '/' s.toList).filter (· ≠ [])).map fun cs ↦ String.ofList (encodeSegment cs)⟩

/-- A text without a separator at its end; one is taken off. -/
def dropTrailingSeparator (cs : List Char) : List Char :=
  if cs.getLast? = some '/' then cs.dropLast else cs

/-- A written path, read without unescaping. One separator may stand in front and one behind. -/
def parse? (s : String) : Except PathFault ObjectPath :=
  let body := match s.toList with
    | '/' :: rest => rest
    | cs => cs
  if body = [] then .ok root
  else ObjectPath.mk <$> (Text.split '/' (dropTrailingSeparator body)).mapM checkSegment

/-- Whether `p` lies strictly below `dir`, by whole segments. -/
def isBelow (p dir : ObjectPath) : Bool :=
  dir.segments.isPrefixOf p.segments && dir.segments.length < p.segments.length

example : (ofText "/a//b c/../ü").text = "a/b c/%2E%2E/%C3%BC" := by decide +kernel

example : parse? "a//b" = .error .emptySegment := by cbv

end ObjectPath

end TableSink
