/-!
# Variables in a configuration text

A configuration text may refer to variables. A `$` starts the first of these forms that fits:

* `$$`, a dollar;
* `$` and a name in braces, with a fallback behind `:-` (for an unset or empty variable) or behind
  `-` (for an unset one) or without any;
* `$` and the longest name that follows.

Every other character stands for itself, a `$` that starts no form included. The text is read once
from left to right, and what a variable holds is not read again.
-/

namespace TableSink

/-- What a reference stands for when its variable gives nothing. -/
inductive Fallback where
  /-- Used for an unset variable. -/
  | ifUnset (text : String)
  /-- Used for an unset or empty variable. -/
  | ifUnsetOrEmpty (text : String)
deriving DecidableEq, Repr

/-- A variable, named in a text. -/
structure Reference where
  /-- The name of the variable. -/
  name : String
  /-- What the text gives for the case that there is no value. -/
  fallback : Option Fallback := none
deriving DecidableEq, Repr

/-- Why a reference has no value. -/
inductive VariableFault where
  /-- The variable is not set and the text gives no fallback. -/
  | unset (name : String)
  /-- The value would add a line to the text. -/
  | lineBreak (name : String)
deriving DecidableEq, Repr

/-- The sentence that reports a reference without value. -/
def VariableFault.message : VariableFault → String
  | .unset name => "environment variable '" ++ name ++ "' is not set"
  | .lineBreak name =>
    "environment variable '" ++ name ++ "' contains newlines, which is not allowed"

namespace Reference

/-- The text that a reference stands for, given the values of the variables. -/
def resolve (lookup : String → Option String) (r : Reference) : Except VariableFault String :=
  match lookup r.name, r.fallback with
  | some value, fallback =>
    if value.toList.any fun c ↦ c == '\n' || c == '\r' then .error (.lineBreak r.name)
    else match fallback with
      | some (.ifUnsetOrEmpty text) => .ok (if value = "" then text else value)
      | _ => .ok value
  | none, some (.ifUnset text) | none, some (.ifUnsetOrEmpty text) => .ok text
  | none, none => .error (.unset r.name)

end Reference

namespace Template

/-- A piece of a text: a character, or a reference. -/
inductive Piece where
  /-- A character that stands for itself. -/
  | char (c : Char)
  /-- A reference to a variable. -/
  | reference (r : Reference)
deriving DecidableEq, Repr

/-! ## Reading -/

/-- Whether a name may begin so. -/
def isNameStart (c : Char) : Bool := c.isAlpha || c == '_'

/-- Whether a name may go on so. -/
def isNameChar (c : Char) : Bool := c.isAlphanum || c == '_'

/-- The longest name at the start of a text; empty if there is none. -/
def name (cs : List Char) : List Char :=
  if cs.head?.any isNameStart then cs.takeWhile isNameChar else []

/-- A fallback up to the closing brace, and how many characters it has. -/
def fallback? (cs : List Char) : Option (String × Nat) :=
  let text := cs.takeWhile (· != '\x7d')
  if text.length < cs.length then some (String.ofList text, text.length) else none

/-- What stands behind an opening brace, and how many characters it takes to the closing one. -/
def braced? (cs : List Char) : Option (Reference × Nat) :=
  let word := name cs
  if word = [] then none
  else match cs.drop word.length with
    | '\x7d' :: _ => some (⟨String.ofList word, none⟩, word.length + 1)
    | ':' :: '-' :: rest => (fallback? rest).map fun d ↦
      (⟨String.ofList word, some (.ifUnsetOrEmpty d.1)⟩, word.length + 2 + d.2 + 1)
    | '-' :: rest => (fallback? rest).map fun d ↦
      (⟨String.ofList word, some (.ifUnset d.1)⟩, word.length + 1 + d.2 + 1)
    | _ => none

/-- The form that a `$` starts, from what follows it, and how many characters of that it takes. -/
def form? : List Char → Option (Piece × Nat)
  | '$' :: _ => some (.char '$', 1)
  | '\x7b' :: rest => (braced? rest).map fun r ↦ (.reference r.1, r.2 + 1)
  | cs =>
    let word := name cs
    if word = [] then none
    else some (.reference ⟨String.ofList word, none⟩, word.length)

/-- The pieces of a text behind its first `skip` characters. -/
def scan : (skip : Nat) → List Char → List Piece
  | _, [] => []
  | skip + 1, _ :: cs => scan skip cs
  | 0, c :: cs =>
    if c = '$' then
      match form? cs with
      | some (piece, taken) => piece :: scan taken cs
      | none => .char '$' :: scan 0 cs
    else .char c :: scan 0 cs

/-- The pieces of a text. -/
def pieces (text : String) : List Piece := scan 0 text.toList

/-- The names of the variables that a text refers to, in order. -/
def names (text : String) : List String :=
  (pieces text).filterMap fun
    | .reference r => some r.name
    | .char _ => none

/-! ## Filling in -/

/-- The text that a piece stands for. -/
def Piece.resolve (lookup : String → Option String) : Piece → Except VariableFault String
  | .char c => .ok c.toString
  | .reference r => r.resolve lookup

/-- The faults of a text, in order: one for every reference without value. -/
def faults (lookup : String → Option String) (ps : List Piece) : List VariableFault :=
  ps.filterMap fun p ↦ match p.resolve lookup with
    | .error fault => some fault
    | .ok _ => none

/-- The text with every piece replaced by what it stands for, faulty ones left out. -/
def fill (lookup : String → Option String) (ps : List Piece) : String :=
  String.join (ps.map fun p ↦ (p.resolve lookup).toOption.getD "")

end Template

/-- The text with all references replaced, or all faults in the order of the text. -/
def interpolate (lookup : String → Option String) (text : String) :
    Except (List VariableFault) String :=
  let ps := Template.pieces text
  match Template.faults lookup ps with
  | [] => .ok (Template.fill lookup ps)
  | faults => .error faults

example : Template.pieces "$$A$A" =
    [.char '$', .char 'A', .reference ⟨"A", none⟩] := by decide +kernel

end TableSink
