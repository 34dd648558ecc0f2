import TableSink.Yaml.Node

/-!
# Reading YAML into a shape

Which nodes are taken for a text, a number, a list and so on. The shape asked for decides: a word
like `true` or `5` is a text where a text is asked for, and nothing is a number there. Where a list
or a map is asked for, nothing at all is an empty one. An alias is taken for what it stands for.
-/

namespace TableSink.Yaml

namespace Document

/-- What a node stands for: an alias for the last node with its number, any other for itself. -/
def target (d : Document) : Node → Node
  | .alias number => ((d.marked.reverse.find? (·.1 = number)).map Prod.snd).getD .empty
  | node => node

/-! ## Plain shapes -/

/-- The text of a scalar, however it is written. -/
def text? (d : Document) (node : Node) : Option String :=
  match d.target node with
  | .scalar text _ _ => some text
  | _ => none

/-- The natural number that a text without quotes stands for: decimal without zeros in front, or in
another base. -/
def numeral? (text : String) : Option Nat :=
  let cs := text.toList
  let digits := if cs.head? = some '+' then cs.tail else cs
  match digits with
  | '0' :: 'x' :: cs => Text.numeral? 16 cs
  | '0' :: 'o' :: cs => Text.numeral? 8 cs
  | '0' :: 'b' :: cs => Text.numeral? 2 cs
  | '0' :: _ :: _ => none
  | _ => Text.numeral? 10 digits

/-- The tag of a number. -/
def numberTag : List UInt8 := "tag:yaml.org,2002:int".toUTF8.data.toList

/-- A natural number below a bound. A literal block is taken for a number if its tag says so. -/
def natural? (d : Document) (bound : Nat) (node : Node) : Option Nat :=
  match d.target node with
  | .scalar text style tag =>
    if style = .plain ∨ (style = .literal ∧ tag = some numberTag) then
      (numeral? text).filter (· < bound)
    else none
  | _ => none

/-- The items of a sequence, each of one shape. -/
def list? {α : Type} (d : Document) (item : Node → Option α) (node : Node) : Option (List α) :=
  match d.target node with
  | .sequence items _ => items.mapM item
  | .scalar "" .plain _ => some []
  | _ => none

/-- The entries of a mapping with texts for keys, in the order of the text. -/
def entries? {α : Type} (d : Document) (value : Node → Option α) (node : Node) :
    Option (List (String × α)) :=
  match d.target node with
  | .mapping entries _ => entries.mapM fun e ↦ do return (← d.text? e.1, ← value e.2)
  | .scalar "" .plain _ => some []
  | _ => none

/-- Whether a text without quotes stands for nothing. -/
def isNull (text : String) : Bool := ["", "~", "null", "Null", "NULL"].contains text

/-- What stands behind the mark of a local tag, if that is a text. -/
def tagName? : Option (List UInt8) → Option String
  | some (mark :: name) =>
    if mark = '!'.toNat.toUInt8 then String.fromUTF8? ⟨name.toArray⟩ else none
  | _ => none

/-- One of several words, taken by what it means. It may stand as the tag of nothing instead. -/
def choice? {α : Type} (d : Document) (meaning : String → Option α) (node : Node) : Option α :=
  match d.target node with
  | .scalar text style tag =>
    match tagName? tag with
    | some name => if style = .plain ∧ isNull text then meaning name else none
    | none => meaning text
  | _ => none

/-! ## Records -/

/-- An entry that a record knows: how its value is read, and what it changes in the record. -/
structure Field (β : Type) where
  /-- The key of the entry. -/
  name : String
  /-- Whether a record without this entry is refused. -/
  required : Bool
  /-- Reads the value and gives the change that it makes. -/
  read : Document → Node → Option (β → β)

/-- A record, given what it holds before any entry is read: a mapping with known keys, each of them
at most once. Entries that are not known do not matter. -/
def record? {β : Type} (d : Document) (fields : List (Field β)) (start : β) (node : Node) :
    Option β :=
  match d.target node with
  | .mapping entries _ => do
    let named ← entries.mapM fun e ↦ do return (← d.text? e.1, e.2)
    let known := named.filterMap fun e ↦
      (fields.find? (·.name = e.1)).map fun field ↦ (field, e.2)
    let names := known.map (·.1.name)
    if names.eraseDups.length = names.length ∧
        fields.all fun f ↦ !f.required || names.contains f.name then
      known.foldlM (fun record v ↦ (v.1.read d v.2).map fun change ↦ change record) start
    else none
  | _ => none

example : ["+7", "0x1F", "007", "0", "-0", "1_0"].map numeral? =
    [some 7, some 31, none, some 0, none, none] := by decide +kernel

end Document

end TableSink.Yaml
