import TableSink.Json.Parser

/-!
# Reading JSON into a shape

Readers that know what they are to find. They go through the text once, so of two faults the one
further ahead wins: a value of the wrong shape is reported before a later break of the grammar.

A *record* is an object with known members, or an array of their values in order. Members that are
not known are passed over; a known one may stand only once.
-/

namespace TableSink.Json

/-! ## Plain shapes -/

/-- The fault of a value that has not the shape asked for: its own fault if its first part is
broken, and a mismatch otherwise. -/
def faultAt (cs : List Char) : Fault :=
  match cs with
  | '[' :: _ | '\x7b' :: _ => .mismatch
  | _ => match readScalar .kept cs with
    | .ok _ => .mismatch
    | .error fault => fault

/-- A string. -/
def readText : Reader String := fun cs ↦
  match skipSpace cs with
  | '\x22' :: cs => readString .kept cs
  | cs => .error (faultAt cs)

/-- A natural number below a bound. -/
def readNatural (bound : Nat) : Reader Nat := fun cs ↦
  match skipSpace cs with
  | c :: cs =>
    if c = '-' ∨ isDigit c then do
      match ← readNumber .kept (c :: cs) with
      | (.integer (.ofNat n), cs) => if n < bound then return (n, cs) else throw .mismatch
      | _ => throw .mismatch
    else .error (faultAt (c :: cs))
  | [] => .error .truncated

/-- Nothing but `null`. -/
def readNull : Reader Unit := fun cs ↦
  match skipSpace cs with
  | 'n' :: cs => (word "ull".toList cs).map ((), ·)
  | cs => .error (faultAt cs)

/-- An array of values of one shape. -/
def readList {α : Type} (item : Reader α) : Reader (List α) := fun cs ↦
  match skipSpace cs with
  | '[' :: cs =>
    match skipSpace cs with
    | ']' :: cs => .ok ([], cs)
    | cs => readItems item (cs.length + 1) cs
  | cs => .error (faultAt cs)

/-- An object with values of one shape, members in the order of the text. -/
def readMap {α : Type} (value : Reader α) : Reader (List (String × α)) := fun cs ↦
  match skipSpace cs with
  | '\x7b' :: cs =>
    match skipSpace cs with
    | '\x7d' :: cs => .ok ([], cs)
    | cs => readMembers .kept value (cs.length + 1) cs
  | cs => .error (faultAt cs)

/-- One of several words, taken by what it means. It may also stand as the only name of an object,
with `null` for its value. -/
def readChoice {α : Type} (meaning : String → Option α) : Reader α := fun cs ↦
  let choose := fun (name : String) ↦ (meaning name).elim (throw Fault.mismatch) pure
  match skipSpace cs with
  | '\x22' :: cs => do
    let (name, cs) ← readString .kept cs
    return (← choose name, cs)
  | '\x7b' :: cs => do
    let (name, cs) ← readName .kept cs
    let chosen ← choose name
    let (_, cs) ← readNull (← readColon cs)
    match skipSpace cs with
    | '\x7d' :: cs => return (chosen, cs)
    | [] => throw .truncated
    | _ => throw .malformed
  | [] => .error .truncated
  | _ => .error .malformed

/-! ## Records -/

/-- A member that a record knows: how its value is read, and what it changes in the record. -/
structure Field (β : Type) where
  /-- The name of the member. -/
  name : String
  /-- Whether a record without this member is refused. -/
  required : Bool
  /-- Reads the value and gives the change that it makes. -/
  read : Reader (β → β)

/-- Whether one of the fields has to be there. -/
def anyRequired {β : Type} (fields : List (Field β)) : Bool := fields.any (·.required)

/-- The members of a record up to the closing brace, names in `seen` being used up. -/
def readFields {β : Type} (fields : List (Field β)) :
    (fuel : Nat) → (seen : List String) → β → Reader β
  | 0, _, _, _ => .error .truncated
  | fuel + 1, seen, record, cs => do
    let (name, cs) ← readName .kept cs
    let (seen, record, cs) ← match fields.find? (·.name = name) with
      | some field => do
        if seen.contains name then throw .mismatch
        let (change, cs) ← field.read (← readColon cs)
        pure (name :: seen, change record, cs)
      | none => do
        let (_, cs) ← passValue (← readColon cs)
        pure (seen, record, cs)
    match skipSpace cs with
    | ',' :: cs => readFields fields fuel seen record cs
    | '\x7d' :: cs =>
      if anyRequired (fields.filter fun f ↦ !seen.contains f.name) then throw .mismatch
      else return (record, cs)
    | [] => throw .truncated
    | _ => throw .malformed

/-- The values of a record in order, up to the closing bracket. Fields that are not required may be
missing at the end. -/
def readElements {β : Type} : (fields : List (Field β)) → (first : Bool) → β → Reader β
  | [], _, record, cs =>
    match skipSpace cs with
    | ']' :: cs => .ok (record, cs)
    | [] => .error .truncated
    | _ => .error .malformed
  | field :: fields, first, record, cs =>
    let next := fun cs ↦ do
      let (change, cs) ← field.read cs
      readElements fields false (change record) cs
    match skipSpace cs with
    | ']' :: cs => if anyRequired (field :: fields) then .error .mismatch else .ok (record, cs)
    | [] => .error .truncated
    | c :: cs =>
      if first then next (c :: cs)
      else if c = ',' then next cs
      else .error .malformed

/-- A record, given what it holds before any member is read. -/
def readRecord {β : Type} (fields : List (Field β)) (start : β) : Reader β := fun cs ↦
  match skipSpace cs with
  | '[' :: cs => readElements fields true start cs
  | '\x7b' :: cs =>
    match skipSpace cs with
    | '\x7d' :: cs => if anyRequired fields then .error .mismatch else .ok (start, cs)
    | cs => readFields fields (cs.length + 1) [] start cs
  | cs => .error (faultAt cs)

/-! ## Records of several kinds -/

/-- What a record of several kinds holds beside the word for its kind. -/
inductive Content where
  /-- Values in order. -/
  | items (values : List Json)
  /-- Members in the order of the text. -/
  | members (values : List (String × Json))
deriving Repr

/-- The values of the named members: each of them stands there just once, or the values are there in
this order and no others. -/
def Content.values? (names : List String) : Content → Option (List Json)
  | .items values => if values.length = names.length then some values else none
  | .members ms =>
    if names.all fun name ↦ (ms.filter (·.1 = name)).length = 1 then
      names.mapM fun name ↦ ms.lookup name
    else none

/-- The members of a record up to the closing brace; the member `tag` gives the kind. -/
def readTaggedMembers {α : Type} (tag : String) (meaning : String → Option α) (depth : Nat) :
    (fuel : Nat) → (kind : Option α) → Reader (Option α × List (String × Json))
  | 0, _, _ => .error .truncated
  | fuel + 1, kind, cs => do
    let (name, cs) ← readName .kept cs
    let (kind, own, cs) ← if name = tag then do
        if kind.isSome then throw .mismatch
        let (word, cs) ← readText (← readColon cs)
        match meaning word with
        | some k => pure (some k, [], cs)
        | none => throw .mismatch
      else do
        let (value, cs) ← readValue .kept depth (← readColon cs)
        pure (kind, [(name, value)], cs)
    match skipSpace cs with
    | ',' :: cs =>
      let ((kind, others), cs) ← readTaggedMembers tag meaning depth fuel kind cs
      return ((kind, own ++ others), cs)
    | '\x7d' :: cs => return ((kind, own), cs)
    | [] => throw .truncated
    | _ => throw .malformed

/-- A record that names its kind in the member `tag`, or in the first place of an array. Its values
are kept up to a depth. -/
def readTagged {α : Type} (tag : String) (meaning : String → Option α) (depth : Nat) :
    Reader (α × Content) := fun cs ↦
  match skipSpace cs with
  | '[' :: cs =>
    match skipSpace cs with
    | ']' :: _ => .error .mismatch
    | cs => do
      let (word, cs) ← readText cs
      let kind ← (meaning word).elim (throw Fault.mismatch) pure
      match skipSpace cs with
      | ']' :: cs => return ((kind, .items []), cs)
      | ',' :: cs =>
        let (values, cs) ← readItems (readValue .kept depth) (cs.length + 1) cs
        return ((kind, .items values), cs)
      | [] => throw .truncated
      | _ => throw .malformed
  | '\x7b' :: cs =>
    match skipSpace cs with
    | '\x7d' :: _ => .error .mismatch
    | cs => do
      match ← readTaggedMembers tag meaning depth (cs.length + 1) none cs with
      | ((some kind, values), cs) => return ((kind, .members values), cs)
      | ((none, _), _) => throw .mismatch
  | cs => .error (faultAt cs)

end TableSink.Json
