import TableSink.Json.Decoder
import TableSink.Json.Printer
import TableSink.Storage.Fault

/-!
# Committables

A token is all that is needed to finish a staged file without the writer that made it: a *pending*
token lets it be published, an *in-progress* token only lets it be removed. A committable is a token
together with the partition of the file and the number of times it was handed back. That number has
32 bits, and where it would need more, the program stops.

Both are kept as JSON between closing and committing. Reading takes what writing gives, and records
with members in another order or with members that are not known.
-/

namespace TableSink

/-- Why a program stops half way. -/
inductive Panic where
  /-- A number has left its range. -/
  | overflow
deriving DecidableEq, Repr

/-- Stands for a file that was closed to be published. -/
structure PendingToken where
  /-- Where the bytes wait. -/
  staging : String
  /-- Where the file is to show. -/
  target : String
  /-- The number of bytes. -/
  size : Nat
  /-- The number of records in them. -/
  records : Nat
deriving DecidableEq, Repr

/-- Stands for a file that was given up. -/
structure InProgressToken where
  /-- Where the bytes wait. -/
  staging : String
  /-- The number of bytes. -/
  size : Nat
deriving DecidableEq, Repr

/-- A token of either kind. -/
inductive Token where
  | pending (token : PendingToken)
  | inProgress (token : InProgressToken)
deriving DecidableEq, Repr

/-- A staged file to be finished. -/
structure Committable where
  /-- The partition of the file, as one text. -/
  bucket : String
  token : Token
  /-- How often the committable was handed back. -/
  retries : UInt32 := 0
deriving DecidableEq, Repr

/-- The path that a token names, read back. -/
def readPath (path : String) : Except StorageError ObjectPath :=
  (ObjectPath.parse? path).mapError (.invalidPath path)

namespace Token

/-- Where the bytes wait. -/
def staging : Token → String
  | .pending t => t.staging
  | .inProgress t => t.staging

/-- Whether the token lets the file be published. -/
def isPending : Token → Bool
  | .pending _ => true
  | .inProgress _ => false

/-- The token that only lets the file be removed. -/
def discard : Token → InProgressToken
  | .pending t => ⟨t.staging, t.size⟩
  | .inProgress t => t

/-! ## Tokens as JSON -/

/-- The two kinds of token. -/
inductive Kind where
  | pending
  | inProgress
deriving DecidableEq

/-- The kind that a word in a token names. -/
def Kind.ofWord : String → Option Kind
  | "pending" => some .pending
  | "in_progress" => some .inProgress
  | _ => none

/-- A token as JSON. -/
def toJson : Token → Json
  | .pending t => .object
    [("type", .string "pending"), ("staging_path", .string t.staging),
      ("target_path", .string t.target), ("size", .number (.integer t.size)),
      ("record_count", .number (.integer t.records))]
  | .inProgress t => .object
    [("type", .string "in_progress"), ("staging_path", .string t.staging),
      ("size", .number (.integer t.size))]

/-- A number as it stands in a token: at most 64 bits, without sign. -/
def quantity? : Json → Option Nat
  | .number (.integer (.ofNat n)) => if n < UInt64.size then some n else none
  | _ => none

/-- The token of a kind with the given content. -/
def ofContent? : Kind → Json.Content → Option Token
  | .pending, content => do
    match ← content.values? ["staging_path", "target_path", "size", "record_count"] with
    | [.string staging, .string target, size, records] =>
      return .pending ⟨staging, target, ← quantity? size, ← quantity? records⟩
    | _ => none
  | .inProgress, content => do
    match ← content.values? ["staging_path", "size"] with
    | [.string staging, size] => return .inProgress ⟨staging, ← quantity? size⟩
    | _ => none

/-- Reads a token whose values nest up to a depth. -/
def read (depth : Nat) : Json.Reader Token := fun cs ↦ do
  let ((kind, content), cs) ← Json.readTagged "type" Kind.ofWord depth cs
  match ofContent? kind content with
  | some token => return (token, cs)
  | none => throw .mismatch

/-- The token that a text holds. -/
def parse (text : String) : Except Json.Fault Token :=
  Json.readAll (read (Json.depthLimit - 1)) text

end Token

namespace Committable

/-- The committable for another attempt at it. -/
def retryLater (c : Committable) : Except Panic Committable :=
  if c.retries.toNat + 1 < UInt32.size then .ok { c with retries := c.retries + 1 }
  else .error .overflow

/-- The committable that only lets the file be removed. A file of a batch that was given up must
never show, so its pending token is taken away. -/
def intoDiscard (c : Committable) : Committable :=
  { c with token := .inProgress c.token.discard }

/-! ## Committables as JSON -/

/-- A committable as JSON. -/
def toJson (c : Committable) : Json := .object
  [("bucket_id", .string c.bucket), ("recoverable", c.token.toJson),
    ("retries", .number (.integer c.retries.toNat))]

/-- The text of a committable, members in the order of its fields. -/
def text (c : Committable) : String := c.toJson.text

/-- The members of a committable. -/
def fields : List (Json.Field Committable) :=
  [⟨"bucket_id", true, fun cs ↦
      (Json.readText cs).map fun r ↦ (fun c ↦ { c with bucket := r.1 }, r.2)⟩,
    ⟨"recoverable", true, fun cs ↦
      (Token.read (Json.depthLimit - 2) cs).map fun r ↦ (fun c ↦ { c with token := r.1 }, r.2)⟩,
    ⟨"retries", false, fun cs ↦
      (Json.readNatural UInt32.size cs).map fun r ↦
        (fun c ↦ { c with retries := .ofNat r.1 }, r.2)⟩]

/-- Reads a committable. -/
def read : Json.Reader Committable :=
  Json.readRecord fields ⟨"", .inProgress ⟨"", 0⟩, 0⟩

/-- The committable that a text holds. -/
def parse (text : String) : Except Json.Fault Committable := Json.readAll read text

end Committable

end TableSink
