/-!
# Events worth counting

What the library reports while it works. An event says only what happened; `Metrics.Totals` says
which figures it changes.
-/

namespace TableSink

/-- What an open file is closed for. -/
inductive CloseKind where
  /-- To be published. -/
  | commit
  /-- To be removed again. -/
  | recovery
deriving DecidableEq, Repr

/-- The step at which a committable could not be finished. -/
inductive CommitStage where
  /-- Looking for the staged file. -/
  | recover
  /-- Publishing it. -/
  | commit
  /-- Removing it. -/
  | cleanup
deriving DecidableEq, Repr

/-- The kinds of request to a store. -/
inductive Operation where
  | get
  | put
  | head
  | list
  | rename
  | delete
deriving DecidableEq, Repr

/-- Something that happened and is counted. -/
inductive Event where
  /-- Records were appended to an open file. -/
  | recordsWritten (count : Nat)
  /-- A file was opened. -/
  | fileOpened
  /-- The bytes of a closed file were put into the store. -/
  | fileStaged (bytes : Nat) (kind : CloseKind)
  /-- A writer with a file for every partition now has this many open. -/
  | openFiles (count : Nat)
  /-- A file became visible at its target; `recovered` if it was found through its token. -/
  | fileCommitted (recovered : Bool)
  /-- A staged file was removed; `found` if there was one. -/
  | fileDiscarded (found : Bool)
  /-- A committable could not be finished. -/
  | commitFailed (stage : CommitStage)
  /-- A batch of committables was gone through. -/
  | batchCompleted
  /-- A store answered a request. -/
  | request (operation : Operation) (success : Bool)
deriving DecidableEq, Repr

namespace CloseKind

/-- The word for the kind. -/
def label : CloseKind → String
  | .commit => "commit"
  | .recovery => "recovery"

end CloseKind

namespace CommitStage

/-- The word for the step. -/
def label : CommitStage → String
  | .recover => "recover"
  | .commit => "commit"
  | .cleanup => "cleanup"

end CommitStage

namespace Operation

/-- The word for the kind of request. -/
def label : Operation → String
  | .get => "get"
  | .put => "put"
  | .head => "head"
  | .list => "list"
  | .rename => "rename"
  | .delete => "delete"

end Operation

end TableSink
