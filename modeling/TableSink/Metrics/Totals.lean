import TableSink.Metrics.Event

/-!
# Figures drawn from events

A figure is a counter, a gauge or the number of measurements of a duration. It is named by a text
that holds its labels, and every event changes one or two figures.
-/

namespace TableSink

/-- What an event does to a figure. -/
inductive Change where
  /-- A counter goes up. -/
  | add (n : Nat)
  /-- A gauge moves. -/
  | set (n : Nat)
deriving DecidableEq, Repr

namespace Metrics

/-- The name of a figure with its labels, which are given sorted. -/
def series (name : String) (labels : List (String × String)) : String :=
  name ++ "\x7b" ++ String.intercalate "," (labels.map fun l ↦ l.1 ++ "=" ++ l.2) ++ "\x7d"

/-- The name for the number of measurements of a duration. -/
def count (name : String) (labels : List (String × String)) : String :=
  series name labels ++ "#count"

/-- The figures that an event changes. -/
def changes : Event → List (String × Change)
  | .recordsWritten n => [(series "snowdrift_records_written_total" [], .add n)]
  | .fileOpened => [(series "snowdrift_files_opened_total" [], .add 1)]
  | .fileStaged bytes kind =>
    [(series "snowdrift_files_staged_total" [("kind", kind.label)], .add 1),
      (series "snowdrift_bytes_staged_total" [], .add bytes)]
  | .openFiles n => [(series "snowdrift_open_partition_writers" [], .set n)]
  | .fileCommitted recovered =>
    [(series "snowdrift_files_committed_total"
      [("path", if recovered then "recovered" else "live")], .add 1)]
  | .fileDiscarded found =>
    [(series "snowdrift_files_discarded_total"
      [("outcome", if found then "deleted" else "absent")], .add 1)]
  | .commitFailed stage =>
    [(series "snowdrift_commit_failures_total" [("stage", stage.label)], .add 1)]
  | .batchCompleted => [(count "snowdrift_commit_batch_duration_seconds" [], .add 1)]
  | .request operation success =>
    [(series "snowdrift_storage_requests_total"
        [("operation", operation.label), ("status", if success then "success" else "error")],
        .add 1),
      (count "snowdrift_storage_request_duration_seconds" [("operation", operation.label)], .add 1)]

/-- The value of a figure after a change. -/
def Change.apply : Change → Nat → Nat
  | .add n, value => value + n
  | .set n, _ => n

/-- The figures after one of them changed; a new one starts at zero. -/
def update (name : String) (change : Change) : List (String × Nat) → List (String × Nat)
  | [] => [(name, Change.apply change 0)]
  | figure :: figures =>
    if figure.1 = name then (name, Change.apply change figure.2) :: figures
    else figure :: update name change figures

/-- All figures that a row of events leaves behind, in the order in which they first appear. -/
def totals (events : List Event) : List (String × Nat) :=
  (events.flatMap changes).foldl (fun figures c ↦ update c.1 c.2 figures) []

end Metrics

end TableSink
