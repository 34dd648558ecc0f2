import TableSink.Main
import TableSink.Metrics.Totals
import TableSink.Proofs.Commit.Discard
import TableSink.Proofs.Commit.Durable
import TableSink.Proofs.Commit.Race
import TableSink.Proofs.Commit.Rounds
import TableSink.Proofs.Commit.Verdict
import TableSink.Proofs.Config.LineBreaks
import TableSink.Proofs.Config.Verbatim
import TableSink.Proofs.Ingest.Again
import TableSink.Proofs.Metrics.Gauge
import TableSink.Proofs.Partition.Columns
import TableSink.Proofs.Path.Confined
import TableSink.Proofs.Sink.Figures
import TableSink.Proofs.Sink.Leftover
import TableSink.Proofs.Sink.Published
import TableSink.Proofs.Sink.Recovery
import TableSink.Proofs.Sink.Rejected
import TableSink.Proofs.Sink.Workers
import TableSink.Proofs.Storage.Url
import TableSink.Proofs.Writer.Agreement
import TableSink.Proofs.Writer.Appends
import TableSink.Proofs.Writer.Buckets
import TableSink.Proofs.Writer.Dynamic
import TableSink.Proofs.Writer.Grouped
