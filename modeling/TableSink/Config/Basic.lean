import TableSink.Config.Template
import TableSink.Json.Parser
import TableSink.Partition.Computer
import TableSink.Staging
import TableSink.Storage.Fault
import TableSink.Text.Blank
import TableSink.Writer.Basic

/-!
# Configurations

What a sink has to know before it can start, and what makes such a configuration invalid. A
configuration is checked before anything is asked of a store, and the first thing that is wrong with
it is reported.
-/

namespace TableSink

/-- The settings of a sink. -/
structure Config where
  /-- The URL of the table. -/
  table : String
  /-- Options for the store. -/
  options : List (String × String) := []
  /-- Where files wait until they are published, below the root of the table. -/
  stagingDir : String := "_staging"
  /-- The columns that name the partition of a record, outermost directory first. -/
  columns : List String := []
  /-- The only partition, for the strategy that knows just one. -/
  fixedPartition : PartitionSpec := []
  strategy : Strategy := .dynamic
  attempt : Attempt := ⟨0, 0⟩
  naming : FileNaming := ⟨"part", ".ndjson"⟩
  /-- The value that stands for a missing one. -/
  defaultName : String := defaultPartitionName
  /-- How many committables may be finished at the same time. -/
  concurrency : Nat := 4
  /-- How many records make a batch. -/
  batchSize : Nat := 10000
deriving DecidableEq, Repr

/-- Why there is no valid configuration. -/
inductive ConfigError where
  /-- The URL of the table is blank. -/
  | blankTable
  /-- The strategy sorts records by columns, and there are none. -/
  | noColumns (strategy : Strategy)
  /-- The strategy puts all records together, and there are columns. -/
  | unusedColumns
  /-- The strategy sorts records by columns, and there is a fixed partition. -/
  | unusedPartition (strategy : Strategy)
  /-- A column stands twice. -/
  | repeatedColumn (column : String)
  /-- A setting must not be zero. -/
  | zero (setting : String)
  /-- References in the text have no value. -/
  | unresolved (faults : List VariableFault)
  /-- The text is no configuration. -/
  | malformed
  /-- The file cannot be read. -/
  | unreadable (fault : FileFault)
deriving DecidableEq, Repr

/-- The sentence that reports the error. -/
def ConfigError.message : ConfigError → String
  | .blankTable => "Table URI cannot be empty"
  | .noColumns strategy =>
    "Strategy '" ++ strategy.name ++ "' requires at least one partition column"
  | .unusedColumns => "Strategy 'single' does not take partition columns"
  | .unusedPartition strategy =>
    "Strategy '" ++ strategy.name ++ "' does not take a static partition"
  | .repeatedColumn column => "Duplicate partition column: " ++ column
  | .zero setting => "'" ++ setting ++ "' must be greater than zero"
  | .unresolved faults =>
    "Environment variable interpolation failed:\n" ++
      "\n".intercalate (faults.map VariableFault.message)
  | .malformed => "Failed to parse YAML: <yaml>"
  | .unreadable fault => "Failed to read configuration file: " ++ fault.tag

namespace Config

/-- The first name in a list that stood there before. -/
def firstRepeated? (seen : List String) : List String → Option String
  | [] => none
  | name :: names => if name ∈ seen then some name else firstRepeated? (name :: seen) names

/-- The first thing that is wrong with a configuration. -/
def fault? (c : Config) : Option ConfigError :=
  if Text.allBlank c.table then some .blankTable
  else if c.strategy = .single ∧ c.columns ≠ [] then some .unusedColumns
  else if c.strategy ≠ .single ∧ c.columns = [] then some (.noColumns c.strategy)
  else if c.strategy ≠ .single ∧ c.fixedPartition ≠ [] then some (.unusedPartition c.strategy)
  else match firstRepeated? [] c.columns with
    | some column => some (.repeatedColumn column)
    | none =>
      if c.concurrency = 0 then some (.zero "max_concurrent_commits")
      else if c.batchSize = 0 then some (.zero "batch_size")
      else none

/-- The configuration if nothing is wrong with it. -/
def validate (c : Config) : Except ConfigError Config :=
  c.fault?.elim (.ok c) .error

/-- No name is reported in a list without repetition. -/
theorem firstRepeated?_eq_none_iff (seen names : List String) :
    firstRepeated? seen names = none ↔ names.Nodup ∧ ∀ name ∈ names, name ∉ seen := by
  induction names generalizing seen with
  | nil => simp [firstRepeated?]
  | cons name names ih =>
    by_cases h : name ∈ seen
    · simp [firstRepeated?, h]
    · simp only [firstRepeated?, h, if_false, ih, List.nodup_cons, List.mem_cons, not_or]
      constructor
      · rintro ⟨hn, hs⟩
        refine ⟨⟨fun hm ↦ (hs name hm).1 rfl, hn⟩, ?_⟩
        rintro n (rfl | hm)
        · exact h
        · exact (hs n hm).2
      · rintro ⟨⟨hm, hn⟩, hs⟩
        exact ⟨hn, fun n hn ↦ ⟨fun e ↦ hm (e ▸ hn), hs n (.inr hn)⟩⟩

end Config

end TableSink
