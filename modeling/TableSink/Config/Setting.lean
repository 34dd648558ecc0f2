import TableSink.Config.Basic
import TableSink.Json.Decoder
import TableSink.Yaml.Decoder

/-!
# Settings in a text

The settings of a configuration under the names and in the order in which a text gives them. The
same list serves for both notations in which a configuration may be written.
-/

namespace TableSink

/-- What the value of a setting may be, and what it changes. -/
inductive Setting.Shape where
  | text (change : String → Config → Config)
  | texts (change : List String → Config → Config)
  /-- Texts under names; of values under one name the last one counts. -/
  | assignments (change : List (String × String) → Config → Config)
  /-- A natural number below a bound. -/
  | natural (bound : Nat) (change : Nat → Config → Config)
  | strategy (change : Strategy → Config → Config)

/-- A setting under its name. -/
structure Setting where
  name : String
  /-- Whether a configuration without this setting is refused. -/
  required : Bool := false
  shape : Setting.Shape

namespace Setting

/-- All settings in order. -/
def all : List Setting :=
  [{ name := "table_uri", required := true, shape := .text fun v c ↦ { c with table := v } },
    { name := "storage_options", shape := .assignments fun v c ↦ { c with options := v } },
    { name := "staging_dir", shape := .text fun v c ↦ { c with stagingDir := v } },
    { name := "partition_columns", shape := .texts fun v c ↦ { c with columns := v } },
    { name := "static_partition", shape := .assignments fun v c ↦ { c with fixedPartition := v } },
    { name := "strategy", shape := .strategy fun v c ↦ { c with strategy := v } },
    { name := "worker_id"
      shape := .natural UInt32.size fun v c ↦
        { c with attempt := { c.attempt with worker := .ofNat v } } },
    { name := "generation"
      shape := .natural UInt64.size fun v c ↦
        { c with attempt := { c.attempt with generation := .ofNat v } } },
    { name := "file_prefix"
      shape := .text fun v c ↦ { c with naming := { c.naming with stem := v } } },
    { name := "file_suffix"
      shape := .text fun v c ↦ { c with naming := { c.naming with suffix := v } } },
    { name := "default_partition_name", shape := .text fun v c ↦ { c with defaultName := v } },
    { name := "max_concurrent_commits"
      shape := .natural UInt64.size fun v c ↦ { c with concurrency := v } },
    { name := "batch_size", shape := .natural UInt64.size fun v c ↦ { c with batchSize := v } }]

/-! ## In both notations -/

/-- How the value of a setting is read from JSON. -/
def Shape.readJson : Shape → Json.Reader (Config → Config)
  | .text change => fun cs ↦ (Json.readText cs).map fun r ↦ (change r.1, r.2)
  | .texts change => fun cs ↦ (Json.readList Json.readText cs).map fun r ↦ (change r.1, r.2)
  | .assignments change => fun cs ↦
    (Json.readMap Json.readText cs).map fun r ↦ (change (PartitionSpec.ofAssignments r.1), r.2)
  | .natural bound change => fun cs ↦
    (Json.readNatural bound cs).map fun r ↦ (change r.1, r.2)
  | .strategy change => fun cs ↦
    (Json.readChoice Strategy.ofName? cs).map fun r ↦ (change r.1, r.2)

/-- How the value of a setting is read from YAML. -/
def Shape.readYaml (shape : Shape) (d : Yaml.Document) (node : Yaml.Node) :
    Option (Config → Config) :=
  match shape with
  | .text change => (d.text? node).map change
  | .texts change => (d.list? d.text? node).map change
  | .assignments change =>
    (d.entries? d.text? node).map fun entries ↦ change (PartitionSpec.ofAssignments entries)
  | .natural bound change => (d.natural? bound node).map change
  | .strategy change => (d.choice? Strategy.ofName? node).map change

end Setting

namespace Config

/-- The configuration that a JSON text holds, valid or not. -/
def ofJson (text : String) : Except Json.Fault Config :=
  let fields := Setting.all.map fun s ↦ (⟨s.name, s.required, s.shape.readJson⟩ : Json.Field Config)
  Json.readAll (Json.readRecord fields { table := "" }) text

/-- The configuration that a YAML text holds, valid or not. -/
def ofYaml? (text : String) : Option Config :=
  let fields := Setting.all.map fun s ↦
    (⟨s.name, s.required, s.shape.readYaml⟩ : Yaml.Document.Field Config)
  (Yaml.Document.parse? text).bind fun d ↦ d.record? fields { table := "" } d.root

end Config

end TableSink
