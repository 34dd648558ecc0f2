import TableSink.Proofs.Partition.Columns
import TableSink.Proofs.Sink.Feed
import TableSink.Proofs.Sink.Start

/-!
# What an input may hold

What a record has to look like to be taken is said in terms of the record alone (`Config.Fits`), and
so is where it belongs (`Config.Belongs`) and what of it is written (`Config.line`). An input is
taken if all its lines are (`Config.Takes`). Of the lines that are not taken each has its own error
(`Config.Refuses`), and the first of them ends the feeding (`Config.Stops`).
-/

namespace TableSink

namespace Config

variable (config : Config)

/-- The record is an object, and no partition column holds an array or an object. -/
def Fits (record : Json) : Prop :=
  ∃ members, record = .object members ∧
    ∀ column ∈ config.columns, ∀ value, members.lookup column = some value → value.IsScalar

/-- Sorts records by the columns of the configuration. -/
def partitioner : JsonPartitioner := ⟨config.columns, config.defaultName⟩

/-- The record belongs to this partition: to the fixed one, or to the one that has every partition
column once, where it comes first, each under the name that its member gives it. -/
inductive Belongs (spec : PartitionSpec) : Json → Prop
  | fixed {record : Json} (hsingle : config.strategy = .single)
    (hspec : spec = config.fixedPartition) : Belongs spec record
  | columns {members : List (String × Json)} (hmany : config.strategy ≠ .single)
    (hcolumns : spec.columns = config.columns.eraseDups)
    (hnames : ∀ entry ∈ spec, config.partitioner.Names (members.lookup entry.1) entry.2) :
    Belongs spec (.object members)

/-- The partition of a record, worked out. -/
def partition? (record : Json) : Option PartitionSpec :=
  match config.strategy with
  | .single => some config.fixedPartition
  | .grouped | .dynamic => (config.partitioner.partition record).toOption

/-- The record is not taken, and this is why. With a fixed partition no column is looked at. -/
inductive Rejects : Json → ComputationError → Prop
  | notAnObject {record : Json} (h : ∀ members, record ≠ .object members) :
    Rejects record (.notAnObject record.kind)
  /-- The first partition column that does not hold a scalar. -/
  | unsupported {members : List (String × Json)} {before after : List String} {column : String}
    {value : Json} (hmany : config.strategy ≠ .single)
    (hcolumns : config.columns = before ++ column :: after)
    (hbefore : ∀ c ∈ before, ∀ v, members.lookup c = some v → v.IsScalar)
    (hvalue : members.lookup column = some value) (h : ¬ value.IsScalar) :
    Rejects (.object members) (.unsupportedValue column value.kind)

/-- The line of a record: the members that are no partition columns, since those are in the path
already. -/
def line : Json → String
  | .object members =>
    (Json.object (members.filter fun m ↦ m.1 ∉ config.columns)).text ++ "\n"
  | _ => ""

/-- The bytes of a file: the lines of its records. -/
def content (f : Filed Json) : ByteArray := (String.join (f.records.map config.line)).toUTF8

/-- The line is blank, or has a record that fits. -/
def Accepts (line : Line) : Prop :=
  line = .blank ∨ ∃ record, line = .record record ∧ config.Fits record

/-- The line with this number is not taken, and this is why. -/
inductive Refuses (path : String) (number : Nat) : Line → SinkError → Prop
  | garbled : Refuses path number .garbled (.input path .invalidData)
  | malformed {fault : Json.Fault} :
    Refuses path number (.malformed fault) (.computation (.malformedRecord number fault))
  | notAnObject {record : Json} (h : ∀ members, record ≠ .object members) :
    Refuses path number (.record record) (.write (.computation (.notAnObject record.kind)))
  /-- The first partition column that does not hold a scalar. -/
  | unsupported {members : List (String × Json)} {before after : List String} {column : String}
    {value : Json} (hcolumns : config.columns = before ++ column :: after)
    (hbefore : ∀ c ∈ before, ∀ v, members.lookup c = some v → v.IsScalar)
    (hvalue : members.lookup column = some value) (h : ¬ value.IsScalar) :
    Refuses path number (.record (.object members))
      (.write (.computation (.unsupportedValue column value.kind)))

/-- The input can be read and all its lines are taken, and these are the records that they hold. -/
inductive Takes : Except FileFault ByteArray → List Json → Prop
  | lines {bytes : ByteArray} {lines : List Line} (hlines : Line.Listing bytes lines)
    (h : ∀ line ∈ lines, config.Accepts line) : Takes (.ok bytes) (lines.filterMap Line.record?)

/-- The input cannot be fed to its end: after these records there comes an error. -/
inductive Stops (path : String) : Except FileFault ByteArray → List Json → SinkError → Prop
  | unreadable {fault : FileFault} : Stops path (.error fault) [] (.input path fault)
  | line {bytes : ByteArray} {good rest : List Line} {bad : Line} {e : SinkError}
    (hlines : Line.Listing bytes (good ++ bad :: rest)) (hgood : ∀ line ∈ good, config.Accepts line)
    (hbad : config.Refuses path (good.length + 1) bad e) :
    Stops path (.ok bytes) (good.filterMap Line.record?) e

end Config

/-! ## What can be tested -/

instance (config : Config) : DecidablePred config.Fits
  | .object members => decidable_of_iff
      (∀ column ∈ config.columns, ∀ value ∈ (members.lookup column).toList, value.IsScalar)
      ⟨fun h ↦ ⟨members, rfl, forall_isScalar_iff.mpr h⟩,
        fun ⟨_, hm, h⟩ ↦ forall_isScalar_iff.mp (Json.object.inj hm ▸ h)⟩
  | .null | .boolean _ | .number _ | .string _ | .array _ => .isFalse fun ⟨_, hm, _⟩ ↦ nomatch hm

instance (config : Config) : DecidablePred config.Accepts
  | .blank => .isTrue (.inl rfl)
  | .record record => decidable_of_iff (config.Fits record)
      ⟨fun h ↦ .inr ⟨record, rfl, h⟩, fun h ↦ h.elim (nomatch ·) fun ⟨_, hr, h⟩ ↦
        Line.record.inj hr ▸ h⟩
  | .garbled | .malformed _ => .isFalse fun h ↦ h.elim (nomatch ·) fun ⟨_, hr, _⟩ ↦ nomatch hr

namespace Config

variable {config : Config}

/-! ## Valid configurations -/

theorem batchSize_pos (h : config.fault? = none) : 0 < config.batchSize := by
  apply Nat.pos_of_ne_zero
  intro hzero
  simp only [fault?, hzero, if_true] at h
  repeat' split at h
  all_goals cases h

theorem columns_eq_nil (h : config.fault? = none) (hsingle : config.strategy = .single) :
    config.columns = [] := by
  by_contra hcolumns
  have hboth : config.strategy = .single ∧ config.columns ≠ [] := ⟨hsingle, hcolumns⟩
  rw [fault?, if_pos hboth] at h
  split_ifs at h

end Config

/-! ## Where a record belongs -/

namespace Config

variable {config : Config} {run : String} {mishaps : Mishap → Prop} {init : MemoryStore}
variable {record : Json}

/-- A record that fits has a place. -/
theorem Fits.exists_place (h : config.Fits record) (run : String) (mishaps : Mishap → Prop)
    (init : MemoryStore) : ∃ spec projected,
      (config.desk run mishaps init).layout.place (config.desk run mishaps init).fixed record =
        .ok (spec, projected) := by
  obtain ⟨members, rfl, hscalar⟩ := h
  by_cases hsingle : config.strategy = .single
  · rw [desk_fixed_of_single hsingle]
    exact ⟨_, _, Layout.place_some.mpr ⟨rfl, rfl⟩⟩
  · obtain ⟨spec, hspec⟩ := JsonPartitioner.partition_of_scalars (p := config.partitioner) hscalar
    rw [desk_fixed_of_many hsingle]
    exact ⟨spec, _, Layout.place_none.mpr ⟨hspec, rfl⟩⟩

/-- The place of a record is in its partition. -/
theorem partition?_of_place {spec : PartitionSpec} {projected : Json}
    (h : (config.desk run mishaps init).layout.place (config.desk run mishaps init).fixed record =
      .ok (spec, projected)) : config.partition? record = some spec := by
  by_cases hsingle : config.strategy = .single
  · rw [desk_fixed_of_single hsingle] at h
    rw [partition?, hsingle, (Layout.place_some.mp h).1]
  · rw [desk_fixed_of_many hsingle] at h
    have hpartition : config.partitioner.partition record = .ok spec := (Layout.place_none.mp h).1
    rw [partition?, hpartition]
    split
    · next hs => exact absurd hs hsingle
    · rfl
    · rfl

/-- Where a record belongs can be worked out. -/
theorem belongs_iff {spec : PartitionSpec} :
    config.Belongs spec record ↔ config.partition? record = some spec := by
  by_cases hsingle : config.strategy = .single
  · rw [partition?, hsingle]
    constructor
    · rintro (⟨-, rfl⟩ | ⟨hmany, -, -⟩)
      · rfl
      · exact absurd hsingle hmany
    · intro h
      exact .fixed hsingle (Option.some.inj h).symm
  · have hpartition : config.partition? record =
        (config.partitioner.partition record).toOption := by
      unfold partition?
      split
      · next hs => exact absurd hs hsingle
      · rfl
      · rfl
    rw [hpartition, ← Option.mem_def, Except.mem_toOption, JsonPartitioner.partition_eq_ok_iff]
    constructor
    · rintro (⟨hs, -⟩ | ⟨-, hcolumns, hnames⟩)
      · exact absurd hs hsingle
      · exact ⟨_, rfl, hcolumns, hnames⟩
    · rintro ⟨members, rfl, hcolumns, hnames⟩
      exact .columns hsingle hcolumns hnames

instance (config : Config) (spec : PartitionSpec) (record : Json) :
    Decidable (config.Belongs spec record) :=
  decidable_of_iff _ belongs_iff.symm

/-- A record that has a place belongs there. -/
theorem belongs_desk {place : PartitionSpec} {projected : Json}
    (h : (config.desk run mishaps init).layout.place (config.desk run mishaps init).fixed record =
      .ok (place, projected)) (spec : PartitionSpec) :
    (config.desk run mishaps init).Belongs spec record = decide (config.Belongs spec record) := by
  rw [Filed.belongs_of_place h, decide_eq_decide, belongs_iff, partition?_of_place h]
  simp

/-- A record adds its line, whatever the file holds already. -/
theorem line_desk (record : Json) (buffer : ByteArray) :
    (config.desk run mishaps init).layout.line record buffer = (config.line record).toUTF8 := by
  cases record with
  | object members =>
    have hmembers : (members.filter fun m ↦ !config.columns.contains m.1) =
        members.filter fun m ↦ m.1 ∉ config.columns :=
      List.filter_congr fun m _ ↦ by simp
    rw [line, ← hmembers]
    rfl
  | _ => rfl

/-- The bytes of a file are the lines of its records. -/
theorem lines_desk (records : List Json) : (config.desk run mishaps init).layout.lines records =
    (String.join (records.map config.line)).toUTF8 := by
  induction records using List.reverseRecOn with
  | nil => rfl
  | append_singleton records record ih =>
    rw [Layout.lines_concat, ih, line_desk, List.map_append, List.map_singleton,
      String.join_append]
    simp

theorem bytes_desk (f : Filed Json) : f.bytes (config.desk run mishaps init).layout =
    config.content f := lines_desk f.records

/-- What is to be taken is taken. -/
theorem Accepts.takes {line : Line} (h : config.Accepts line) :
    (config.desk run mishaps init).Takes line := by
  obtain rfl | ⟨record, rfl, hfits⟩ := h
  · exact .inl rfl
  · obtain ⟨spec, projected, hplace⟩ := hfits.exists_place run mishaps init
    exact .inr ⟨record, spec, projected, rfl, hplace⟩

/-- A record that is rejected has no place, for this reason. -/
theorem Rejects.place {e : ComputationError} (h : config.Rejects record e) :
    (config.desk run mishaps init).layout.place (config.desk run mishaps init).fixed record =
      .error e := by
  cases h with
  | notAnObject h =>
    by_cases hsingle : config.strategy = .single
    · have hproject : config.partitioner.project record = .error (.notAnObject record.kind) := by
        cases record with
        | object members => exact absurd rfl (h members)
        | _ => rfl
      rw [desk_fixed_of_single hsingle]
      exact Layout.place_some_of_project hproject
    · have hrefuses : config.partitioner.Refuses record _ := .notAnObject h
      rw [desk_fixed_of_many hsingle]
      exact Layout.place_none_of_partition hrefuses.partition
  | unsupported hmany hcolumns hbefore hvalue h =>
    have hrefuses : config.partitioner.Refuses _ _ := .unsupported hcolumns hbefore hvalue h
    rw [desk_fixed_of_many hmany]
    exact Layout.place_none_of_partition hrefuses.partition

/-- What is not to be taken is not, with the error that belongs to it. -/
theorem Refuses.desk (hvalid : config.fault? = none) {path : String} {number : Nat} {line : Line}
    {e : SinkError} (h : config.Refuses path number line e) :
    (config.desk run mishaps init).Refuses path number line e := by
  cases h with
  | garbled => exact .garbled
  | malformed => exact .malformed
  | notAnObject h => exact .rejected (Rejects.place (.notAnObject h))
  | unsupported hcolumns hbefore hvalue h =>
    have hmany : config.strategy ≠ .single := by
      intro hsingle
      rw [columns_eq_nil hvalid hsingle] at hcolumns
      simp at hcolumns
    exact .rejected (Rejects.place (.unsupported hmany hcolumns hbefore hvalue h))

/-- Lines that are taken have records that fit. -/
theorem fits_of_accepts {lines : List Line} (h : ∀ line ∈ lines, config.Accepts line)
    (hr : record ∈ lines.filterMap Line.record?) : config.Fits record := by
  obtain ⟨line, hline, hrecord⟩ := List.mem_filterMap.mp hr
  obtain rfl | ⟨record', rfl, hfits⟩ := h line hline
  · cases hrecord
  · obtain rfl := Option.some.inj hrecord
    exact hfits

/-- Whether an input is taken can be seen from its lines. -/
theorem takes_ok_iff {bytes : ByteArray} {records : List Json} :
    config.Takes (.ok bytes) records ↔ (∀ line ∈ Line.ofInput bytes, config.Accepts line) ∧
      (Line.ofInput bytes).filterMap Line.record? = records := by
  constructor
  · rintro ⟨hlines, h⟩
    rw [Line.listing_iff.mp hlines]
    exact ⟨h, rfl⟩
  · rintro ⟨h, rfl⟩
    exact .lines (Line.listing_iff.mpr rfl) h

/-- Only an input that can be read is taken. -/
theorem Takes.exists_bytes {content : Except FileFault ByteArray} {records : List Json}
    (h : config.Takes content records) : ∃ bytes, content = .ok bytes := by
  cases h with
  | @lines bytes _ _ _ => exact ⟨bytes, rfl⟩

theorem Takes.fits {content : Except FileFault ByteArray} {records : List Json}
    (h : config.Takes content records) (hr : record ∈ records) : config.Fits record := by
  obtain ⟨-, h⟩ := h
  exact fits_of_accepts h hr

theorem fits_of_takes {read : String → Except FileFault ByteArray} {paths : List String}
    {parts : List (List Json)}
    (h : List.Forall₂ (fun path records ↦ config.Takes (read path) records) paths parts)
    (hr : record ∈ parts.flatten) : config.Fits record := by
  induction h with
  | nil => cases hr
  | cons htakes _ ih =>
    rcases List.mem_append.mp hr with hr | hr
    · exact htakes.fits hr
    · exact ih hr

theorem Stops.fits {path : String} {content : Except FileFault ByteArray} {taken : List Json}
    {e : SinkError} (h : config.Stops path content taken e) (hr : record ∈ taken) :
    config.Fits record := by
  cases h with
  | unreadable => cases hr
  | line _ hgood _ => exact fits_of_accepts hgood hr

/-- A line is taken, or there is an error that says why it is not. -/
theorem accepts_or_refuses (config : Config) (path : String) (number : Nat) (line : Line) :
    config.Accepts line ∨ ∃ e, config.Refuses path number line e := by
  cases line with
  | blank => exact .inl (.inl rfl)
  | garbled => exact .inr ⟨_, .garbled⟩
  | malformed fault => exact .inr ⟨_, .malformed⟩
  | record record =>
    obtain hfits | ⟨e, hrefuses⟩ := config.partitioner.scalars_or_refuses record
    · exact .inl (.inr ⟨record, rfl, hfits⟩)
    · cases hrefuses with
      | notAnObject h => exact .inr ⟨_, .notAnObject h⟩
      | unsupported hcolumns hbefore hvalue h =>
        exact .inr ⟨_, .unsupported hcolumns hbefore hvalue h⟩

/-- An input is taken as a whole, or feeding stops in it. -/
theorem takes_or_stops (config : Config) (path : String) (content : Except FileFault ByteArray) :
    (∃ records, config.Takes content records) ∨
      ∃ taken e, config.Stops path content taken e := by
  cases content with
  | error fault => exact .inr ⟨_, _, .unreadable⟩
  | ok bytes =>
    rcases forall_or_exists_first config.Accepts (Line.ofInput bytes) with
      hall | ⟨good, bad, rest, hlines, hgood, hbad⟩
    · exact .inl ⟨_, .lines (Line.listing_iff.mpr rfl) hall⟩
    · obtain ⟨e, he⟩ := (config.accepts_or_refuses path (good.length + 1) bad).resolve_left hbad
      exact .inr ⟨_, e, .line (Line.listing_iff.mpr hlines) hgood he⟩

end Config

end TableSink
