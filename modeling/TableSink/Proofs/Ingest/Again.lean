import TableSink.Proofs.Ingest.Framing
import TableSink.Proofs.Ingest.Run
import TableSink.Proofs.Sink.Abandoned
import TableSink.Proofs.Sink.Lone
import TableSink.Proofs.Sink.Shown

/-!
# What was published can be fed again

A file of lines is an input. With the single strategy it holds the records of a batch as they were
written (`Sink.Course.exists_lines`), and a run of that strategy makes one file of an input that a
batch covers (`Trace.ingest_single`). So such a run gives a published file back, byte for byte
(`Trace.lines_lossless`).
-/

namespace TableSink

open MemoryStore (Replies)
open Filed (InOrder within recordsIn)

/-! ## One file for all records -/

namespace Sink

variable {d : Desk Json} {b : Books Json} {store after : MemoryStore} {s : Sink}
variable {records : List Json} {spec : PartitionSpec}

theorem lone_new {config : Config} (hvalid : config.fault? = none)
    (hsingle : config.strategy = .single) (run : String) :
    (new config run).Lone config.fixedPartition 0 where
  fixed := by simp [new, Writer.new, hsingle, Writer.fixed]
  size_pos := Config.batchSize_pos hvalid
  inBatch := (Nat.zero_mod _).symm
  begun h := absurd rfl h
  count_le := by
    rw [allocator_new]
    exact Nat.zero_le _
  others bucket _ := by
    rw [allocator_new]
    rfl

/-- A batch that is not full yet, or just so, has one file at most. -/
theorem Lone.count_le_one {n : Nat} (h : s.Lone spec n) (hpos : 0 < n) (hsize : n ≤ s.batchSize) :
    s.writer.allocator.count spec.bucket ≤ 1 := by
  refine h.count_le.trans ?_
  rcases Nat.lt_or_eq_of_le hsize with hlt | rfl
  · rw [Nat.div_eq_of_lt hlt]
    split <;> decide
  · rw [Nat.mod_self, Nat.div_self hpos, if_pos rfl]

/-- All files are of the one partition. -/
theorem Fed.within_eq_self {n : Nat} (h : s.Fed d store b records) (hlone : s.Lone spec n) :
    within spec (b.shown ++ b.batch) = b.shown ++ b.batch := by
  refine List.filter_eq_self.mpr fun f hf ↦ decide_eq_true ?_
  by_contra hspec
  have hcount := h.count_eq f.spec
  rw [hlone.others _ fun he ↦ hspec (PartitionSpec.bucket_injective he)] at hcount
  exact List.ne_nil_of_mem (Filed.mem_within.mpr ⟨hf, rfl⟩)
    (List.length_eq_zero_iff.mp hcount.symm)

/-- The one file of a batch has all its records. -/
theorem Fed.eq_singleton (h : s.Fed d store b records) (hlone : s.Lone spec records.length)
    (hbelongs : ∀ r ∈ records, d.Belongs spec r) (hne : records ≠ [])
    (hsize : records.length ≤ s.batchSize) : b.shown ++ b.batch = [⟨spec, 0, records⟩] := by
  have hall := h.within_eq_self hlone
  have hrecords : recordsIn (b.shown ++ b.batch) = records := by
    rw [← hall, h.inOrder.records, List.filter_eq_self]
    exact hbelongs
  have hsequences := h.inOrder.sequences spec
  have hlength : (b.shown ++ b.batch).length ≤ 1 := by
    rw [← hall, ← h.count_eq]
    exact hlone.count_le_one (List.length_pos_iff.mpr hne) hsize
  rw [hall] at hsequences
  have hspecs : ∀ f ∈ b.shown ++ b.batch, f.spec = spec := fun f hf ↦
    of_decide_eq_true (List.filter_eq_self.mp hall f hf)
  generalize b.shown ++ b.batch = files at hrecords hsequences hlength hspecs
  match files, hlength with
  | [], _ => exact absurd hrecords.symm hne
  | [f], _ =>
    obtain rfl : f.records = records := by simpa [recordsIn] using hrecords
    obtain rfl := hspecs f (List.mem_singleton_self f)
    have hzero : f.sequence = 0 := by simpa using hsequences
    rw [← hzero]

/-- If there is one file and it shows, nothing else has changed. -/
theorem Keeps.get?_of_singleton (h : s.Keeps d store b) {f : Filed Json} (hshown : b.shown = [f])
    (hrest : b.kept = [] ∧ b.closed = [] ∧ b.opened = [] ∧ b.removed = [] ∧ b.dropped = []) :
    store.get? (f.slot d.base).target = some (f.bytes d.layout) ∧
      store.get? (f.slot d.base).staging = none ∧
      ∀ p, p ≠ (f.slot d.base).target → p ≠ (f.slot d.base).staging →
        store.get? p = d.init.get? p := by
  have hmem : f ∈ b.files .shown := by simp [Books.files, hshown]
  have hstands := h.tracks.stands hmem
  refine ⟨hstands.1, hstands.2, fun p htarget hstaging ↦ ?_⟩
  obtain hsame | ⟨g, status, hg, hplace⟩ := h.tracks.frame_or_place p
  · exact hsame
  · obtain rfl : g = f := by
      cases status with
      | shown => simpa [Books.files, hshown] using hg
      | _ => simp [Books.files, hrest] at hg
    rcases hplace with rfl | rfl
    · exact absurd rfl hstaging
    · exact absurd rfl htarget

end Sink

namespace Trace

variable {config : Config} {name path : String} {bytes : ByteArray} {records : List Json}

/-- With the single strategy, a batch size that covers an input makes one file of it. -/
theorem ingest_single (hvalid : config.fault? = none) (hsingle : config.strategy = .single)
    (hurl : Location.ofUrl? config.table = some (.memory name)) (run : String) (trace : Trace)
    (hread : trace.world.disk.read path = .ok bytes)
    (hlines : ∀ line ∈ Line.ofInput bytes, config.Accepts line)
    (hrecords : (Line.ofInput bytes).filterMap Line.record? = records) (hne : records ≠ [])
    (hsize : records.length ≤ config.batchSize) :
    let slot := (config.allocator run).slot config.fixedPartition 0
    let outcome := surroundings.ingest config run [path] trace
    let after := outcome.2.world.store name
    outcome.1 = .ok (.ok { records := records.length, batches := 1, committed := 1 }) ∧
      after.get? slot.target = some ((Sink.new config run).layout.lines records) ∧
      after.get? slot.staging = none ∧
      ∀ p, p ≠ slot.target → p ≠ slot.staging →
        after.get? p = (trace.world.store name).get? p := by
  intro slot outcome after
  obtain ⟨ending, store, hfeed, hfinish⟩ := ends_ingest hurl run [path] trace
  simp only [List.map_cons, List.map_nil, hread, Sink.feedInputs, Task.ends_bind] at hfeed
  obtain ⟨fed, store₁, hinput, hfeed⟩ := hfeed
  obtain ⟨s, rfl, hbatchSize, b, hfed⟩ := (Sink.fed_new hvalid run _).feedInput (fun _ hm ↦ hm)
    jsonLines_total (fun line hline ↦ (hlines line hline).takes) hinput
  have hlone := (Sink.lone_new hvalid hsingle run).feedLines hinput
  obtain ⟨rfl, rfl⟩ := Task.ends_done.mp hfeed
  obtain ⟨hfinish, -⟩ := hfinish s _ rfl
  rw [List.nil_append, hrecords] at hfed
  rw [← Line.ofInput, hrecords, Nat.zero_add] at hlone
  have hsize' : records.length ≤ s.batchSize := hbatchSize ▸ hsize
  have hbelongs : ∀ r ∈ records,
      (config.desk run Mishap.none (trace.world.store name)).Belongs config.fixedPartition r := by
    intro r hr
    obtain ⟨spec, projected, hplace⟩ := (Config.fits_of_accepts hlines (hrecords ▸ hr)).exists_place
      run Mishap.none (trace.world.store name)
    rw [Config.belongs_desk hplace]
    exact decide_eq_true (.fixed hsingle rfl)
  have hone := hfed.eq_singleton hlone hbelongs hne hsize'
  obtain ⟨s', hkeeps, hresult⟩ := hfed.keeps_finishRun (fun _ hm ↦ hm) hfinish
  obtain ⟨hkept, hremoved, hdropped⟩ := hfed.none_gone
  obtain ⟨htarget, hstaging, hframe⟩ :=
    hkeeps.get?_of_singleton hone ⟨rfl, rfl, rfl, hremoved, hdropped⟩
  refine ⟨?_, htarget, hstaging, hframe⟩
  have hbatches : (records.length + s.batchSize - 1) / s.batchSize = 1 := by
    have hpos := List.length_pos_iff.mpr hne
    exact Nat.div_eq_of_lt_le (by omega) (by omega)
  rw [hresult, hone, hbatches]
  rfl

end Trace

/-! ## What was published -/

namespace Config

variable {config : Config} {run : String}

/-- Without partition columns, a line holds the record as it came. -/
theorem line_of_columns_eq_nil (hcolumns : config.columns = []) (record : Json)
    (buffer : ByteArray) : (Sink.new config run).layout.line record buffer =
      if config.Fits record then (jsonLines record buffer).1 else .empty := by
  have hproject : ∀ members, (Sink.new config run).layout.computer.project (.object members) =
      .ok (.object members) := by
    intro members
    simp [Sink.new, JsonPartitioner.computer, JsonPartitioner.project, hcolumns]
  cases record with
  | object members =>
    have hfits : config.Fits (.object members) := ⟨members, rfl, by simp [hcolumns]⟩
    rw [if_pos hfits, Layout.line, hproject]
    rfl
  | null => rfl
  | boolean _ => rfl
  | number _ => rfl
  | string _ => rfl
  | array _ => rfl

theorem bytes_of_columns_eq_nil (hcolumns : config.columns = []) (records : List Json) :
    ((Sink.new config run).layout.lines records).data.toList =
      ((records.filter fun r ↦ config.Fits r).map Json.lineBytes).flatMap
        (· ++ [Text.lineFeed]) := by
  induction records using List.reverseRecOn with
  | nil => rfl
  | append_singleton records record ih =>
    rw [Layout.lines_concat, ByteArray.toList_data_append, ih, line_of_columns_eq_nil hcolumns,
      List.filter_append, List.map_append, List.flatMap_append]
    by_cases hfits : config.Fits record
    · simp [hfits, bytes_jsonLines]
    · simp [hfits]

/-- A file is empty only if nothing was written to it. -/
theorem bytes_eq_nil_iff (hcolumns : config.columns = []) (records : List Json) :
    ((Sink.new config run).layout.lines records).data.toList = [] ↔
      (records.filter fun r ↦ config.Fits r) = [] := by
  rw [bytes_of_columns_eq_nil hcolumns, List.flatMap_eq_nil_iff, List.forall_mem_map,
    List.eq_nil_iff_forall_not_mem]
  exact forall₂_congr fun v _ ↦ iff_of_false
    (List.append_ne_nil_of_right_ne_nil _ (List.cons_ne_nil _ _)) not_false

/-- Without partition columns, only objects are asked for. -/
theorem Fits.of_columns_eq_nil {config' : Config} {record : Json} (h : config.Fits record)
    (hcolumns : config'.columns = []) : config'.Fits record := by
  obtain ⟨members, rfl, -⟩ := h
  exact ⟨members, rfl, by simp [hcolumns]⟩

/-- Without partition columns, every record with a place fits. -/
theorem fits_of_place (hcolumns : config.columns = []) {mishaps : Mishap → Prop}
    {init : MemoryStore} {spec : PartitionSpec} {record projected : Json}
    (h : (config.desk run mishaps init).layout.place (config.desk run mishaps init).fixed record =
      .ok (spec, projected)) : config.Fits record := by
  have hproject := Layout.project_of_place h
  cases record with
  | object members => exact ⟨members, rfl, by simp [hcolumns]⟩
  | null => cases hproject
  | boolean _ => cases hproject
  | number _ => cases hproject
  | string _ => cases hproject
  | array _ => cases hproject

end Config

/-- An object that a sink of the single strategy has published holds records of a batch that was
closed in good order, at least one, each on its line. -/
theorem Sink.Course.exists_lines {config : Config} {run : String} {mishaps : Mishap → Prop}
    {init store : MemoryStore} {s : Sink} {j : Journal}
    (h : Course config run (Replies mishaps) init s store j) (hvalid : config.fault? = none)
    (hsingle : config.strategy = .single) {p : ObjectPath} {data : ByteArray}
    (hp : p.isBelow (config.allocator run).taskDir = false) (hdata : store.get? p = some data)
    (hne : store.get? p ≠ init.get? p) :
    ∃ t ∈ j.closed, ∃ vs : List Json, vs ≠ [] ∧ vs.Sublist t.records ∧
      (∀ v ∈ vs, config.Fits v) ∧
      data.data.toList = (vs.map Json.lineBytes).flatMap (· ++ [Text.lineFeed]) := by
  have hcolumns := Config.columns_eq_nil hvalid hsingle
  obtain hsame | ⟨t, ht, f, hf, -, hbytes⟩ :=
    (h.mono fun _ _ _ _ ↦ Replies.fickle).apart.shown p hp
  · exact absurd hsame hne
  obtain rfl : data = f.bytes (new config run).layout :=
    Option.some.inj (hdata.symm.trans hbytes)
  refine ⟨t, ht, f.records.filter fun r ↦ config.Fits r, fun hnil ↦ ?_,
    List.filter_sublist.trans hf.records,
    fun v hv ↦ of_decide_eq_true (List.mem_filter.mp hv).2,
    Config.bytes_of_columns_eq_nil hcolumns _⟩
  -- The object is the file of a record that has a place, so it is not empty.
  obtain ⟨g, ⟨hrecords, hplaces⟩, hbytes'⟩ := h.exists_proper hp hne
  obtain ⟨r, hr⟩ := List.exists_mem_of_ne_nil _ hrecords
  obtain ⟨projected, hplace⟩ := hplaces r hr
  have hsame : f.bytes (new config run).layout = g.bytes (new config run).layout :=
    Option.some.inj (hbytes.symm.trans hbytes')
  have hempty : (f.bytes (new config run).layout).data.toList = [] :=
    (Config.bytes_eq_nil_iff hcolumns f.records).mpr hnil
  rw [hsame] at hempty
  exact List.ne_nil_of_mem (List.mem_filter.mpr
    ⟨hr, decide_eq_true (Config.fits_of_place hcolumns hplace)⟩)
    ((Config.bytes_eq_nil_iff hcolumns g.records).mp hempty)

/-- Values that go into a file as lines of JSON come out again: the file splits at line feeds into a
line for each of them and an empty rest, no line is blank, each line is the text of its value, and
read as an input the file gives the values in their order. Values have their members sorted when
they are read, so those that have them sorted already come out as they went in.

Hence a file that a sink of the single strategy has published, whatever else it was asked to do and
whatever went wrong, can be fed to another run of that strategy. If a batch covers it, the run
publishes just one file, with the same bytes, and changes nothing else in its table. -/
theorem Trace.lines_lossless :
    (∀ (slot : Slot) (vs : List Json), (∀ v ∈ vs, v.Fits Json.depthLimit) →
      ∃ file, OpenFile.appendAll jsonLines { slot } vs = .ok file ∧
        file.records = vs.length ∧
        file.buffer.data.toList.splitOn Text.lineFeed =
          vs.map (fun v ↦ v.text.toUTF8.data.toList) ++ [[]] ∧
        (∀ v ∈ vs, Text.allBlank v.text = false) ∧
        Line.ofInput file.buffer = vs.map (fun v ↦ .record v.canonical) ∧
        ((∀ v ∈ vs, v.canonical = v) → Line.ofInput file.buffer = vs.map .record)) ∧
    ∀ {config config' : Config} {run name path : String} {mishaps : Mishap → Prop}
      {init store : MemoryStore} {s : Sink} {j : Journal} {p : ObjectPath} {data : ByteArray}
      (run' : String) (trace : Trace),
      config.fault? = none → config.strategy = .single →
      Sink.Course config run (Replies mishaps) init s store j →
      (∀ t ∈ j.closed, ∀ v ∈ t.records, v.Fits Json.depthLimit ∧ v.canonical = v) →
      p.isBelow (config.allocator run).taskDir = false →
      store.get? p = some data → store.get? p ≠ init.get? p →
      config'.fault? = none → config'.strategy = .single →
      Location.ofUrl? config'.table = some (.memory name) →
      trace.world.disk.read path = .ok data →
      data.data.toList.count Text.lineFeed ≤ config'.batchSize →
      let slot := (config'.allocator run').slot config'.fixedPartition 0
      let outcome := surroundings.ingest config' run' [path] trace
      let after := outcome.2.world.store name
      outcome.1 = .ok (.ok
        { records := data.data.toList.count Text.lineFeed, batches := 1, committed := 1 }) ∧
      after.get? slot.target = some data ∧
      after.get? slot.staging = none ∧
      ∀ q, q ≠ slot.target → q ≠ slot.staging →
        after.get? q = (trace.world.store name).get? q := by
  constructor
  · intro slot vs hvs
    obtain ⟨file, hfile, hrecords, hbytes⟩ := OpenFile.appendAll_jsonLines { slot } vs
    have hlines : file.buffer.data.toList =
        (vs.map Json.lineBytes).flatMap (· ++ [Text.lineFeed]) := by
      rw [hbytes]
      rfl
    have hread := Line.ofInput_of_bytes hvs hlines
    refine ⟨file, hfile, hrecords.trans (Nat.zero_add _), ?_,
      fun v hv ↦ Json.allBlank_text (hvs v hv), hread,
      fun hcanonical ↦ hread.trans (Line.map_record_canonical hcanonical)⟩
    rw [hlines, Text.splitOn_flatMap (Json.lineFeed_notMem vs)]
    rfl
  · intro config config' run name path mishaps init store s j p data run' trace hvalid hsingle
      hcourse hclosed hp hdata hne hvalid' hsingle' hurl hread hsize
    obtain ⟨t, ht, vs, hvs, hsub, hfits, hbytes⟩ :=
      hcourse.exists_lines hvalid hsingle hp hdata hne
    have hstorable := fun v (hv : v ∈ vs) ↦ hclosed t ht v (hsub.subset hv)
    have hlines : Line.ofInput data = vs.map .record :=
      (Line.ofInput_of_bytes (fun v hv ↦ (hstorable v hv).1) hbytes).trans
        (Line.map_record_canonical fun v hv ↦ (hstorable v hv).2)
    have hcount : data.data.toList.count Text.lineFeed = vs.length := by
      rw [hbytes, Text.count_flatMap (Json.lineFeed_notMem vs), List.length_map]
    have hcolumns := Config.columns_eq_nil hvalid' hsingle'
    have hfits' : ∀ v ∈ vs, config'.Fits v := fun v hv ↦ (hfits v hv).of_columns_eq_nil hcolumns
    have haccepts : ∀ line ∈ Line.ofInput data, config'.Accepts line := by
      rw [hlines]
      exact List.forall_mem_map.mpr fun v hv ↦ .inr ⟨v, rfl, hfits' v hv⟩
    have hrecords : (Line.ofInput data).filterMap Line.record? = vs := by
      rw [hlines, List.filterMap_map]
      exact List.filterMap_some
    rw [hcount] at hsize ⊢
    obtain ⟨hresult, htarget, hstaging, hframe⟩ :=
      ingest_single hvalid' hsingle' hurl run' trace hread haccepts hrecords hvs hsize
    refine ⟨hresult, ?_, hstaging, hframe⟩
    rw [htarget]
    refine congrArg some (ByteArray.ext (Array.toList_inj.mp ?_))
    rw [Config.bytes_of_columns_eq_nil hcolumns, hbytes, List.filter_eq_self.mpr]
    exact fun v hv ↦ decide_eq_true (hfits' v hv)

/-- Two records with characters that end lines in them, published by one run and by another one that
has a partition for its file. -/
theorem Trace.lines_lossless_two_records :
    let config : Config := { table := "memory://first", strategy := .single }
    let config' : Config := { table := "memory://second", strategy := .single
                              fixedPartition := [("day", "1")], batchSize := 2 }
    let slot := (config.allocator "r").slot config.fixedPartition 0
    let slot' := (config'.allocator "s").slot config'.fixedPartition 0
    let first : Json := .object [("a\n", .string "\r\x00\x85\u2028")]
    let second : Json := .object
      [("n", .number (.integer (-9223372036854775808))), ("t", .array [.null, .object []])]
    ∃ file s store j data,
      OpenFile.appendAll jsonLines { slot } [first, second] = .ok file ∧
      Line.ofInput file.buffer = [.record first, .record second] ∧
      Sink.Course config "r" (Replies Mishap.none) .empty s store j ∧
      store.get? slot.target = some data ∧
      let disk : Disk := ⟨.directory [("in", .file data)], []⟩
      let outcome := surroundings.ingest config' "s" ["in"] ⟨⟨[], disk⟩, []⟩
      outcome.1 = .ok (.ok { records := 2, batches := 1, committed := 1 }) ∧
      (outcome.2.world.store "second").get? slot'.target = some data := by
  intro config config' slot slot' first second
  have hfits : ∀ v ∈ [first, second], v.Fits Json.depthLimit ∧ v.canonical = v := by
    simp only [List.forall_mem_cons, List.not_mem_nil, false_imp_iff, implies_true, and_true]
    exact ⟨⟨by simp [first, Json.Fits, Json.FitMembers, Json.depthLimit], rfl⟩,
      by simp [second, Json.Fits, Json.FitMembers, Json.FitItems, Json.Fits64, Json.depthLimit],
      rfl⟩
  obtain ⟨file, hfile, -, -, -, -, hread'⟩ :=
    Trace.lines_lossless.1 slot [first, second] fun v hv ↦ (hfits v hv).1
  have hstart : Sink.Course config "r" (Replies Mishap.none) .empty (Sink.new config "r") .empty
      (.start (config.allocator "r")) :=
    .start (Task.ends_run MemoryStore.answer Replies.regular (Sink.start config "r") .empty)
  let calls : List Sink.Call := [.write first, .write second, .checkpoint]
  obtain ⟨x, hx, hstored⟩ := (Option.any_eq_true _ _).mp
    (show ((Sink.proceed config MemoryStore.answer calls (Sink.new config "r") .empty
      (.start (config.allocator "r"))).any fun x ↦ decide (∃ data ∈ x.2.1.get? slot.target,
        data.data.toList.count Text.lineFeed = 2)) = true by decide +kernel)
  obtain ⟨s, store, j⟩ := x
  obtain ⟨data, hdata, hcount⟩ := of_decide_eq_true hstored
  have hcourse := hstart.proceed MemoryStore.answer Replies.regular hx
  have hrecords : j.Has fun v ↦ v.Fits Json.depthLimit ∧ v.canonical = v :=
    Sink.has_proceed MemoryStore.answer (by simpa [calls, Sink.Call.records] using hfits)
      ⟨nofun, nofun⟩ hx
  have hp : slot.target.isBelow (config.allocator "r").taskDir = false := by decide +kernel
  have hvalid : config.fault? = none := by decide +kernel
  have hvalid' : config'.fault? = none := by decide +kernel
  have hurl : Location.ofUrl? config'.table = some (.memory "second") := by decide +kernel
  have hne : store.get? slot.target ≠ MemoryStore.empty.get? slot.target := by
    rw [hdata]
    exact Option.some_ne_none data
  let trace : Trace := ⟨⟨[], ⟨.directory [("in", .file data)], []⟩⟩, []⟩
  have hread : trace.world.disk.read "in" = .ok data := by rfl
  obtain ⟨hresult, htarget, -⟩ := Trace.lines_lossless.2 "s" trace hvalid rfl hcourse
    hrecords.2 hp hdata hne hvalid' rfl hurl hread (by rw [hcount])
  rw [hcount] at hresult
  exact ⟨file, s, store, j, data, hfile, hread' fun v hv ↦ (hfits v hv).2, hcourse, hdata, hresult,
    htarget⟩

end TableSink
