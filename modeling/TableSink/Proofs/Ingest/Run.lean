import TableSink.Proofs.Ingest.Overlapping
import TableSink.Proofs.Ingest.Publish
import TableSink.RunName

/-!
# What a run publishes

A run on a store in memory either takes all its inputs, and then it publishes the records of all of
them (`Trace.ingest_publishes_all`), or it stops at the first thing that it cannot take, and then it
publishes those of the batches that were full by then (`Trace.ingest_publishes_full`). Every input
is of the one kind or of the other (`Config.takes_or_stops`). Both is so however the commits of the
run overlap.
-/

namespace TableSink

open MemoryStore (Replies)
open Filed (InOrder)

namespace Sink

variable {d : Desk Json} {store store' after : MemoryStore} {b : Books Json} {s s' : Sink}
variable {records : List Json} {ending : Ending}

/-- All inputs were taken. -/
theorem Fed.feedInputs (hcalm : d.Calm)
    (hencoder : d.layout.encoder.Total) {config : Config}
    (htakes : ∀ line, config.Accepts line → d.Takes line)
    {good rest : List (String × Except FileFault ByteArray)} {parts : List (List Json)}
    (h : s.Fed d store b records)
    (hgood : List.Forall₂ (fun input records ↦ config.Takes input.2 records) good parts)
    (hf : (s.feedInputs (good ++ rest)).Ends (Replies d.mishaps) store ending store') :
    ∃ (s₁ : Sink) (store₁ : MemoryStore) (b₁ : Books Json), s₁.batchSize = s.batchSize ∧
      s₁.Fed d store₁ b₁ (records ++ parts.flatten) ∧
      (s₁.feedInputs rest).Ends (Replies d.mishaps) store₁ ending store' := by
  induction hgood generalizing s store b records with
  | nil => exact ⟨s, store, b, rfl, by simpa using h, hf⟩
  | @cons input part good parts hinput _ ih =>
    obtain ⟨path, content⟩ := input
    obtain ⟨bytes, rfl⟩ := hinput.exists_bytes
    obtain ⟨hlines, rfl⟩ := Config.takes_ok_iff.mp hinput
    simp only [List.cons_append, Sink.feedInputs, Task.ends_bind] at hf
    obtain ⟨fed, store₁, hfeed, hf⟩ := hf
    obtain ⟨s₁, rfl, hsize, b₁, hfed⟩ :=
      h.feedInput hcalm hencoder (fun line hline ↦ htakes line (hlines line hline)) hfeed
    obtain ⟨s₂, store₂, b₂, hsize', hfed', hf'⟩ := ih hfed hf
    refine ⟨s₂, store₂, b₂, hsize'.trans hsize, ?_, hf'⟩
    rw [List.flatten_cons, ← List.append_assoc]
    exact hfed'

/-- An input that cannot be fed to its end. -/
theorem Fed.feedInput_of_stops {config : Config} {run : String} {before : MemoryStore}
    (hvalid : config.fault? = none) {path : String}
    {content : Except FileFault ByteArray} {taken : List Json} {e : SinkError}
    (h : s.Fed (config.desk run Mishap.none before) store b records)
    (hstops : config.Stops path content taken e)
    (hf : (s.feedInput path content).Ends (Replies Mishap.none) store ending store') :
    ∃ s', ending = .ok (s', .error e) ∧ s'.batchSize = s.batchSize ∧
      ∃ b', s'.Fed (config.desk run Mishap.none before) store' b' (records ++ taken) := by
  cases hstops with
  | unreadable =>
    obtain ⟨rfl, rfl⟩ := Task.ends_done.mp hf
    exact ⟨s, rfl, rfl, b, by simpa using h⟩
  | line hlines hgood hbad =>
    rw [Sink.feedInput, ← Line.ofInput, Line.listing_iff.mp hlines] at hf
    obtain ⟨s₁, store₁, b₁, hsize, hfed, hf⟩ := h.feedLines (fun _ hm ↦ hm) jsonLines_total
      (fun line hline ↦ (hgood line hline).takes) hf
    rw [Nat.add_comm] at hf
    obtain ⟨s₂, rfl, hsize', hfed'⟩ := hfed.feedLines_cons (hbad.desk hvalid) hf
    exact ⟨s₂, rfl, hsize'.trans hsize, b₁, hfed'⟩

theorem fed_new {config : Config} (hvalid : config.fault? = none) (run : String)
    (before : MemoryStore) :
    (new config run).Fed (config.desk run Mishap.none before) before {} [] where
  keeps := keeps_new config run Mishap.none before
  none_gone := ⟨rfl, rfl, rfl⟩
  size_pos := Config.batchSize_pos hvalid
  inBatch := (Nat.zero_mod _).symm
  stats := by
    rw [List.length_nil, Nat.zero_div]
    rfl
  pending := rfl
  shown := by simpa using InOrder.nil (config.desk run Mishap.none before)
  inOrder := InOrder.nil _

/-- A run feeds its inputs to a new sink and finishes with it. -/
theorem ends_ingest {config : Config} {run : String} {before after : MemoryStore}
    {inputs : List (String × Except FileFault ByteArray)}
    {result : Except Panic (Except SinkError SinkStats)}
    (h : (Sink.ingest config run inputs).Ends (Replies Mishap.none) before result after) :
    ∃ ending store,
      ((new config run).feedInputs inputs).Ends (Replies Mishap.none) before ending store ∧
      ∀ s fed, ending = .ok (s, fed) →
        (s.finishRun fed).Ends (Replies Mishap.none) store result after := by
  simp only [Sink.ingest, Task.ends_bind] at h
  obtain ⟨started, store, hstart, h⟩ := h
  obtain ⟨rfl, rfl | ⟨-, m, hm⟩⟩ := ends_start hstart
  · obtain ⟨ending, store', hfed, hfinish⟩ := Task.ends_bind.mp h
    refine ⟨ending, store', hfed, ?_⟩
    rintro s fed rfl
    exact hfinish
  · exact hm.elim

/-- The open batch is empty if and only if it has no records. -/
theorem Fed.batch_eq_nil (h : s.Fed d store b records) :
    b.batch = [] ↔ records.length % s.batchSize = 0 := by
  rw [← h.inBatch, ← h.pending, List.length_eq_zero_iff]
  constructor
  · intro hnil
    rw [hnil, Filed.recordsIn_nil]
  · intro hnil
    rw [List.eq_nil_iff_forall_not_mem]
    intro f hf
    exact (h.keeps.tracks.proper f hf).1 (List.flatMap_eq_nil_iff.mp hnil f hf)

/-- The last checkpoint publishes what is left. -/
theorem Fed.keeps_finishRun (h : s.Fed d store b records) (hcalm : d.Calm)
    {result : Except Panic (Except SinkError SinkStats)}
    (hf : (s.finishRun (.ok ())).Ends (Replies d.mishaps) store result after) :
    ∃ s' : Sink, s'.Keeps d after (b.settle b.batch []) ∧ result = .ok (.ok
      { records := records.length
        batches := (records.length + s.batchSize - 1) / s.batchSize
        committed := (b.shown ++ b.batch).length }) := by
  simp only [Sink.finishRun, Task.ends_bind] at hf
  obtain ⟨closed, store', hcheckpoint, hf⟩ := hf
  obtain ⟨rfl, rfl⟩ := Task.ends_done.mp hf
  obtain ⟨s', rfl, -, -, hstats, hkeeps⟩ :=
    ends_checkpoint_of_calm hcalm h.keeps h.none_gone.1 hcheckpoint
  refine ⟨s', hkeeps, ?_⟩
  have hbatches := div_add_ite (n := records.length) h.size_pos
  simp only [Except.map, hstats, h.stats, h.batch_eq_nil, hbatches, List.length_append]

/-- What a table shows after the last checkpoint. -/
theorem Fed.finishRun {config : Config} {run : String} {before after : MemoryStore}
    {result : Except Panic (Except SinkError SinkStats)}
    (h : s.Fed (config.desk run Mishap.none before) store b records)
    (hfits : ∀ r ∈ records, config.Fits r) (hfresh : Config.Fresh run before)
    (hrun : ∀ c ∈ run.toList, ObjectPath.isPlain c)
    (hf : (s.finishRun (.ok ())).Ends (Replies Mishap.none) store result after) :
    ∃ published, result = .ok (.ok
        { records := records.length
          batches := (records.length + s.batchSize - 1) / s.batchSize
          committed := published.length }) ∧
      config.Publishes run before after records
        (fun spec ↦ s.writer.allocator.count spec.bucket) published := by
  obtain ⟨s', hkeeps, hresult⟩ := h.keeps_finishRun (fun _ hm ↦ hm) hf
  obtain ⟨hkept, hremoved, hdropped⟩ := h.none_gone
  have hkeys : (b.settle b.batch []).keys.Perm b.keys := by
    simp [Books.keys_eq, Books.settle, Books.batch, hkept, hremoved, hdropped]
  have hcount := h.keeps.tracks.holds.count_eq hkeeps.tracks.holds hkeys
  refine ⟨_, ?_, Config.publishes_of_keeps hkeeps ⟨rfl, rfl, rfl, hdropped⟩ h.inOrder hfits hfresh
    hrun fun spec ↦ (hcount spec).symm⟩
  rw [hresult, List.length_map]
  rfl

/-- What is given up leaves no trace. -/
theorem Fed.finishRun_error {config : Config} {run : String} {before after : MemoryStore}
    {result : Except Panic (Except SinkError SinkStats)} {e : SinkError}
    (h : s.Fed (config.desk run Mishap.none before) store b records)
    (hfits : ∀ r ∈ records, config.Fits r) (hfresh : Config.Fresh run before)
    (hrun : ∀ c ∈ run.toList, ObjectPath.isPlain c)
    (hf : (s.finishRun (.error e)).Ends (Replies Mishap.none) store result after) :
    result = .ok (.error e) ∧ ∃ published, config.Publishes run before after
      (records.take (s.batchSize * (records.length / s.batchSize)))
      (fun spec ↦ s.writer.allocator.count spec.bucket) published := by
  simp only [Sink.finishRun, Task.ends_bind] at hf
  obtain ⟨given, store', habort, hf⟩ := hf
  obtain ⟨rfl, rfl⟩ := Task.ends_done.mp hf
  obtain ⟨hkept, hremoved, hdropped⟩ := h.none_gone
  obtain ⟨s', aborted, rfl, hkeeps⟩ := ends_abort_of_calm (fun _ hm ↦ hm) h.keeps hkept habort
  have hkeys : (b.abandon b.opened []).keys.Perm b.keys := by
    simp [Books.keys_eq, Books.abandon, hkept, hremoved, hdropped]
  have hcount := h.keeps.tracks.holds.count_eq hkeeps.tracks.holds hkeys
  have hgone : (b.abandon b.opened []).dropped = [] := by
    rw [Books.abandon, hdropped, List.append_nil]
  exact ⟨rfl, _, Config.publishes_of_keeps hkeeps ⟨hkept, rfl, rfl, hgone⟩ h.shown
    (fun r hr ↦ hfits r (List.mem_of_mem_take hr)) hfresh hrun fun spec ↦ (hcount spec).symm⟩

end Sink

namespace Trace

variable {config : Config} {name : String}

/-- What a run has published, it has published however its commits overlap. -/
theorem publishes_overlapping {run : String} {trace : Trace} {records : List Json}
    {places : PartitionSpec → Nat} {published : List ObjectPath} (inputs : List String)
    (hurl : Location.ofUrl? config.table = some (.memory name)) :
    let outcome := surroundings.ingest config run inputs trace
    let overlapping := World.overlapping.ingest config run inputs trace.world
    config.Publishes run (trace.world.store name) (outcome.2.world.store name) records places
      published → (∃ result w, overlapping result w) ∧ ∀ result w, overlapping result w →
        result = outcome.1 ∧
          config.Publishes run (trace.world.store name) (w.store name) records places
            published := by
  intro outcome overlapping h
  obtain ⟨hpossible, hsame⟩ := ingest_any_order hurl run inputs trace
  refine ⟨hpossible, fun result w hw ↦ ?_⟩
  obtain ⟨hresult, hstore⟩ := hsame result w hw
  exact ⟨hresult, h.of_alike hstore⟩

/-- A run on a table in memory: the sink when it was fed, and what became of it then. -/
theorem ends_ingest (hurl : Location.ofUrl? config.table = some (.memory name)) (run : String)
    (inputs : List String) (trace : Trace) :
    let contents := inputs.map fun path ↦ (path, trace.world.disk.read path)
    let before := trace.world.store name
    let outcome := surroundings.ingest config run inputs trace
    ∃ ending store,
      ((Sink.new config run).feedInputs contents).Ends (Replies Mishap.none) before ending store ∧
      ∀ s fed, ending = .ok (s, fed) →
        (s.finishRun fed).Ends (Replies Mishap.none) store outcome.1
          (outcome.2.world.store name) ∧
        config.handedOut run before contents = fun spec ↦ s.writer.allocator.count spec.bucket := by
  intro contents before outcome
  have hdoes := ingest_memory hurl run inputs trace
  have hends : (Sink.ingest config run contents).Ends (Replies Mishap.none) before _ _ :=
    Task.ends_run MemoryStore.answer MemoryStore.Replies.regular _ _
  rw [← hdoes.value, ← hdoes.store] at hends
  obtain ⟨ending, store, hfeed, hfinish⟩ := Sink.ends_ingest hends
  refine ⟨ending, store, hfeed, fun s fed hending ↦ ⟨hfinish s fed hending, ?_⟩⟩
  subst hending
  funext spec
  rw [Config.handedOut, (Task.run_of_ends hfeed).1]
  rfl

/-- A run on a table in memory comes through the inputs that are taken. -/
theorem ends_ingest_append (hvalid : config.fault? = none)
    (hurl : Location.ofUrl? config.table = some (.memory name)) (run : String) (trace : Trace)
    {good : List String} {parts : List (List Json)} (rest : List String)
    (hgood : List.Forall₂ (fun path records ↦ config.Takes (trace.world.disk.read path) records)
      good parts) :
    let contents := fun paths : List String ↦ paths.map fun path ↦
      (path, trace.world.disk.read path)
    let before := trace.world.store name
    let outcome := surroundings.ingest config run (good ++ rest) trace
    ∃ (s₁ : Sink) (store₁ store : MemoryStore) (b : Books Json) (ending : Sink.Ending),
      s₁.batchSize = config.batchSize ∧
      s₁.Fed (config.desk run Mishap.none before) store₁ b parts.flatten ∧
      (s₁.feedInputs (contents rest)).Ends (Replies Mishap.none) store₁ ending store ∧
      ∀ s fed, ending = .ok (s, fed) →
        (s.finishRun fed).Ends (Replies Mishap.none) store outcome.1
          (outcome.2.world.store name) ∧
        config.handedOut run before (contents (good ++ rest)) =
          fun spec ↦ s.writer.allocator.count spec.bucket := by
  intro contents before outcome
  obtain ⟨ending, store, hfeed, hfinish⟩ := ends_ingest hurl run (good ++ rest) trace
  have hgood' : List.Forall₂ (fun input records ↦ config.Takes input.2 records) (contents good)
      parts := List.forall₂_map_left_iff.mpr hgood
  rw [List.map_append] at hfeed
  obtain ⟨s₁, store₁, b, hsize, hfed, hrest⟩ := (Sink.fed_new hvalid run before).feedInputs
    (fun _ hm ↦ hm) jsonLines_total (fun _ ↦ Config.Accepts.takes) hgood' hfeed
  exact ⟨s₁, store₁, store, b, ending, hsize, hfed, hrest, hfinish⟩

/-- If all inputs can be taken, a run ends well. It publishes all their records, each once and in
order, in as many batches as there have to be, and leaves nothing else behind; and so it does
however its commits overlap. -/
theorem ingest_publishes_all (hvalid : config.fault? = none)
    (hurl : Location.ofUrl? config.table = some (.memory name)) (milliseconds random : Nat)
    (trace : Trace) {inputs : List String} {parts : List (List Json)}
    (hinputs : List.Forall₂ (fun path records ↦ config.Takes (trace.world.disk.read path) records)
      inputs parts)
    (hfresh : Config.Fresh (RunName.ofParts milliseconds random) (trace.world.store name)) :
    let run := RunName.ofParts milliseconds random
    let contents := inputs.map fun path ↦ (path, trace.world.disk.read path)
    let records := parts.flatten
    let before := trace.world.store name
    let places := config.handedOut run before contents
    let outcome := surroundings.ingest config run inputs trace
    let overlapping := World.overlapping.ingest config run inputs trace.world
    ∃ published,
      outcome.1 = .ok (.ok
        { records := records.length
          batches := (records.length + config.batchSize - 1) / config.batchSize
          committed := published.length
          discarded := 0 }) ∧
      config.Publishes run before (outcome.2.world.store name) records places published ∧
      (∃ result w, overlapping result w) ∧ ∀ result w, overlapping result w →
        result = outcome.1 ∧
          config.Publishes run before (w.store name) records places published := by
  intro run contents records before places outcome overlapping
  obtain ⟨s₁, store₁, store, b, ending, hsize, hfed, hrest, hfinish⟩ :=
    ends_ingest_append hvalid hurl run trace [] hinputs
  obtain ⟨rfl, rfl⟩ := Task.ends_done.mp hrest
  rw [List.append_nil] at hfinish
  obtain ⟨hfinish, hplaces⟩ := hfinish s₁ _ rfl
  have hfits : ∀ r ∈ records, config.Fits r := fun r ↦ Config.fits_of_takes hinputs
  have hrun : ∀ c ∈ run.toList, ObjectPath.isPlain c := fun _ ↦ RunName.isPlain_of_mem
  obtain ⟨published, hresult, hpublishes⟩ := hfed.finishRun hfits hfresh hrun hfinish
  rw [hsize] at hresult
  rw [← hplaces] at hpublishes
  exact ⟨published, hresult, hpublishes, publishes_overlapping inputs hurl hpublishes⟩

/-- Three records in two batches. -/
theorem ingest_publishes_all_two_batches :
    let config : Config := { table := "memory://table", columns := ["p"], batchSize := 2 }
    let text := "\x7b\"p\": 1\x7d\n\x7b\"p\": 2\x7d\n\n\x7b\"p\": 1, \"q\": 3\x7d\n"
    let trace : Trace := ⟨⟨[], ⟨.directory [("in", .file text.toUTF8)], []⟩⟩, []⟩
    let outcome := surroundings.ingest config (RunName.ofParts 1 2) ["in"] trace
    ∃ records places published, records.length = 3 ∧
      outcome.1 = .ok (.ok
        { records := 3, batches := 2, committed := published.length, discarded := 0 }) ∧
      config.Publishes (RunName.ofParts 1 2) .empty (outcome.2.world.store "table") records places
        published := by
  intro config text trace outcome
  have hvalid : config.fault? = none := by decide +kernel
  have hurl : Location.ofUrl? config.table = some (.memory "table") := by decide +kernel
  have hread : trace.world.disk.read "in" = .ok text.toUTF8 := by rfl
  have haccepts : ∀ line ∈ Line.ofInput text.toUTF8, config.Accepts line := by decide +kernel
  have hempty : trace.world.store "table" = .empty := rfl
  have hlength : ((Line.ofInput text.toUTF8).filterMap Line.record?).length = 3 := by
    decide +kernel
  have hbatches : (3 + config.batchSize - 1) / config.batchSize = 2 := by decide
  clear_value trace text config
  have htakes : config.Takes (trace.world.disk.read "in")
      ((Line.ofInput text.toUTF8).filterMap Line.record?) := by
    rw [hread]
    exact Config.takes_ok_iff.mpr ⟨haccepts, rfl⟩
  have hfresh : Config.Fresh (RunName.ofParts 1 2) (trace.world.store "table") := by
    rw [hempty]
    exact fun p hp ↦ absurd rfl hp
  obtain ⟨published, hresult, hpublishes, -⟩ :=
    ingest_publishes_all hvalid hurl 1 2 trace (.cons htakes .nil) hfresh
  rw [List.flatten_singleton] at hresult hpublishes
  rw [hlength, hbatches] at hresult
  rw [hempty] at hpublishes
  exact ⟨_, _, published, hlength, hresult, hpublishes⟩

/-- If something cannot be taken, a run ends with the error of the first such thing. It publishes
the records of the batches that were full by then, as if they had been all, and leaves nothing else
behind; and so it does however its commits overlap. -/
theorem ingest_publishes_full (hvalid : config.fault? = none)
    (hurl : Location.ofUrl? config.table = some (.memory name)) (milliseconds random : Nat)
    (trace : Trace) {good rest : List String} {parts : List (List Json)} {path : String}
    {taken : List Json} {e : SinkError}
    (hgood : List.Forall₂ (fun path records ↦ config.Takes (trace.world.disk.read path) records)
      good parts)
    (hstops : config.Stops path (trace.world.disk.read path) taken e)
    (hfresh : Config.Fresh (RunName.ofParts milliseconds random) (trace.world.store name)) :
    let run := RunName.ofParts milliseconds random
    let inputs := good ++ path :: rest
    let contents := inputs.map fun path ↦ (path, trace.world.disk.read path)
    let records := parts.flatten ++ taken
    let full := records.take (config.batchSize * (records.length / config.batchSize))
    let before := trace.world.store name
    let places := config.handedOut run before contents
    let outcome := surroundings.ingest config run inputs trace
    let overlapping := World.overlapping.ingest config run inputs trace.world
    outcome.1 = .ok (.error e) ∧ ∃ published,
      config.Publishes run before (outcome.2.world.store name) full places published ∧
      (∃ result w, overlapping result w) ∧ ∀ result w, overlapping result w →
        result = outcome.1 ∧ config.Publishes run before (w.store name) full places published := by
  intro run inputs contents records full before places outcome overlapping
  obtain ⟨s₁, store₁, store, b₁, ending, hsize, hfed, hrest, hfinish⟩ :=
    ends_ingest_append hvalid hurl run trace (path :: rest) hgood
  -- Feeding stops in the input that cannot be taken.
  simp only [List.map_cons, Sink.feedInputs, Task.ends_bind] at hrest
  obtain ⟨stopped, store₂, hinput, hrest⟩ := hrest
  obtain ⟨s₂, rfl, hsize', b, hfed'⟩ := hfed.feedInput_of_stops hvalid hstops hinput
  obtain ⟨rfl, rfl⟩ := Task.ends_done.mp hrest
  obtain ⟨hfinish, hplaces⟩ := hfinish s₂ _ rfl
  have hfits : ∀ r ∈ records, config.Fits r := by
    intro r hr
    rcases List.mem_append.mp hr with hr | hr
    · exact Config.fits_of_takes hgood hr
    · exact hstops.fits hr
  have hrun : ∀ c ∈ run.toList, ObjectPath.isPlain c := fun _ ↦ RunName.isPlain_of_mem
  obtain ⟨hresult, published, hpublishes⟩ := hfed'.finishRun_error hfits hfresh hrun hfinish
  rw [hsize'.trans hsize, ← hplaces] at hpublishes
  exact ⟨hresult, published, hpublishes, publishes_overlapping inputs hurl hpublishes⟩

/-- Three records, and then a line that is none. -/
theorem ingest_publishes_full_first_batch :
    let config : Config := { table := "memory://table", columns := ["p"], batchSize := 2 }
    let text := "\x7b\"p\": 1\x7d\n\x7b\"p\": 2\x7d\n\n\x7b\"p\": 1, \"q\": 3\x7d\n"
    let trace : Trace :=
      ⟨⟨[], ⟨.directory [("in", .file text.toUTF8), ("bad", .file "\n\x7b".toUTF8)], []⟩⟩, []⟩
    let outcome := surroundings.ingest config (RunName.ofParts 1 2) ["in", "bad"] trace
    ∃ full places published,
      outcome.1 = .ok (.error (.computation (.malformedRecord 2 .truncated))) ∧ full.length = 2 ∧
      config.Publishes (RunName.ofParts 1 2) .empty (outcome.2.world.store "table") full places
        published := by
  intro config text trace outcome
  have hvalid : config.fault? = none := by decide +kernel
  have hurl : Location.ofUrl? config.table = some (.memory "table") := by decide +kernel
  have hread : trace.world.disk.read "in" = .ok text.toUTF8 := by rfl
  have haccepts : ∀ line ∈ Line.ofInput text.toUTF8, config.Accepts line := by decide +kernel
  have hbad : trace.world.disk.read "bad" = .ok "\n\x7b".toUTF8 := by rfl
  have hempty : trace.world.store "table" = .empty := rfl
  have hlength : ((Line.ofInput text.toUTF8).filterMap Line.record? ++
      [Line.blank].filterMap Line.record?).length = 3 := by decide +kernel
  have hbatch : config.batchSize * (3 / config.batchSize) = 2 := by decide
  clear_value trace text config
  have hlines : Line.ofInput "\n\x7b".toUTF8 = [.blank] ++ .malformed .truncated :: [] := by rfl
  have htakes : config.Takes (trace.world.disk.read "in")
      ((Line.ofInput text.toUTF8).filterMap Line.record?) := by
    rw [hread]
    exact Config.takes_ok_iff.mpr ⟨haccepts, rfl⟩
  have hstops : config.Stops "bad" (trace.world.disk.read "bad")
      ([Line.blank].filterMap Line.record?) (.computation (.malformedRecord 2 .truncated)) := by
    rw [hbad]
    exact .line (Line.listing_iff.mpr hlines) (by simp [Config.Accepts]) .malformed
  have hfresh : Config.Fresh (RunName.ofParts 1 2) (trace.world.store "table") := by
    rw [hempty]
    exact fun p hp ↦ absurd rfl hp
  obtain ⟨hresult, published, hpublishes, -⟩ :=
    ingest_publishes_full hvalid hurl 1 2 trace (.cons htakes .nil) hstops hfresh
  rw [hempty, List.flatten_singleton] at hpublishes
  refine ⟨_, _, published, hresult, ?_, hpublishes⟩
  rw [List.length_take, hlength, hbatch]
  rfl

end Trace

end TableSink
