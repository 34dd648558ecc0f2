import TableSink.Proofs.Ingest.Lines
import TableSink.Proofs.Sink.Boundary
import TableSink.Proofs.Sink.Stopping

/-!
# Feeding a sink

Where nothing goes wrong with a store, a sink that is fed with records publishes them batch by
batch. `Sink.Fed` is the invariant: the batches that were full are published, the open batch holds
the rest, and in both the records of each partition are in order. Every record that is taken keeps
it (`Sink.Fed.write`), and so do the lines of an input (`Sink.Fed.feedLines`) and all inputs before
the first one that fails (`Sink.Fed.feedInputs`).
-/

namespace TableSink

open MemoryStore (Replies)
open Filed (InOrder recordsIn)

/-! ## Full batches -/

section Batches

variable {n size : Nat}

theorem add_one_of_full (hpos : 0 < size) (h : size ≤ n % size + 1) :
    (n + 1) / size = n / size + 1 ∧ (n + 1) % size = 0 := by
  have hlast : n % size + 1 = size := Nat.le_antisymm (Nat.mod_lt n hpos) h
  have hn : n + 1 = size * (n / size + 1) := by
    calc n + 1 = size * (n / size) + n % size + 1 := by rw [Nat.div_add_mod]
      _ = size * (n / size) + size := by rw [Nat.add_assoc, hlast]
      _ = size * (n / size + 1) := (Nat.mul_succ _ _).symm
  rw [hn]
  exact ⟨Nat.mul_div_cancel_left _ hpos, Nat.mul_mod_right _ _⟩

theorem add_one_of_not_full (h : n % size + 1 < size) :
    (n + 1) / size = n / size ∧ (n + 1) % size = n % size + 1 := by
  have hpos : 0 < size := Nat.lt_of_le_of_lt (Nat.zero_le _) h
  have hn : n + 1 = size * (n / size) + (n % size + 1) := by
    rw [← Nat.add_assoc, Nat.div_add_mod]
  constructor
  · conv_lhs => rw [hn]
    rw [Nat.mul_add_div hpos, Nat.div_eq_of_lt h, Nat.add_zero]
  · conv_lhs => rw [hn]
    rw [Nat.mul_add_mod, Nat.mod_eq_of_lt h]

/-- The number of batches, the last one counted if it is not full. -/
theorem div_add_ite (hpos : 0 < size) :
    n / size + (if n % size = 0 then 0 else 1) = (n + size - 1) / size := by
  have hn := Nat.div_add_mod n size
  by_cases hmod : n % size = 0
  · have hsum : n + size - 1 = size * (n / size) + (size - 1) := by omega
    have hrest : (size - 1) / size = 0 := Nat.div_eq_of_lt (by omega)
    rw [if_pos hmod, hsum, Nat.mul_add_div hpos, hrest]
  · have hsum : n + size - 1 = size * (n / size + 1) + (n % size - 1) := by
      rw [Nat.mul_add, Nat.mul_one]
      omega
    have hrest : (n % size - 1) / size = 0 :=
      Nat.div_eq_of_lt (Nat.lt_of_le_of_lt (Nat.sub_le _ _) (Nat.mod_lt n hpos))
    rw [if_neg hmod, hsum, Nat.mul_add_div hpos, hrest, Nat.add_zero]

end Batches

/-! ## Which lines are taken -/

namespace Desk

variable (d : Desk Json) (path : String)

/-- The line is blank, or has a record with a place. -/
def Takes (line : Line) : Prop :=
  line = .blank ∨ ∃ record spec projected, line = .record record ∧
    d.layout.place d.fixed record = .ok (spec, projected)

/-- The line with this number is not taken, and this is why. -/
inductive Refuses (number : Nat) : Line → SinkError → Prop
  | garbled : Refuses number .garbled (.input path .invalidData)
  | malformed {fault : Json.Fault} :
    Refuses number (.malformed fault) (.computation (.malformedRecord number fault))
  | rejected {record : Json} {e : ComputationError}
    (h : d.layout.place d.fixed record = .error e) :
    Refuses number (.record record) (.write (.computation e))

end Desk

/-! ## Where nothing goes wrong -/

namespace Sink

variable {d : Desk Json} {store store' : MemoryStore} {b : Books Json} {s s' : Sink}
variable {result : Except SinkError Unit} {record : Json} {records : List Json}

/-- Where nothing is kept, no call stops the program. -/
theorem Keeps.not_panic (hkeeps : s.Keeps d store b) (hkept : b.kept = []) (c : Call)
    {panic : Panic} : ¬ (s.call c).Ends (Replies d.mishaps) store (.error panic) store' := by
  have hretries := hkeeps.retries
  rw [hkept, List.map_nil, List.map_eq_nil_iff] at hretries
  have hattempts : s.Attempts 0 := by
    refine ⟨by simp [hretries], fun c hc ↦ ?_⟩
    rw [hkeeps.tracks.closed] at hc
    obtain ⟨f, -, rfl⟩ := List.mem_map.mp hc
    rfl
  intro h
  have hsize : UInt32.size ≤ 1 := hattempts.call h
  exact absurd hsize (by decide)

/-- A checkpoint publishes the open batch. -/
theorem ends_checkpoint_of_calm {ending : Ending} (hcalm : d.Calm) (hkeeps : s.Keeps d store b)
    (hkept : b.kept = []) (h : s.checkpoint.Ends (Replies d.mishaps) store ending store') :
    ∃ s', ending = .ok (s', .ok ()) ∧ s'.inBatch = 0 ∧ s'.batchSize = s.batchSize ∧
      s'.stats = { s.stats with
        committed := s.stats.committed + b.batch.length
        batches := s.stats.batches + if b.batch = [] then 0 else 1 } ∧
      s'.Keeps d store' (b.settle b.batch []) := by
  cases ending with
  | error panic => exact absurd h (hkeeps.not_panic hkept .checkpoint)
  | ok outcome =>
  obtain ⟨s', result⟩ := outcome
  obtain ⟨hinBatch, hsize, ⟨done, failed, hsettled, hkeeps'⟩ | ⟨done, lost, -, -, ⟨m, hm⟩, -⟩⟩ :=
    ends_checkpoint hkeeps h
  · rcases hsettled.result with ⟨rfl, rfl⟩ | ⟨-, -, m, hm⟩
    · obtain rfl : done = b.batch := by
        rw [hsettled.done_eq rfl, hkept, List.nil_append]
      refine ⟨s', rfl, hinBatch, hsize, ?_, hkeeps'⟩
      rw [hsettled.stats]
      by_cases hbatch : b.batch = []
      · simp [hbatch]
      · simp [hbatch]
    · exact absurd hm (hcalm m)
  · exact absurd hm (hcalm m)

/-- An abort removes the open batch. -/
theorem ends_abort_of_calm {ending : Ending} (hcalm : d.Calm) (hkeeps : s.Keeps d store b)
    (hkept : b.kept = []) (h : s.abort.Ends (Replies d.mishaps) store ending store') :
    ∃ s' result, ending = .ok (s', result) ∧ s'.Keeps d store' (b.abandon b.opened []) := by
  cases ending with
  | error panic => exact absurd h (hkeeps.not_panic hkept .abort)
  | ok outcome =>
  obtain ⟨s', result⟩ := outcome
  refine ⟨s', result, rfl, ?_⟩
  obtain ⟨-, -, ⟨shown, kept, hretried, -, hkeeps'⟩ | ⟨_, _, -, -, ⟨m, hm⟩, -⟩⟩ :=
    ends_abort hkeeps h
  · obtain rfl : kept = [] := by
      by_contra hne
      obtain ⟨m, hm⟩ := hretried.mishap hne
      exact hcalm m hm
    have hnone : shown = [] := (hretried.shown_eq rfl).trans hkept
    have hsame : { b.abandon b.opened [] with shown := b.shown ++ shown, kept := [] } =
        b.abandon b.opened [] := by
      rw [hnone, List.append_nil, ← hkept]
      rfl
    rwa [hsame] at hkeeps'
  · exact absurd hm (hcalm m)

/-- The sink was fed with these records: full batches are published, and the others wait. -/
structure Fed (d : Desk Json) (store : MemoryStore) (b : Books Json) (s : Sink)
    (records : List Json) : Prop where
  keeps : s.Keeps d store b
  none_gone : b.kept = [] ∧ b.removed = [] ∧ b.dropped = []
  size_pos : 0 < s.batchSize
  inBatch : s.inBatch = records.length % s.batchSize
  stats : s.stats = ⟨records.length, records.length / s.batchSize, b.shown.length, 0⟩
  pending : (recordsIn b.batch).length = s.inBatch
  shown : InOrder d b.shown (records.take (s.batchSize * (records.length / s.batchSize)))
  inOrder : InOrder d (b.shown ++ b.batch) records

/-- The number of the next file of a partition is the number of its files. -/
theorem Fed.count_eq (h : s.Fed d store b records) (spec : PartitionSpec) :
    s.writer.allocator.count spec.bucket = (Filed.within spec (b.shown ++ b.batch)).length := by
  have hkeys : b.keys = (b.shown ++ b.batch).map Filed.key := by
    obtain ⟨hkept, hremoved, hdropped⟩ := h.none_gone
    simp [Books.keys_eq, Books.batch, hkept, hremoved, hdropped]
  exact Books.count_eq_of_inOrder h.keeps.tracks.holds (fun k ↦ by rw [hkeys]) h.inOrder spec

/-- The records of the batches that are full with one more record. -/
theorem take_concat (size : Nat) (records : List Json) (record : Json) (hpos : 0 < size) :
    (size ≤ records.length % size + 1 →
      (records ++ [record]).take (size * ((records ++ [record]).length / size)) =
        records ++ [record]) ∧
    (records.length % size + 1 < size →
      (records ++ [record]).take (size * ((records ++ [record]).length / size)) =
        records.take (size * (records.length / size))) := by
  rw [List.length_append, List.length_singleton]
  constructor
  · intro hfull
    have hdiv := Nat.div_add_mod (records.length + 1) size
    rw [(add_one_of_full hpos hfull).2, Nat.add_zero] at hdiv
    rw [hdiv]
    exact List.take_of_length_le (by simp)
  · intro hfull
    rw [(add_one_of_not_full hfull).1]
    exact List.take_append_of_le_length (Nat.mul_div_le _ _)

/-- What a record does to the books, before anybody looks whether the batch is full. -/
theorem Fed.add (h : s.Fed d store b records) {spec : PartitionSpec} {projected : Json}
    (hplace : d.layout.place d.fixed record = .ok (spec, projected)) {b₁ : Books Json}
    (hb₁ : b₁ = (b.turn d.strategy spec).add spec (s.writer.allocator.count spec.bucket) record) :
    b₁.shown = b.shown ∧ (b₁.kept = [] ∧ b₁.removed = [] ∧ b₁.dropped = []) ∧
      (recordsIn b₁.batch).length = s.inBatch + 1 ∧
      InOrder d (b₁.shown ++ b₁.batch) (records ++ [record]) := by
  obtain ⟨hshown, hkept, hremoved⟩ := (b.turn d.strategy spec).unmoved_add spec
    (s.writer.allocator.count spec.bucket) record
  obtain ⟨hshown', hkept', hremoved'⟩ := b.unmoved_turn d.strategy spec
  have hdistinct := Books.distinct_turn h.keeps.tracks.distinct d.strategy spec
  rw [← hb₁] at hshown hkept hremoved
  refine ⟨hshown.trans hshown', ⟨?_, ?_, ?_⟩, ?_, ?_⟩
  · rw [hkept, hkept', h.none_gone.1]
  · rw [hremoved, hremoved', h.none_gone.2.1]
  · rw [hb₁, Books.dropped_add, Books.dropped_turn, h.none_gone.2.2]
  · rw [hb₁, (Books.perm_batch_add hdistinct _ _ _).length_eq, Books.batch_turn, List.length_append,
      h.pending, List.length_singleton]
  · rw [hshown, hshown', hb₁]
    refine Books.inOrder_add ?_ hplace hdistinct ?_
    · rw [Books.batch_turn]
      exact h.inOrder
    · rw [Books.batch_turn]
      exact h.count_eq spec

/-- A record that is taken, and the whole batch with it if it is full now. -/
theorem Fed.write (hcalm : d.Calm) (hencoder : d.layout.encoder.Total)
    (h : s.Fed d store b records) {spec : PartitionSpec} {projected : Json}
    (hplace : d.layout.place d.fixed record = .ok (spec, projected))
    {ending : Ending} (hw : (s.write record).Ends (Replies d.mishaps) store ending store') :
    ∃ s', ending = .ok (s', .ok ()) ∧ s'.batchSize = s.batchSize ∧
      ∃ b', s'.Fed d store' b' (records ++ [record]) := by
  cases ending with
  | error panic => exact absurd hw (h.keeps.not_panic h.none_gone.1 (.write record))
  | ok outcome =>
  obtain ⟨s', result⟩ := outcome
  obtain ⟨b₁, written, hwrote, hend⟩ := ends_write h.keeps hw
  obtain ⟨hb₁, rfl⟩ : b₁ = (b.turn d.strategy spec).add spec (s.writer.allocator.count spec.bucket)
      record ∧ written = .ok () := by
    cases hwrote with
    | rejected hrejected => simp [hplace] at hrejected
    | blocked _ _ _ _ hm => exact absurd hm.choose_spec (hcalm _)
    | put hplace' hput =>
      obtain ⟨rfl, rfl⟩ := Prod.mk.inj (Except.ok.inj (hplace.symm.trans hplace'))
      cases hput with
      | added _ => exact ⟨rfl, rfl⟩
      | spoiled hfault => rw [hencoder] at hfault; cases hfault
  obtain ⟨hshown, hgone, hpending, hinOrder⟩ := h.add hplace hb₁
  obtain ⟨htakeFull, htake⟩ := take_concat s.batchSize records record h.size_pos
  obtain ⟨_, he, -⟩ | ⟨s₁, store₁, -, hkeeps, htook,
    ⟨hfull, hcheckpoint⟩ | ⟨hfull, rfl, rfl, rfl⟩⟩ := hend
  · cases he
  · -- The batch is full: the checkpoint publishes it.
    rw [h.inBatch] at hfull
    obtain ⟨hdiv, hmod⟩ := add_one_of_full h.size_pos hfull
    obtain ⟨s₂, hending, hinBatch, hsize, hstats, hkeeps'⟩ :=
      ends_checkpoint_of_calm hcalm hkeeps hgone.1 hcheckpoint
    obtain ⟨rfl, rfl⟩ := Prod.mk.inj (Except.ok.inj hending)
    have hsize' : s'.batchSize = s.batchSize := hsize.trans htook.batchSize
    have hbatch : b₁.batch ≠ [] := by
      intro hnil
      rw [hnil] at hpending
      cases hpending
    refine ⟨s', rfl, hsize', b₁.settle b₁.batch [], hkeeps', ⟨rfl, hgone.2⟩,
      hsize' ▸ h.size_pos, ?_, ?_, ?_, ?_, ?_⟩
    · rw [hinBatch, hsize', List.length_append, List.length_singleton, hmod]
    · rw [hstats, htook.stats, h.stats, hsize', List.length_append, List.length_singleton, hdiv,
        if_neg hbatch, Books.settle, List.length_append, hshown]
    · rw [hinBatch]
      rfl
    · rw [hsize', htakeFull hfull]
      exact hinOrder
    · simpa [Books.settle, Books.batch] using hinOrder
  · -- The batch is open for more.
    rw [h.inBatch] at hfull
    obtain ⟨hdiv, hmod⟩ := add_one_of_not_full hfull
    refine ⟨s', rfl, htook.batchSize, b₁, hkeeps, hgone, htook.batchSize ▸ h.size_pos, ?_, ?_, ?_,
      ?_, hinOrder⟩
    · rw [htook.inBatch, htook.batchSize, List.length_append, List.length_singleton, hmod,
        h.inBatch]
    · rw [htook.stats, htook.batchSize, h.stats, List.length_append, List.length_singleton, hdiv,
        hshown]
    · rw [htook.inBatch, hpending]
    · rw [htook.batchSize, htake hfull, hshown]
      exact h.shown

/-- A record that has no place leaves everything as it is. -/
theorem Fed.reject (h : s.Fed d store b records) {e : ComputationError}
    (hplace : d.layout.place d.fixed record = .error e)
    {ending : Ending} (hw : (s.write record).Ends (Replies d.mishaps) store ending store') :
    ∃ s', ending = .ok (s', .error (.write (.computation e))) ∧ s'.batchSize = s.batchSize ∧
      s'.Fed d store' b records := by
  cases ending with
  | error panic => exact absurd hw (h.keeps.not_panic h.none_gone.1 (.write record))
  | ok outcome =>
  obtain ⟨s', result⟩ := outcome
  obtain ⟨b₁, written, hwrote, hend⟩ := ends_write h.keeps hw
  obtain ⟨rfl, rfl⟩ : b₁ = b ∧ written = .error (.computation e) := by
    cases hwrote with
    | rejected hplace' =>
      obtain rfl := Except.error.inj (hplace.symm.trans hplace')
      exact ⟨rfl, rfl⟩
    | blocked hplace' _ _ _ _ => simp [hplace] at hplace'
    | put hplace' _ => simp [hplace] at hplace'
  obtain ⟨_, he, rfl, hkeeps, hinBatch, hsize, hstats⟩ | ⟨_, _, he, -⟩ := hend
  · obtain rfl := Except.error.inj he
    refine ⟨s', rfl, hsize, hkeeps, h.none_gone, hsize ▸ h.size_pos, ?_, ?_, ?_, ?_, h.inOrder⟩
    · rw [hinBatch, hsize, h.inBatch]
    · rw [hstats, hsize, h.stats]
    · rw [hinBatch, h.pending]
    · rw [hsize]
      exact h.shown
  · cases he

/-! ## Inputs -/

/-- Lines that are taken are gone through, and feeding goes on with the others. -/
theorem Fed.feedLines (hcalm : d.Calm)
    (hencoder : d.layout.encoder.Total) {path : String} {number : Nat}
    {good rest : List Line} (h : s.Fed d store b records) (hgood : ∀ line ∈ good, d.Takes line)
    {ending : Ending}
    (hf : (s.feedLines path number (good ++ rest)).Ends (Replies d.mishaps) store ending store') :
    ∃ (s₁ : Sink) (store₁ : MemoryStore) (b₁ : Books Json), s₁.batchSize = s.batchSize ∧
      s₁.Fed d store₁ b₁ (records ++ good.filterMap Line.record?) ∧
      (s₁.feedLines path (number + good.length) rest).Ends (Replies d.mishaps) store₁ ending
        store' := by
  induction good generalizing s store b records number with
  | nil => exact ⟨s, store, b, rfl, by simpa using h, hf⟩
  | cons line good ih =>
    have hgood' : ∀ line ∈ good, d.Takes line := fun line hline ↦
      hgood line (List.mem_cons_of_mem _ hline)
    have hnumber : number + (line :: good).length = number + 1 + good.length := by
      rw [List.length_cons, Nat.add_assoc, Nat.add_comm 1]
    rw [hnumber]
    obtain rfl | ⟨record, spec, projected, rfl, hplace⟩ := hgood line List.mem_cons_self
    · exact ih h hgood' hf
    · simp only [List.cons_append, Sink.feedLines, Task.ends_bind] at hf
      obtain ⟨written, store₁, hwrite, hf⟩ := hf
      obtain ⟨s₁, rfl, hsize, b₁, hfed⟩ := h.write hcalm hencoder hplace hwrite
      obtain ⟨s₂, store₂, b₂, hsize', hfed', hf'⟩ := ih hfed hgood' hf
      refine ⟨s₂, store₂, b₂, hsize'.trans hsize, ?_, hf'⟩
      simpa [Line.record?] using hfed'

/-- At a line that is not taken, feeding stops. -/
theorem Fed.feedLines_cons {path : String} {number : Nat} {line : Line} {rest : List Line}
    {e : SinkError} (h : s.Fed d store b records) (hline : d.Refuses path number line e)
    {ending : Ending}
    (hf : (s.feedLines path number (line :: rest)).Ends (Replies d.mishaps) store ending store') :
    ∃ s', ending = .ok (s', .error e) ∧ s'.batchSize = s.batchSize ∧
      s'.Fed d store' b records := by
  cases hline with
  | garbled =>
    obtain ⟨rfl, rfl⟩ := Task.ends_done.mp hf
    exact ⟨s, rfl, rfl, h⟩
  | malformed =>
    obtain ⟨rfl, rfl⟩ := Task.ends_done.mp hf
    exact ⟨s, rfl, rfl, h⟩
  | rejected hplace =>
    simp only [Sink.feedLines, Task.ends_bind] at hf
    obtain ⟨written, store₁, hwrite, hf⟩ := hf
    obtain ⟨s₁, rfl, hsize, hfed⟩ := h.reject hplace hwrite
    obtain ⟨rfl, rfl⟩ := Task.ends_done.mp hf
    exact ⟨s₁, rfl, hsize, hfed⟩

/-- An input that is taken as a whole. -/
theorem Fed.feedInput (hcalm : d.Calm)
    (hencoder : d.layout.encoder.Total) {path : String}
    {bytes : ByteArray} (h : s.Fed d store b records)
    (hlines : ∀ line ∈ Line.ofInput bytes, d.Takes line)
    {ending : Ending}
    (hf : (s.feedInput path (.ok bytes)).Ends (Replies d.mishaps) store ending store') :
    ∃ s', ending = .ok (s', .ok ()) ∧ s'.batchSize = s.batchSize ∧
      ∃ b', s'.Fed d store' b' (records ++ (Line.ofInput bytes).filterMap Line.record?) := by
  rw [Sink.feedInput, ← List.append_nil (List.map _ _)] at hf
  obtain ⟨s₁, store₁, b₁, hsize, hfed, hf⟩ := h.feedLines hcalm hencoder hlines hf
  obtain ⟨rfl, rfl⟩ := Task.ends_done.mp hf
  exact ⟨s₁, rfl, hsize, b₁, hfed⟩

end Sink

end TableSink
