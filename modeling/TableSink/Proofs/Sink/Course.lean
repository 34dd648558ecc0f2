import TableSink.Proofs.Sink.Journal
import TableSink.Proofs.Sink.Paths

/-!
# Courses of a sink

Any calls may be made on a sink, in any order and whatever the ones before returned, on a store that
may be of any kind. `Sink.Course` has every state that can be reached so, with its journal. Nothing
is said of what comes after a call in which the program stops.

In every course the journal is in step with the sink (`Sink.Told`): it has as many records as the
sink has counted, and has seen the same places handed out. So it can tell from a result alone
whether a record was taken, and a write does to the journal what it does to the sink
(`Sink.Told.journal_write`).
-/

namespace TableSink

/-- The states that a sink and its store can be in, with the journal of the calls so far. -/
inductive Sink.Course (config : Config) (run : String) (replies : Replying MemoryStore)
    (init : MemoryStore) : Sink → MemoryStore → Journal → Prop
  | start {s : Sink} {store : MemoryStore}
    (h : (Sink.start config run).Ends replies init (.ok s) store) :
    Course config run replies init s store (.start (config.allocator run))
  | call {s s' : Sink} {store store' : MemoryStore} {j : Journal} {result : Except SinkError Unit}
    (h : Course config run replies init s store j) (c : Call)
    (hc : (s.call c).Ends replies store (.ok (s', result)) store') :
    Course config run replies init s' store' (j.after config s s' result c)

namespace Sink

variable {config : Config} {run : String} {replies : Replying MemoryStore} {init : MemoryStore}
variable {s s' : Sink} {store store' : MemoryStore} {j : Journal} {result : Except SinkError Unit}
variable {record : Json}

/-- More can happen where more replies are possible. -/
theorem Course.mono {replies' : Replying MemoryStore}
    (hreplies : ∀ r s reply s', replies r s reply s' → replies' r s reply s')
    (h : Course config run replies init s store j) :
    Course config run replies' init s store j := by
  induction h with
  | start h => exact .start (h.mono hreplies)
  | call _ c hc ih => exact .call ih c (hc.mono hreplies)

/-- A sink that could be started is new, and the table was only listed for it. -/
theorem eq_new_of_start (h : (start config run).Ends replies init (.ok s) store) :
    s = new config run ∧ ∃ dir reply, replies (.list dir) init reply store := by
  simp only [start, Allocator.listStaged, Task.listBelow, Task.ends_bind] at h
  obtain ⟨listed, store₁, ⟨answer, store₂, hask, hlisted⟩, h⟩ := h
  obtain ⟨hs, rfl⟩ := Task.ends_done.mp h
  obtain ⟨rfl, rfl⟩ := Task.ends_done.mp hlisted
  obtain ⟨reply, hreply, rfl⟩ := Task.ends_ask.mp hask
  refine ⟨?_, _, reply, hreply⟩
  cases reply with
  | ok _ => exact Except.ok.inj hs
  | error _ => cases hs

/-! ## Running calls -/

/-- Carry out calls one after the other, on a store whose replies are certain, unless the program
stops. -/
def proceed (config : Config) (answer : (r : Request) → MemoryStore → r.Reply × MemoryStore) :
    List Call → Sink → MemoryStore → Journal → Option (Sink × MemoryStore × Journal)
  | [], s, store, j => some (s, store, j)
  | c :: cs, s, store, j =>
    let outcome := (s.call c).run answer store
    match outcome.value with
    | .ok (s', result) => proceed config answer cs s' outcome.state (j.after config s s' result c)
    | .error _ => none

theorem Course.proceed (answer : (r : Request) → MemoryStore → r.Reply × MemoryStore)
    (hanswer : ∀ r s, replies r s (answer r s).1 (answer r s).2) {cs : List Call}
    {x : Sink × MemoryStore × Journal} (h : Course config run replies init s store j)
    (hx : Sink.proceed config answer cs s store j = some x) :
    Course config run replies init x.1 x.2.1 x.2.2 := by
  induction cs generalizing s store j with
  | nil =>
    obtain rfl := Option.some.inj hx
    exact h
  | cons c cs ih =>
    have hends := Task.ends_run answer hanswer (s.call c) store
    rw [Sink.proceed] at hx
    cases houtcome : ((s.call c).run answer store).value with
    | error _ =>
      rw [houtcome] at hx
      cases hx
    | ok outcome =>
      rw [houtcome] at hx hends
      exact ih (h.call c hends) hx

/-- What can be seen of calls that were carried out is true of some course. -/
theorem Course.exists_of_proceed (answer : (r : Request) → MemoryStore → r.Reply × MemoryStore)
    (hanswer : ∀ r s, replies r s (answer r s).1 (answer r s).2) (cs : List Call)
    {P : Sink × MemoryStore × Journal → Prop} [DecidablePred P]
    (h : Course config run replies init s store j)
    (hP : ((Sink.proceed config answer cs s store j).any fun x ↦ decide (P x)) = true) :
    ∃ s store j, Course config run replies init s store j ∧ P (s, store, j) := by
  obtain ⟨x, hx, hPx⟩ := (Option.any_eq_true _ _).mp hP
  exact ⟨_, _, _, h.proceed answer hanswer hx, of_decide_eq_true hPx⟩

/-- A call that was carried out and did not stop the program. -/
theorem ends_of_mem_run (answer : (r : Request) → MemoryStore → r.Reply × MemoryStore)
    (hanswer : ∀ r s, replies r s (answer r s).1 (answer r s).2) {c : Call}
    (h : (s', result) ∈ ((s.call c).run answer store).value.toOption) :
    (s.call c).Ends replies store (.ok (s', result)) ((s.call c).run answer store).state := by
  rw [← Except.mem_toOption.mp h]
  exact Task.ends_run answer hanswer (s.call c) store

/-! ## The journal is in step -/

/-- The journal is in step with the sink. -/
structure Told (config : Config) (run : String) (j : Journal) (s : Sink) : Prop where
  at_desk : s.At (config.desk run Mishap.none .empty)
  holds : s.Holds (config.allocator run)
  batchSize : s.batchSize = config.batchSize
  inBatch : s.inBatch = j.current.records.length
  last : j.current.last = s.writer.allocator

theorem told_new (config : Config) (run : String) :
    (new config run).Told config run (.start (config.allocator run)) where
  at_desk := at_new config run _ _
  holds := holds_new config run
  batchSize := rfl
  inBatch := rfl
  last := (allocator_new config run).symm

/-- A checkpoint hands out no places, so only its result matters to the journal. -/
theorem Told.journal_checkpoint (h : s.Told config run j)
    (hc : s.checkpoint.Ends replies store (.ok (s', result)) store') :
    j.after config s s' result .checkpoint = j.boundary s.retries result := by
  simp only [Journal.after, Journal.upTo_eq (h.last.trans (bounded_checkpoint hc).allocator.symm)]

/-- An abort hands out no places either. -/
theorem Told.journal_abort (h : s.Told config run j)
    (hc : s.abort.Ends replies store (.ok (s', result)) store') :
    j.after config s s' result .abort = j.abandon := by
  simp only [Journal.after, Journal.upTo_eq (h.last.trans (bounded_abort hc).allocator.symm)]

/-- A file of another partition could not be staged, so the record was not taken. -/
theorem misses_of_other {a : Allocator} {f : OpenFile} {spec : PartitionSpec} {cause : StorageError}
    (hgrouped : config.strategy = .grouped) (hpartition : config.partition? record = some spec)
    (hf : f.Issued a) (hother : f.slot.bucket ≠ spec.bucket) :
    config.misses a record (.error (.write (.stage f.slot.staging cause))) = true := by
  refine decide_eq_true ⟨hgrouped, fun spec' hspec' i _ hplace ↦ hother ?_⟩
  obtain rfl := Option.some.inj (hpartition.symm.trans (Option.mem_def.mp hspec'))
  obtain ⟨other, k, -, hslot⟩ := hf
  rw [hslot] at hplace ⊢
  obtain ⟨rfl, -⟩ := Allocator.slot_staging_inj hplace
  exact a.bucket_slot _ _

/-- A file of the partition of the record could not be staged, so the record was in it. -/
theorem misses_of_same {a : Allocator} {f : OpenFile} {spec : PartitionSpec} {cause : StorageError}
    (hpartition : config.partition? record = some spec) (hf : f.Issued a)
    (hsame : config.strategy = .grouped → f.slot.bucket = spec.bucket) :
    config.misses a record (.error (.write (.stage f.slot.staging cause))) = false := by
  refine decide_eq_false fun ⟨hgrouped, hnone⟩ ↦ ?_
  obtain ⟨other, k, hk, hslot⟩ := hf
  have hbucket := hsame hgrouped
  rw [hslot, a.bucket_slot] at hbucket
  obtain rfl := PartitionSpec.bucket_injective hbucket
  exact hnone _ (Option.mem_def.mpr hpartition) k hk (congrArg Slot.staging hslot)

/-- What a write does to the journal, next to what it does to the sink: either the record is not
taken, or it is, and if the batch is full then, a checkpoint follows. -/
theorem Told.journal_write (h : s.Told config run j)
    (hc : (s.write record).Ends replies store (.ok (s', result)) store') :
    ∃ w written store₁, (s.writer.write s.layout record).Ends replies store (w, written) store₁ ∧
      ((∃ e, written = .error e ∧ result = .error (.write e) ∧ s' = { s with writer := w } ∧
          store' = store₁ ∧
          j.after config s s' result (.write record) = (j.miss result).upTo w.allocator) ∨
        written = .ok () ∧ ∃ s₁ j₁, s₁ = { s with
            writer := w
            inBatch := s.inBatch + 1
            stats := { s.stats with records := s.stats.records + 1 } } ∧
          j₁ = (j.take config record).upTo w.allocator ∧
          (config.batchSize ≤ j.current.records.length + 1 ∧
              s₁.checkpoint.Ends replies store₁ (.ok (s', result)) store' ∧
              j.after config s s' result (.write record) = j₁.boundary s.retries result ∨
            j.current.records.length + 1 < config.batchSize ∧ s' = s₁ ∧ store' = store₁ ∧
              result = .ok () ∧ j.after config s s' result (.write record) = j₁)) := by
  have ha : (config.allocator run).InPlace := Allocator.inPlace_new _ _ _ _
  have hlayout := h.at_desk.layout
  have hfixed := h.at_desk.writer.fixed
  have hstrategy : s.writer.strategy = config.strategy := h.at_desk.writer.strategy
  have hpartition : ∀ {spec projected},
      s.layout.place s.writer.fixed record = .ok (spec, projected) →
      config.partition? record = some spec := by
    intro spec projected hplace
    rw [hlayout, hfixed] at hplace
    exact Config.partition?_of_place hplace
  obtain ⟨w, written, store₁, hwrite, hphases⟩ := phases_write hc
  have hhandled := Writer.hands_write hwrite
  refine ⟨w, written, store₁, hwrite, ?_⟩
  rcases hphases with ⟨e, rfl, rfl, rfl, rfl⟩ | ⟨rfl, hend⟩
  · -- An error of the writer itself comes before the record is taken.
    refine .inl ⟨e, rfl, rfl, rfl, rfl, ?_⟩
    have hmisses : config.misses w.allocator record (.error (.write e)) = true := by
      cases hhandled with
      | rejected _ _ _ => rfl
      | blocked hplace hgrouped hother hclosing _ _ hallocator =>
        obtain ⟨f, hf, cause, rfl⟩ := hclosing.stage_of_error rfl
        rw [hallocator]
        exact misses_of_other (hstrategy ▸ hgrouped) (hpartition hplace)
          (h.holds.writer.opened f hf) (hother f hf)
      | turned _ _ hplaced _ =>
        obtain ⟨path, fault, rfl⟩ := hplaced.encode_of_error
        rfl
      | put _ _ hplaced _ _ =>
        obtain ⟨path, fault, rfl⟩ := hplaced.encode_of_error
        rfl
    simp only [Journal.after, hmisses, if_true]
  · obtain ⟨spec, projected, hplace, hsame⟩ := hhandled.place_of_ok
    refine .inr ⟨rfl, _, _, rfl, rfl, ?_⟩
    rcases hend with ⟨hfull, hcheckpoint⟩ | ⟨hroom, rfl, rfl, rfl⟩
    · -- What the checkpoint returns is no error of a record that was not taken.
      have hmisses : config.misses w.allocator record result = false := by
        obtain ⟨w', closed, store₂, hclose, ⟨e, rfl, rfl, -⟩ |
          ⟨-, results, again, -, -, rfl, -⟩⟩ := phases_checkpoint hcheckpoint
        · obtain ⟨f, hf, cause, rfl⟩ := Writer.stage_of_close hclose
          refine misses_of_same (hpartition hplace) ?_ fun hgrouped ↦
            hsame (hstrategy.trans hgrouped) f hf
          exact (h.holds.writer.of_write ha hwrite).opened f hf
        · split
          · rfl
          · rfl
      rw [h.inBatch, h.batchSize] at hfull
      refine .inl ⟨hfull, hcheckpoint, ?_⟩
      have hallocator : s'.writer.allocator = w.allocator :=
        (bounded_checkpoint hcheckpoint).allocator
      simp [Journal.after, hallocator, hmisses, Journal.take, Journal.upTo, Batch.take, hfull]
    · rw [h.inBatch, h.batchSize] at hroom
      refine .inr ⟨hroom, rfl, rfl, rfl, ?_⟩
      simp [Journal.after, Config.misses, Journal.take, Journal.upTo, Batch.take,
        Nat.not_le.mpr hroom]

/-- After a boundary the journal is in step again. -/
theorem Told.of_turns {j' : Journal} (h : s.Told config run j) (hturns : j.Turns j')
    (hbounded : s.Bounded s') (hat : s'.At (config.desk run Mishap.none .empty))
    (hholds : s'.Holds (config.allocator run)) : s'.Told config run j' where
  at_desk := hat
  holds := hholds
  batchSize := hbounded.batchSize.trans h.batchSize
  inBatch := by
    rw [hbounded.inBatch, hturns.current]
    rfl
  last := by
    rw [hturns.current, hbounded.allocator]
    exact h.last

/-- A call does to the journal what it does to the sink. -/
theorem Told.call (h : s.Told config run j) (c : Call)
    (hc : (s.call c).Ends replies store (.ok (s', result)) store') :
    s'.Told config run (j.after config s s' result c) := by
  have ha : (config.allocator run).InPlace := Allocator.inPlace_new _ _ _ _
  have hat := h.at_desk.call hc
  have hholds : s'.Holds (config.allocator run) := h.holds.of_ends ha hc _ rfl
  cases c with
  | checkpoint =>
    rw [h.journal_checkpoint hc]
    exact h.of_turns (Journal.turns_boundary _ _).1 (bounded_checkpoint hc) hat hholds
  | abort =>
    rw [h.journal_abort hc]
    exact h.of_turns Journal.turns_abandon (bounded_abort hc) hat hholds
  | write record =>
    obtain ⟨w, written, store₁, hwrite, ⟨e, -, -, rfl, -, hafter⟩ |
      ⟨-, s₁, j₁, rfl, rfl, hend⟩⟩ := h.journal_write hc
    · rw [hafter]
      obtain ⟨books, hmiss⟩ := j.miss_eq result
      rw [hmiss]
      exact ⟨hat, hholds, h.batchSize, h.inBatch, rfl⟩
    · have hinBatch : s.inBatch + 1 = (j.take config record).current.records.length := by
        simp [Journal.take, Batch.take, h.inBatch]
      rcases hend with ⟨-, hcheckpoint, hafter⟩ | ⟨-, rfl, -, -, hafter⟩
      · rw [hafter]
        have htook : Told config run ((j.take config record).upTo w.allocator) { s with
            writer := w
            inBatch := s.inBatch + 1
            stats := { s.stats with records := s.stats.records + 1 } } :=
          ⟨⟨h.at_desk.layout, h.at_desk.writer.write hwrite⟩,
            ⟨h.holds.writer.of_write ha hwrite, h.holds.retries⟩, h.batchSize, hinBatch, rfl⟩
        exact htook.of_turns (Journal.turns_boundary _ _).1 (bounded_checkpoint hcheckpoint) hat
          hholds
      · rw [hafter]
        exact ⟨hat, hholds, h.batchSize, hinBatch, rfl⟩

/-- In every course, the journal is in step with the sink. -/
theorem Course.told (h : Course config run replies init s store j) : s.Told config run j := by
  induction h with
  | start hstart =>
    obtain ⟨rfl, -⟩ := eq_new_of_start hstart
    exact told_new config run
  | call _ c hc ih => exact ih.call c hc

/-- At the end of a batch nothing is in hand, however it ended. -/
theorem Told.bounded (h : s.Told config run j) {c : Call}
    (hc : (s.call c).Ends replies store (.ok (s', result)) store')
    (hbounds : j.boundaries < (j.after config s s' result c).boundaries) :
    s'.writer.opened = [] ∧ s'.writer.closed = [] := by
  cases c with
  | checkpoint => exact ⟨(bounded_checkpoint hc).opened, (bounded_checkpoint hc).closed⟩
  | abort => exact ⟨(bounded_abort hc).opened, (bounded_abort hc).closed⟩
  | write record =>
    obtain ⟨w, written, store₁, -, ⟨e, -, -, -, -, hafter⟩ |
      ⟨-, s₁, j₁, -, rfl, ⟨-, hcheckpoint, -⟩ | ⟨-, -, -, -, hafter⟩⟩⟩ := h.journal_write hc
    · obtain ⟨books, hmiss⟩ := j.miss_eq result
      rw [hafter, hmiss] at hbounds
      exact absurd hbounds (Nat.lt_irrefl _)
    · exact ⟨(bounded_checkpoint hcheckpoint).opened, (bounded_checkpoint hcheckpoint).closed⟩
    · rw [hafter] at hbounds
      exact absurd hbounds (Nat.lt_irrefl _)

end Sink

end TableSink
