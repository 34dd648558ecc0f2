import TableSink.Proofs.Ingest.Input
import TableSink.Proofs.Storage.Ways

/-!
# What shows in a table

What a run shows in its table is a function of the records that it publishes: `Config.Publishes`
says what is new, what it holds and in which order, and that nothing else has changed. The books of
a sink that has nothing in hand tell that it holds (`Config.publishes_of_keeps`).
-/

namespace TableSink

open Filed (InOrder within)

namespace Config

/-- No object shows the name of the run. -/
def Fresh (run : String) (s : MemoryStore) : Prop :=
  ∀ p : ObjectPath, s.get? p ≠ none → ¬ run.toList <:+: p.text.toList

/-- The files of a partition, the one with the lowest number first, as one piece. -/
def showing (config : Config) (run : String) (s : MemoryStore) (spec : PartitionSpec)
    (count : Nat) : ByteArray :=
  ((List.range count).map fun i ↦
    (s.get? ((config.allocator run).slot spec i).target).getD .empty).foldl (· ++ ·) .empty

/-- From the one store to the other, a run has published these records in these objects, and for
each partition it had handed out so many places. -/
structure Publishes (config : Config) (run : String) (before after : MemoryStore)
    (records : List Json) (places : PartitionSpec → Nat) (published : List ObjectPath) : Prop where
  nodup : published.Nodup
  /-- They are the new objects outside the directory of the attempt. -/
  mem_iff : ∀ p, p ∈ published ↔ p.isBelow (config.allocator run).taskDir = false ∧
    before.get? p = none ∧ after.get? p ≠ none
  /-- They are files of partitions, and those of a partition, in the order of their numbers, hold
  the lines of its records, in the order in which they came. -/
  files : ∃ count : PartitionSpec → Nat,
    (∀ p, p ∈ published ↔
      ∃ spec, ∃ i < count spec, p = ((config.allocator run).slot spec i).target) ∧
    ∀ spec, config.showing run after spec (count spec) =
      (String.join ((records.filter fun r ↦ config.Belongs spec r).map config.line)).toUTF8
  /-- What was there outside the directory of the attempt is as it was. -/
  old : ∀ p, p.isBelow (config.allocator run).taskDir = false → before.get? p ≠ none →
    after.get? p = before.get? p
  /-- Nothing waits any more. -/
  none_waits : ∀ spec, ∀ i < places spec,
    after.get? ((config.allocator run).slot spec i).staging = none
  /-- Everything else is as it was. -/
  frame : ∀ p, p ∉ published →
    (∀ spec, ∀ i < places spec, p ≠ ((config.allocator run).slot spec i).staging) →
    after.get? p = before.get? p

variable {config : Config} {run : String} {before after : MemoryStore}

/-- Nothing was there where a run publishes. -/
theorem Fresh.target (hfresh : Fresh run before) (hrun : ∀ c ∈ run.toList, ObjectPath.isPlain c)
    (spec : PartitionSpec) (i : Nat) :
    before.get? ((config.allocator run).slot spec i).target = none := by
  by_contra hne
  exact hfresh _ hne (Allocator.run_infix_target (a := config.allocator run) hrun spec i)

/-- Nothing waits outside the directory of the attempt. -/
theorem ne_staging {p : ObjectPath} (hp : p.isBelow (config.allocator run).taskDir = false)
    (spec : PartitionSpec) (i : Nat) : p ≠ ((config.allocator run).slot spec i).staging := by
  rintro rfl
  rw [Allocator.staging_isBelow] at hp
  cases hp

/-- What was published shows in every store that is like this one. -/
theorem Publishes.of_alike {records : List Json} {places : PartitionSpec → Nat}
    {published : List ObjectPath} {after' : MemoryStore}
    (h : config.Publishes run before after records places published) (hafter : after'.Alike after) :
    config.Publishes run before after' records places published := by
  have hget : after'.get? = after.get? := funext hafter
  obtain ⟨hnodup, hmem, ⟨count, htargets, hlines⟩, hold, hwaits, hframe⟩ := h
  simp only [showing, ← hget] at hmem hlines hold hwaits hframe
  exact ⟨hnodup, hmem, ⟨count, htargets, hlines⟩, hold, hwaits, hframe⟩

/-- The books of a sink that has nothing in hand tell what was published. -/
theorem publishes_of_keeps {s : Sink} {b : Books Json} {records : List Json}
    {places : PartitionSpec → Nat} (hkeeps : s.Keeps (config.desk run Mishap.none before) after b)
    (hidle : b.Idle) (hinOrder : InOrder (config.desk run Mishap.none before) b.shown records)
    (hfits : ∀ r ∈ records, config.Fits r) (hfresh : Fresh run before)
    (hrun : ∀ c ∈ run.toList, ObjectPath.isPlain c)
    (hplaces : ∀ spec, places spec = s.writer.allocator.count spec.bucket) :
    config.Publishes run before after records places
      (b.shown.map fun f ↦ (f.slot (config.allocator run)).target) := by
  have hholds := hkeeps.tracks.holds
  have hslot : s.writer.allocator.slot = (config.allocator run).slot := hkeeps.tracks.base
  have hplace : ∀ f : Filed Json, f.slot s.writer.allocator = f.slot (config.allocator run) :=
    fun f ↦ by rw [Filed.slot, Filed.slot, hslot]
  have hget : ∀ f ∈ b.shown, after.get? (f.slot (config.allocator run)).target =
      some (f.bytes (config.desk run Mishap.none before).layout) := by
    intro f hf
    rw [← hplace]
    exact (hholds.stands (f, .shown) (Books.mem_entries.mpr hf)).1
  have hframe : ∀ p, p ∉ (b.shown.map fun f ↦ (f.slot (config.allocator run)).target) →
      (∀ spec, ∀ i < places spec, p ≠ ((config.allocator run).slot spec i).staging) →
      after.get? p = before.get? p := by
    intro p hp hstaging
    apply hholds.get?_of_not_shown
    · intro k hk
      rw [hslot]
      exact hstaging k.1 k.2 ((hplaces k.1).symm ▸ (hholds.issued k.1 k.2).mp hk)
    · intro f hf he
      rw [hidle.kept, List.append_nil] at hf
      exact hp (List.mem_map.mpr ⟨f, hf, by rw [he, hplace]⟩)
  have hnew : ∀ p, p ∈ (b.shown.map fun f ↦ (f.slot (config.allocator run)).target) ↔
      p.isBelow (config.allocator run).taskDir = false ∧ before.get? p = none ∧
        after.get? p ≠ none := by
    intro p
    constructor
    · intro hp
      obtain ⟨f, hf, rfl⟩ := List.mem_map.mp hp
      refine ⟨?_, hfresh.target hrun _ _, ?_⟩
      · exact (Allocator.inPlace_new _ _ _ _).target_not_isBelow _ _ _
      · rw [hget f hf]
        exact Option.some_ne_none _
    · rintro ⟨hp, hbefore, hafter⟩
      by_contra hnot
      exact hafter ((hframe p hnot fun spec i _ ↦ ne_staging hp spec i).trans hbefore)
  have hbelongs : ∀ spec, ∀ r ∈ records, (config.desk run Mishap.none before).Belongs spec r =
      decide (config.Belongs spec r) := by
    intro spec r hr
    obtain ⟨_, _, hr⟩ := (hfits r hr).exists_place run Mishap.none before
    exact belongs_desk hr spec
  refine ⟨?_, hnew, ⟨fun spec ↦ (within spec b.shown).length, hinOrder.mem_targets_iff _, ?_⟩,
    ?_, ?_, hframe⟩
  · simpa only [hplace] using hholds.nodup_target
  · intro spec
    rw [showing, hinOrder.foldl_targets jsonLines_oblivious hget,
      List.filter_congr (hbelongs spec), lines_desk]
  · intro p hp hbefore
    exact hframe p (fun hmem ↦ hbefore ((hnew p).mp hmem).2.1) fun spec i _ ↦ ne_staging hp spec i
  · intro spec i hi
    rw [← hslot]
    exact hholds.staging_eq_none hidle (hplaces spec ▸ hi)

end Config

end TableSink
