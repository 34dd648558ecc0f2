import Mathlib.Data.List.DropRight
import Mathlib.Data.List.SplitBy
import TableSink.Proofs.Writer.Order

/-!
# Which files records call for

Records that cannot be encoded spoil the file of their partition, so it is not the partitions alone
that say which files there are. For records that were given to a writer one after the other, each
with whether it was written:

* `Layout.survivors` are the records of a partition after the last one that could not be encoded,
  and `Layout.since` everything from the first of them on;
* `Layout.pieces` cuts the records of a partition after every one that could not be encoded;
* `Layout.runs` cuts all records where the partition changes, and after every one that could not be
  encoded; `Layout.running` are the records of the last run, if it goes on.

Records without a place do not count. What one more record does to each of these is said case by
case; nothing here is about writers. `Layout.Told` says when it is up to the encoder which records
were written: a record is encoded behind what is held of its partition by then.
-/

namespace List

variable {α : Type} {rel : α → α → Bool} {l : List α} {pieces : List (List α)} {piece : List α}
variable {x : α}

/-- The last piece ends where the list does. -/
theorem getLast?_of_splitBy (h : l.splitBy rel = pieces ++ [piece]) :
    piece.getLast? = l.getLast? := by
  have hne : piece ≠ [] := ne_nil_of_mem_splitBy (by rw [h]; simp)
  have hflatten := flatten_splitBy rel l
  rw [h, flatten_append, flatten_singleton] at hflatten
  rw [← hflatten, getLast?_append_of_ne_nil _ hne]

/-- An element that goes with the last one belongs to the last piece. -/
theorem splitBy_concat_of_rel (h : l.splitBy rel = pieces ++ [piece])
    (hrel : ∀ y ∈ l.getLast?, rel y x = true) :
    (l ++ [x]).splitBy rel = pieces ++ [piece ++ [x]] := by
  rw [← getLast?_of_splitBy h] at hrel
  rw [splitBy_eq_iff] at h ⊢
  obtain ⟨rfl, hne, hchain, hbetween⟩ := h
  rw [isChain_append] at hbetween
  obtain ⟨hpieces, -, hlast⟩ := hbetween
  refine ⟨by simp, ?_, ?_, ?_⟩
  · simp only [mem_append, mem_singleton, not_or] at hne ⊢
    exact ⟨hne.1, by simp⟩
  · intro m hm
    rcases mem_append.mp hm with hm | hm
    · exact hchain m (mem_append_left _ hm)
    · obtain rfl := mem_singleton.mp hm
      exact isChain_append.mpr ⟨hchain piece (by simp), by simp, by simpa using hrel⟩
  · rw [isChain_append]
    refine ⟨hpieces, by simp, fun a ha b hb ↦ ?_⟩
    obtain rfl : b = piece ++ [x] := by simpa using hb.symm
    obtain ⟨ha', hpiece, hcut⟩ := hlast a ha piece (by simp)
    exact ⟨ha', by simp, by rwa [head_append_of_ne_nil hpiece]⟩

/-- An element that does not go with the last one is a piece of its own. -/
theorem splitBy_concat_of_not_rel (hrel : ∀ y ∈ l.getLast?, rel y x = false) :
    (l ++ [x]).splitBy rel = l.splitBy rel ++ [[x]] :=
  splitBy_append_cons [] hrel

/-- Where only the element in front counts, a piece is begun unless that element carries on. -/
theorem length_splitBy_concat (p : α → Bool) (l : List α) (x : α) :
    ((l ++ [x]).splitBy fun y _ ↦ p y).length =
      (l.splitBy fun y _ ↦ p y).length + if l.rtakeWhile p = [] then 1 else 0 := by
  induction l using reverseRecOn with
  | nil => rfl
  | append_singleton l y _ =>
    cases hp : p y with
    | false =>
      rw [rtakeWhile_concat_neg p l y (by simp [hp]), if_pos rfl, splitBy_concat_of_not_rel,
        length_append, length_singleton]
      simpa using hp
    | true =>
      have hpieces : ((l ++ [y]).splitBy fun y _ ↦ p y) ≠ [] := splitBy_ne_nil.mpr (by simp)
      have hpos := length_pos_iff.mpr hpieces
      rw [rtakeWhile_concat_pos p l y hp, if_neg (by simp),
        splitBy_concat_of_rel (dropLast_append_getLast hpieces).symm (by simpa using hp),
        length_append, length_singleton, length_dropLast]
      omega

end List

namespace TableSink

variable {ρ : Type}

namespace Layout

/-- The partition of a record that has a place. -/
def partition? (layout : Layout ρ) (record : ρ) : Option PartitionSpec :=
  match layout.place none record with
  | .ok (spec, _) => some spec
  | .error _ => none

/-- The records of a partition. -/
def recordsOf (layout : Layout ρ) (spec : PartitionSpec) (told : List (ρ × Bool)) :
    List (ρ × Bool) :=
  told.filter fun t ↦ layout.partition? t.1 = some spec

/-- The records of a partition after the last one that could not be encoded. -/
def survivors (layout : Layout ρ) (spec : PartitionSpec) (told : List (ρ × Bool)) : List ρ :=
  ((layout.recordsOf spec told).rtakeWhile Prod.snd).map Prod.fst

/-- All records from the first survivor of a partition on. -/
def since (layout : Layout ρ) (spec : PartitionSpec) (told : List (ρ × Bool)) : List (ρ × Bool) :=
  (told.rtakeWhile fun t ↦ layout.partition? t.1 ≠ some spec || t.2).dropWhile
    fun t ↦ layout.partition? t.1 ≠ some spec

/-- The records of a partition, cut after every one that could not be encoded. -/
def pieces (layout : Layout ρ) (spec : PartitionSpec) (told : List (ρ × Bool)) :
    List (List (ρ × Bool)) :=
  (layout.recordsOf spec told).splitBy fun t _ ↦ t.2

/-- The records that have a place. -/
def placed (layout : Layout ρ) (told : List (ρ × Bool)) : List (ρ × Bool) :=
  told.filter fun t ↦ (layout.partition? t.1).isSome

/-- The records that have a place, cut where the partition changes, and after every one that could
not be encoded. -/
def runs (layout : Layout ρ) (told : List (ρ × Bool)) : List (List (ρ × Bool)) :=
  (layout.placed told).splitBy fun t t' ↦
    t.2 && layout.partition? t.1 == layout.partition? t'.1

/-- The records of the last run, if it is one of the partition and goes on. -/
def running (layout : Layout ρ) (spec : PartitionSpec) (told : List (ρ × Bool)) : List ρ :=
  ((layout.placed told).rtakeWhile fun t ↦ t.2 && layout.partition? t.1 = some spec).map Prod.fst

/-- The record has a place and can be encoded behind what is held of its partition. -/
def Encodes (layout : Layout ρ) (held : PartitionSpec → List ρ) (record : ρ) : Prop :=
  ∃ spec projected, layout.place none record = .ok (spec, projected) ∧
    (layout.encoder projected (layout.lines (held spec))).2 = .ok ()

/-- Beside each record stands whether it has a place and can be encoded behind what is held of its
partition by then. -/
def Told (layout : Layout ρ) (held : PartitionSpec → List (ρ × Bool) → List ρ)
    (told : List (ρ × Bool)) : Prop :=
  ∀ before record written, before ++ [(record, written)] <+: told →
    (written = true ↔ layout.Encodes (held · before) record)

variable {layout : Layout ρ} {spec : PartitionSpec} {told : List (ρ × Bool)} {record projected : ρ}
variable {written : Bool}

theorem partition?_of_place (h : layout.place none record = .ok (spec, projected)) :
    layout.partition? record = some spec := by
  simp only [partition?, h]

theorem partition?_of_rejected {e : ComputationError} (h : layout.place none record = .error e) :
    layout.partition? record = none := by
  simp only [partition?, h]

theorem partition?_ne {spec' : PartitionSpec} (h : layout.partition? record = some spec)
    (hne : spec' ≠ spec) : layout.partition? record ≠ some spec' := by
  simpa [h] using Ne.symm hne

theorem not_encodes_of_rejected {held : PartitionSpec → List ρ} {e : ComputationError}
    (h : layout.place none record = .error e) : ¬ layout.Encodes held record := by
  rintro ⟨spec, projected, hplace, -⟩
  rw [h] at hplace
  cases hplace

theorem not_encodes_of_error {held : PartitionSpec → List ρ} {fault : Json.Fault}
    (h : layout.place none record = .ok (spec, projected))
    (hencode : (layout.encoder projected (layout.lines (held spec))).2 = .error fault) :
    ¬ layout.Encodes held record := by
  rintro ⟨spec', projected', hplace, hok⟩
  rw [h] at hplace
  cases hplace
  rw [hencode] at hok
  cases hok

theorem told_nil (layout : Layout ρ) (held : PartitionSpec → List (ρ × Bool) → List ρ) :
    layout.Told held [] :=
  fun before record written h ↦ by simp at h

theorem Told.concat {held : PartitionSpec → List (ρ × Bool) → List ρ} (h : layout.Told held told)
    (hwritten : written = true ↔ layout.Encodes (held · told) record) :
    layout.Told held (told ++ [(record, written)]) := by
  intro before record' written' hprefix
  rcases List.prefix_concat_iff.mp hprefix with heq | hprefix
  · obtain ⟨rfl, hlast⟩ := List.append_inj' heq rfl
    cases hlast
    exact hwritten
  · exact h before record' written' hprefix

/-! ## One more record -/

section Concat

theorem recordsOf_concat_of_ne (h : layout.partition? record ≠ some spec)
    (told : List (ρ × Bool)) (written : Bool) :
    layout.recordsOf spec (told ++ [(record, written)]) = layout.recordsOf spec told := by
  simp [recordsOf, h]

theorem recordsOf_concat_of_eq (h : layout.partition? record = some spec)
    (told : List (ρ × Bool)) (written : Bool) :
    layout.recordsOf spec (told ++ [(record, written)]) =
      layout.recordsOf spec told ++ [(record, written)] := by
  simp [recordsOf, h]

theorem survivors_concat_of_ne (h : layout.partition? record ≠ some spec)
    (told : List (ρ × Bool)) (written : Bool) :
    layout.survivors spec (told ++ [(record, written)]) = layout.survivors spec told := by
  rw [survivors, recordsOf_concat_of_ne h, survivors]

theorem survivors_concat_of_written (h : layout.partition? record = some spec)
    (told : List (ρ × Bool)) :
    layout.survivors spec (told ++ [(record, true)]) = layout.survivors spec told ++ [record] := by
  rw [survivors, recordsOf_concat_of_eq h, List.rtakeWhile_concat_pos _ _ _ rfl, List.map_append,
    survivors, List.map_singleton]

theorem survivors_concat_of_not_written (h : layout.partition? record = some spec)
    (told : List (ρ × Bool)) : layout.survivors spec (told ++ [(record, false)]) = [] := by
  rw [survivors, recordsOf_concat_of_eq h, List.rtakeWhile_concat_neg _ _ _ (by simp),
    List.map_nil]

theorem since_concat_of_ne (h : layout.partition? record ≠ some spec)
    (told : List (ρ × Bool)) (written : Bool) : layout.since spec (told ++ [(record, written)]) =
      if layout.since spec told = [] then [] else layout.since spec told ++ [(record, written)] := by
  rw [since, List.rtakeWhile_concat_pos _ _ _ (by simp [h]), List.dropWhile_append, ← since]
  simp only [List.isEmpty_iff]
  split
  · simp [h]
  · rfl

theorem since_concat_of_written (h : layout.partition? record = some spec)
    (told : List (ρ × Bool)) : layout.since spec (told ++ [(record, true)]) =
      layout.since spec told ++ [(record, true)] := by
  rw [since, List.rtakeWhile_concat_pos _ _ _ (by simp), List.dropWhile_append, since]
  simp [h]

theorem since_concat_of_not_written (h : layout.partition? record = some spec)
    (told : List (ρ × Bool)) : layout.since spec (told ++ [(record, false)]) = [] := by
  rw [since, List.rtakeWhile_concat_neg _ _ _ (by simp [h]), List.dropWhile_nil]

/-- There are survivors if there is a first one. -/
theorem since_eq_nil_iff : layout.since spec told = [] ↔ layout.survivors spec told = [] := by
  induction told using List.reverseRecOn with
  | nil => simp [since, survivors, recordsOf]
  | append_singleton told t ih =>
    obtain ⟨record, written⟩ := t
    by_cases h : layout.partition? record = some spec
    · cases written with
      | true => simp [since_concat_of_written h, survivors_concat_of_written h]
      | false => simp [since_concat_of_not_written h, survivors_concat_of_not_written h]
    · rw [since_concat_of_ne h, survivors_concat_of_ne h, ← ih]
      by_cases hsince : layout.since spec told = []
      · simp [hsince]
      · simp [hsince]

/-- Another record of a partition with survivors is a later one, if it leaves survivors. -/
theorem since_concat (hsome : layout.survivors spec told ≠ [])
    (h : layout.partition? record ≠ some spec ∨ written = true) :
    layout.since spec (told ++ [(record, written)]) =
      layout.since spec told ++ [(record, written)] := by
  by_cases hspec : layout.partition? record = some spec
  · obtain rfl := h.resolve_left (not_not.mpr hspec)
    exact since_concat_of_written hspec told
  · rw [since_concat_of_ne hspec, if_neg (mt since_eq_nil_iff.mp hsome)]

theorem pieces_concat_of_ne (h : layout.partition? record ≠ some spec)
    (told : List (ρ × Bool)) (written : Bool) :
    layout.pieces spec (told ++ [(record, written)]) = layout.pieces spec told := by
  rw [pieces, recordsOf_concat_of_ne h, pieces]

/-- A piece is begun when there are no survivors. -/
theorem length_pieces_concat (h : layout.partition? record = some spec)
    (told : List (ρ × Bool)) (written : Bool) :
    (layout.pieces spec (told ++ [(record, written)])).length =
      (layout.pieces spec told).length + if layout.survivors spec told = [] then 1 else 0 := by
  simp only [pieces, recordsOf_concat_of_eq h, List.length_splitBy_concat, survivors,
    List.map_eq_nil_iff]

theorem placed_concat_of_rejected (h : layout.partition? record = none)
    (told : List (ρ × Bool)) (written : Bool) :
    layout.placed (told ++ [(record, written)]) = layout.placed told := by
  simp [placed, h]

theorem placed_concat (h : layout.partition? record = some spec)
    (told : List (ρ × Bool)) (written : Bool) :
    layout.placed (told ++ [(record, written)]) = layout.placed told ++ [(record, written)] := by
  simp [placed, h]

theorem runs_concat_of_rejected (h : layout.partition? record = none)
    (told : List (ρ × Bool)) (written : Bool) :
    layout.runs (told ++ [(record, written)]) = layout.runs told := by
  rw [runs, placed_concat_of_rejected h, runs]

/-- The last record that has a place is the last one of the last run. -/
theorem getLast?_of_runs {runs : List (List (ρ × Bool))} {run : List (ρ × Bool)}
    (h : layout.runs told = runs ++ [run]) : run.getLast? = (layout.placed told).getLast? :=
  List.getLast?_of_splitBy h

/-- The last run goes on. -/
theorem runs_concat_of_same {runs : List (List (ρ × Bool))} {run : List (ρ × Bool)}
    (hruns : layout.runs told = runs ++ [run]) (h : layout.partition? record = some spec)
    (hlast : ∀ last ∈ run.getLast?, last.2 = true ∧ layout.partition? last.1 = some spec)
    (written : Bool) :
    layout.runs (told ++ [(record, written)]) = runs ++ [run ++ [(record, written)]] := by
  rw [getLast?_of_runs hruns] at hlast
  rw [Layout.runs, placed_concat h]
  exact List.splitBy_concat_of_rel hruns fun last hl ↦ by simp [hlast last hl, h]

/-- A run is begun. -/
theorem runs_concat_of_other (h : layout.partition? record = some spec)
    (hlast : ∀ run ∈ (layout.runs told).getLast?, ∀ last ∈ run.getLast?,
      last.2 = true → layout.partition? last.1 ≠ some spec) (written : Bool) :
    layout.runs (told ++ [(record, written)]) = layout.runs told ++ [[(record, written)]] := by
  rw [Layout.runs, placed_concat h, Layout.runs]
  refine List.splitBy_concat_of_not_rel fun last hl ↦ ?_
  have hruns : layout.runs told ≠ [] := List.splitBy_ne_nil.mpr fun hnil ↦ by simp [hnil] at hl
  have hlast := hlast _ (List.getLast?_eq_some_getLast hruns) last
    (by rwa [getLast?_of_runs (List.dropLast_append_getLast hruns).symm])
  cases hwritten : last.2 with
  | true => simpa [h] using hlast hwritten
  | false => rfl

theorem running_concat_of_rejected (h : layout.partition? record = none)
    (told : List (ρ × Bool)) (written : Bool) :
    layout.running spec (told ++ [(record, written)]) = layout.running spec told := by
  rw [running, placed_concat_of_rejected h, running]

/-- A record that was written goes on with the last run, or begins one. -/
theorem running_concat_of_written (h : layout.partition? record = some spec)
    (told : List (ρ × Bool)) :
    layout.running spec (told ++ [(record, true)]) = layout.running spec told ++ [record] := by
  rw [running, placed_concat h, List.rtakeWhile_concat_pos _ _ _ (by simp [h]), List.map_append,
    List.map_singleton, running]

/-- A record of another partition ends the last run, and so does one that could not be encoded. -/
theorem running_concat_of_ne {spec' : PartitionSpec} (h : layout.partition? record = some spec)
    (hne : written = true → spec' ≠ spec) (told : List (ρ × Bool)) :
    layout.running spec' (told ++ [(record, written)]) = [] := by
  rw [running, placed_concat h, List.rtakeWhile_concat_neg, List.map_nil]
  cases written with
  | true => simpa [h] using Ne.symm (hne rfl)
  | false => simp

end Concat

end Layout

end TableSink
