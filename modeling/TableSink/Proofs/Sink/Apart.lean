import TableSink.Proofs.Sink.Course
import TableSink.Proofs.Storage.Fickle

/-!
# Batches are kept apart

Whatever goes wrong with a store, nothing of a batch that was given up ever shows. Two kinds of
steps are all that a sink does to a store: files of the open batch are put at their staging places
(`Batch.Stages`), and files of closed batches are moved to their targets, while other staging places
are emptied (`Moves`). Batches have no place in common, so a step of one batch does not change what
waits for another one.

`Sink.Apart` is what every call keeps, and `Sink.Course.apart` what holds in every course. The main
result, `Sink.Course.never_published`, is read off it.
-/

namespace TableSink

open MemoryStore (Fickle)

variable {layout : Layout Json} {a : Allocator} {s s₁ s' : MemoryStore}
variable {t t' : Batch} {f : Filed Json} {closed : List Batch}

/-! ## What steps do to a store -/

namespace Batch

/-- No place of a batch is one of a batch that began when the other one was over. -/
theorem disjoint_of_le (h : ∀ bucket, t.last.count bucket ≤ t'.first.count bucket)
    {spec : PartitionSpec} {i : Nat} (hi : t.Has spec i) : ¬ t'.Has spec i := by
  intro hi'
  have := h spec.bucket
  have := hi.2
  have := hi'.1
  omega

/-- A later state of a batch. -/
structure Extends (t t' : Batch) : Prop where
  first : t'.first = t.first
  last : ∀ bucket, t.last.count bucket ≤ t'.last.count bucket
  records : t.records.Sublist t'.records

theorem Owns.mono (h : t.Owns f) (ht : t.Extends t') : t'.Owns f where
  has := ⟨ht.first ▸ h.has.1, Nat.lt_of_lt_of_le h.has.2 (ht.last _)⟩
  records := h.records.trans ht.records

/-- Files of the batch are put at their staging places. -/
def Stages (t : Batch) (layout : Layout Json) (a : Allocator) (s s' : MemoryStore) : Prop :=
  ∀ p, s'.get? p = s.get? p ∨
    ∃ f, t.Owns f ∧ p = (f.slot a).staging ∧ s'.get? p = some (f.bytes layout)

/-- If something waits at the staging place of a file, it is records of the batch. -/
def Waits (t : Batch) (layout : Layout Json) (a : Allocator) (s : MemoryStore)
    (f : Filed Json) : Prop :=
  ∀ data, s.get? (f.slot a).staging = some data →
    ∃ records, records.Sublist t.records ∧ data = layout.lines records

/-- The committable is one of a file of the batch. -/
def Covers (t : Batch) (layout : Layout Json) (a : Allocator) (kind : CloseKind)
    (s : MemoryStore) (c : Committable) : Prop :=
  ∃ f, t.Owns f ∧ c.fresh = f.committable layout a kind ∧ t.Waits layout a s f

end Batch

/-- Files of these batches are moved to their targets, and staging places are emptied. -/
def Moves (closed : List Batch) (layout : Layout Json) (a : Allocator) (s s' : MemoryStore) :
    Prop :=
  ∀ p, s'.get? p = s.get? p ∨
    (∃ spec i, p = (a.slot spec i).staging) ∧ s'.get? p = none ∨
    ∃ t ∈ closed, ∃ f, t.Owns f ∧ p = (f.slot a).target ∧ s'.get? p = some (f.bytes layout)

namespace Batch

theorem Stages.refl : t.Stages layout a s s := fun _ ↦ .inl rfl

theorem Stages.trans (h : t.Stages layout a s s₁) (h' : t.Stages layout a s₁ s') :
    t.Stages layout a s s' := by
  intro p
  rcases h' p with hsame | hstaged
  · rw [hsame]
    exact h p
  · exact .inr hstaged

/-- Outside of the directory of the attempt nothing is staged. -/
theorem Stages.get?_eq (h : t.Stages layout a s s') {p : ObjectPath}
    (hp : p.isBelow a.taskDir = false) : s'.get? p = s.get? p := by
  rcases h p with hsame | ⟨f, -, rfl, -⟩
  · exact hsame
  · rw [Filed.slot, a.staging_isBelow] at hp
    cases hp

/-- What is staged for a batch leaves the staging places of others alone. -/
theorem Stages.staging_eq (h : t.Stages layout a s s') {spec : PartitionSpec} {i : Nat}
    (hi : ¬ t.Has spec i) : s'.get? (a.slot spec i).staging = s.get? (a.slot spec i).staging := by
  rcases h (a.slot spec i).staging with hsame | ⟨f, hf, hplace, -⟩
  · exact hsame
  · obtain ⟨rfl, rfl⟩ := Allocator.slot_staging_inj hplace
    exact absurd hf.has hi

theorem Stages.waits_self (h : t.Stages layout a s s') (hf : t.Waits layout a s f) :
    t.Waits layout a s' f := by
  intro data hdata
  rcases h (f.slot a).staging with hsame | ⟨g, hg, -, hbytes⟩
  · exact hf data (hsame ▸ hdata)
  · exact ⟨g.records, hg.records, Option.some.inj (hdata.symm.trans hbytes)⟩

theorem Stages.covers_self (h : t.Stages layout a s s') {kind : CloseKind} {c : Committable}
    (hc : t.Covers layout a kind s c) : t.Covers layout a kind s' c := by
  obtain ⟨f, hf, hc, hwaits⟩ := hc
  exact ⟨f, hf, hc, h.waits_self hwaits⟩

/-- What is staged for a batch leaves what waits for an earlier one alone. -/
theorem Stages.covers (h : t.Stages layout a s s')
    (hle : ∀ bucket, t'.last.count bucket ≤ t.first.count bucket) {kind : CloseKind}
    {c : Committable} (hc : t'.Covers layout a kind s c) : t'.Covers layout a kind s' c := by
  obtain ⟨f, hf, hc, hwaits⟩ := hc
  refine ⟨f, hf, hc, fun data hdata ↦ hwaits data ?_⟩
  rw [← hdata]
  exact (h.staging_eq (disjoint_of_le hle hf.has)).symm

theorem Covers.mono {kind : CloseKind} {c : Committable} (h : t.Covers layout a kind s c)
    (ht : t.Extends t') : t'.Covers layout a kind s c := by
  obtain ⟨f, hf, hc, hwaits⟩ := h
  refine ⟨f, hf.mono ht, hc, fun data hdata ↦ ?_⟩
  obtain ⟨records, hrecords, hlines⟩ := hwaits data hdata
  exact ⟨records, hrecords.trans ht.records, hlines⟩

/-- Handing a committable back does not change which file it is of. -/
theorem Covers.again {kind : CloseKind} {c : Committable} (h : t.Covers layout a kind s c) :
    t.Covers layout a kind s c.again := h

end Batch

namespace Moves

theorem refl : Moves closed layout a s s := fun _ ↦ .inl rfl

theorem trans (h : Moves closed layout a s s₁) (h' : Moves closed layout a s₁ s') :
    Moves closed layout a s s' := by
  intro p
  rcases h' p with hsame | hmoved
  · rw [hsame]
    exact h p
  · exact .inr hmoved

theorem mono {closed' : List Batch} (h : Moves closed layout a s s') (hsub : closed ⊆ closed') :
    Moves closed' layout a s s' := by
  intro p
  rcases h p with hsame | hempty | ⟨t, ht, hf⟩
  · exact .inl hsame
  · exact .inr (.inl hempty)
  · exact .inr (.inr ⟨t, hsub ht, hf⟩)

/-- A staging place is emptied at most. -/
theorem staging (ha : a.InPlace) (h : Moves closed layout a s s') (spec : PartitionSpec) (i : Nat) :
    s'.get? (a.slot spec i).staging = s.get? (a.slot spec i).staging ∨
      s'.get? (a.slot spec i).staging = none := by
  rcases h (a.slot spec i).staging with hsame | ⟨-, hempty⟩ | ⟨t, -, f, -, hplace, -⟩
  · exact .inl hsame
  · exact .inr hempty
  · exact absurd hplace (ha.staging_ne_target a _ _ _ _)

theorem covers (ha : a.InPlace) (h : Moves closed layout a s s') {kind : CloseKind}
    {c : Committable} (hc : t.Covers layout a kind s c) : t.Covers layout a kind s' c := by
  obtain ⟨f, hf, hc, hwaits⟩ := hc
  refine ⟨f, hf, hc, fun data hdata ↦ ?_⟩
  rcases h.staging ha f.spec f.sequence with hsame | hempty
  · exact hwaits data (hsame ▸ hdata)
  · rw [Filed.slot, hempty] at hdata
    cases hdata

/-- Where no batch is closed, nothing happens outside of the directory of the attempt. -/
theorem get?_eq (h : Moves [] layout a s s') {p : ObjectPath}
    (hp : p.isBelow a.taskDir = false) : s'.get? p = s.get? p := by
  rcases h p with hsame | ⟨⟨spec, i, rfl⟩, -⟩ | ⟨t, ht, -⟩
  · exact hsame
  · rw [a.staging_isBelow] at hp
    cases hp
  · cases ht

end Moves

/-! ## Finishing committables -/

/-- A committable of a closed batch moves records of it to its target. -/
theorem Batch.Covers.finish (ha : a.InPlace) {c : Committable}
    {result : Except FailedCommit Finish} (hc : t.Covers layout a .commit s c) (ht : t ∈ closed)
    (h : c.finish.Ends Fickle s result s') : Moves closed layout a s s' := by
  obtain ⟨f, hf, hc, hwaits⟩ := hc
  have htoken : c.token = .pending ⟨(f.slot a).staging.text, (f.slot a).target.text,
      (f.bytes layout).size, f.records.length⟩ := congrArg Committable.token hc
  obtain ⟨finished, hfinish, rfl⟩ := Committable.ends_finish.mp h
  rw [htoken] at hfinish
  intro p
  rcases PendingToken.finish_fickle (ha.places f.spec f.sequence _ _) hfinish p with
    hsame | ⟨hp, hempty⟩ | ⟨hp, data, hdata, hmoved⟩
  · exact .inl hsame
  · exact .inr (.inl ⟨⟨_, _, hp⟩, hempty⟩)
  · obtain ⟨records, hrecords, rfl⟩ := hwaits data hdata
    exact .inr (.inr ⟨t, ht, { f with records }, ⟨hf.has, hrecords⟩, hp, hmoved⟩)

/-- A committable without its pending token empties a staging place and does nothing else. -/
theorem Batch.Covers.discard (ha : a.InPlace) {kind : CloseKind} {c : Committable}
    {result : Except FailedCommit Finish} (hc : t.Covers layout a kind s c)
    (h : c.intoDiscard.finish.Ends Fickle s₁ result s') : Moves [] layout a s₁ s' := by
  obtain ⟨f, -, hc, -⟩ := hc
  have hpath := (ha.written_staging f.spec f.sequence).readPath_text
  have htoken : c.intoDiscard.token =
      .inProgress ⟨(f.slot a).staging.text, (f.bytes layout).size⟩ := by
    have hdiscard : (f.committable layout a kind).intoDiscard = f.committable layout a .recovery :=
      f.intoDiscard_committable kind
    rw [← hc] at hdiscard
    exact congrArg Committable.token hdiscard
  obtain ⟨finished, hfinish, rfl⟩ := Committable.ends_finish.mp h
  rw [htoken] at hfinish
  intro p
  rcases InProgressToken.finish_fickle
    (t := ⟨(f.slot a).staging.text, (f.bytes layout).size⟩) hpath hfinish p with
    hsame | ⟨hp, hempty⟩
  · exact .inl hsame
  · exact .inr (.inl ⟨⟨_, _, hp⟩, hempty⟩)

/-- Committables of closed batches move records of them to their targets. -/
theorem moves_of_finishEach (ha : a.InPlace) {cs : List Committable}
    {results : List (Except FailedCommit Finish)}
    (hcs : ∀ c ∈ cs, ∃ t ∈ closed, t.Covers layout a .commit s c)
    (h : (cs.mapM Committable.finish).Ends Fickle s results s') :
    Moves closed layout a s s' ∧
      ∀ again, (CommitReport.ofResults results).intoRetries = .ok again →
        ∀ c ∈ again, ∃ t ∈ closed, t.Covers layout a .commit s' c := by
  have hstep : ∀ c ∈ cs, ∀ s₁ result s₂, Moves closed layout a s s₁ →
      c.finish.Ends Fickle s₁ result s₂ → Moves closed layout a s s₂ ∧ True := by
    intro c hc s₁ result s₂ hmoves hfinish
    obtain ⟨t, ht, hcovers⟩ := hcs c hc
    exact ⟨hmoves.trans ((hmoves.covers ha hcovers).finish ha ht hfinish), trivial⟩
  have hmoves := (Task.ends_mapM hstep .refl h).1
  refine ⟨hmoves, fun again hagain c hc ↦ ?_⟩
  obtain ⟨c, hmem, -, rfl⟩ := CommitReport.exists_of_mem_intoRetries h hagain hc
  obtain ⟨t, ht, hcovers⟩ := hcs c hmem
  exact ⟨t, ht, (hmoves.covers ha hcovers).again⟩

/-- Committables without their pending tokens empty staging places and do nothing else. -/
theorem moves_of_discardEach (ha : a.InPlace) {cs : List Committable}
    {results : List (Except FailedCommit Finish)}
    (hcs : ∀ c ∈ cs, ∃ kind, t.Covers layout a kind s c)
    (h : ((cs.map Committable.intoDiscard).mapM Committable.finish).Ends Fickle s results s') :
    Moves [] layout a s s' := by
  have hstep : ∀ c ∈ cs.map Committable.intoDiscard, ∀ s₁ result s₂, Moves [] layout a s s₁ →
      c.finish.Ends Fickle s₁ result s₂ → Moves [] layout a s s₂ ∧ True := by
    intro c hc s₁ result s₂ hmoves hfinish
    refine ⟨hmoves.trans ?_, trivial⟩
    obtain ⟨c, hmem, rfl⟩ := List.mem_map.mp hc
    obtain ⟨kind, hcovers⟩ := hcs c hmem
    exact hcovers.discard ha hfinish
  exact (Task.ends_mapM hstep .refl h).1

/-! ## What a writer does -/

/-- All that a writer has in hand is of one batch. -/
structure Batch.InHand (t : Batch) (layout : Layout Json) (a : Allocator) (s : MemoryStore)
    (w : Writer) : Prop where
  slot : w.allocator.slot = a.slot
  last : t.last = w.allocator
  first_le : ∀ bucket, t.first.count bucket ≤ w.allocator.count bucket
  opened : ∀ f ∈ w.opened, ∃ g, t.Owns g ∧ f = g.openFile layout a
  closed : ∀ c ∈ w.closed, t.Covers layout a .commit s c

/-- Closing files of a batch stages them. -/
theorem Closing.stages {kind : CloseKind} {fs : List OpenFile} {cs : List Committable}
    {error : Option WriteError} (h : Closing Fickle kind fs s cs error s')
    (hfs : ∀ f ∈ fs, ∃ g, t.Owns g ∧ f = g.openFile layout a) :
    t.Stages layout a s s' ∧ ∀ c ∈ cs, t.Covers layout a kind s' c := by
  induction h with
  | nil => exact ⟨.refl, by simp⟩
  | @done f fs s s₁ s' c cs error hclose hrest ih =>
    obtain ⟨g, hg, rfl⟩ := hfs f List.mem_cons_self
    obtain ⟨hstages, hcovers⟩ := ih fun f hf ↦ hfs f (List.mem_cons_of_mem _ hf)
    obtain ⟨hok, hput⟩ := OpenFile.close_fickle hclose
    obtain ⟨rfl, hstaged⟩ := hok c rfl
    have hfirst : t.Stages layout a s s₁ := by
      intro p
      rcases hput p with hsame | ⟨hp, hbytes⟩
      · exact .inl hsame
      · exact .inr ⟨g, hg, hp, hbytes⟩
    refine ⟨hfirst.trans hstages, List.forall_mem_cons.mpr ⟨?_, hcovers⟩⟩
    refine hstages.covers_self ⟨g, hg, rfl, fun data hdata ↦ ?_⟩
    exact ⟨g.records, hg.records, Option.some.inj (hdata.symm.trans hstaged)⟩
  | @lost f fs s s₁ s' e cs error hclose hrest ih =>
    obtain ⟨g, hg, rfl⟩ := hfs f List.mem_cons_self
    obtain ⟨hstages, hcovers⟩ := ih fun f hf ↦ hfs f (List.mem_cons_of_mem _ hf)
    obtain ⟨-, hput⟩ := OpenFile.close_fickle hclose
    refine ⟨Batch.Stages.trans (fun p ↦ ?_) hstages, hcovers⟩
    rcases hput p with hsame | ⟨hp, hbytes⟩
    · exact .inl hsame
    · exact .inr ⟨g, hg, hp, hbytes⟩

namespace Batch.InHand

/-- Closing the writer of a batch. -/
theorem close {kind : CloseKind} {w w' : Writer} {result : Except WriteError Unit}
    (h : t.InHand layout a s w) (hw : (w.close kind).Ends Fickle s (w', result) s') :
    t.Stages layout a s s' ∧ w'.allocator = w.allocator ∧ w'.opened = [] ∧
      ∃ cs, w'.closed = w.closed ++ cs ∧ (∀ c ∈ w.closed, t.Covers layout a .commit s' c) ∧
        ∀ c ∈ cs, t.Covers layout a kind s' c := by
  obtain ⟨cs, error, hclosing, -, hopened, hclosed, hallocator, -⟩ := Writer.hands_close hw
  obtain ⟨hstages, hcovers⟩ := hclosing.stages h.opened
  exact ⟨hstages, hallocator, hopened, cs, hclosed, fun c hc ↦ hstages.covers_self (h.closed c hc),
    hcovers⟩

/-- Files in which a record was put are still of the batch, with the record. -/
theorem placed {opened opened' : List OpenFile} {a₀ a' : Allocator} {spec : PartitionSpec}
    {record projected : Json} {result : Except WriteError Unit} (hslot : a₀.slot = a.slot)
    (hlast : t.last = a₀) (hfirst : ∀ bucket, t.first.count bucket ≤ a₀.count bucket)
    (hopened : ∀ f ∈ opened, ∃ g, t.Owns g ∧ f = g.openFile layout a)
    (hproject : layout.computer.project record = .ok projected)
    (h : Placed layout.encoder spec projected a₀ opened a' opened' result)
    (hsame : t'.first = t.first ∧ t'.last = a') (hrecords : t.records.Sublist t'.records)
    (htook : result = .ok () → t'.records = t.records ++ [record]) :
    t.Extends t' ∧ a'.slot = a.slot ∧ ∀ f ∈ opened', ∃ g, t'.Owns g ∧ f = g.openFile layout a := by
  have hbump : ∀ bucket, a₀.count bucket ≤ (a₀.bump spec.bucket).count bucket :=
    fun bucket ↦ (a₀.count_bump_bounds spec.bucket bucket).1
  have hextends : (∀ bucket, a₀.count bucket ≤ a'.count bucket) → t.Extends t' := fun hle ↦
    ⟨hsame.1, by rw [hlast, hsame.2]; exact hle, hrecords⟩
  have hold : t.Extends t' → ∀ f ∈ opened, ∃ g, t'.Owns g ∧ f = g.openFile layout a := by
    rintro ht f hf
    obtain ⟨g, hg, rfl⟩ := hopened f hf
    exact ⟨g, hg.mono ht, rfl⟩
  cases h with
  | @added f opened' hf hok h =>
    have ht := hextends fun _ ↦ Nat.le_refl _
    refine ⟨ht, hslot, fun g hg ↦ ?_⟩
    rcases h g hg with hg | rfl
    · exact hold ht g hg
    · obtain ⟨f, howns, rfl⟩ := hopened f hf
      rw [f.append_openFile layout a hproject hok]
      refine ⟨f.add record, ⟨(howns.mono ht).has, ?_⟩, rfl⟩
      rw [htook rfl]
      exact howns.records.append_right _
  | @started opened' hok h =>
    have ht := hextends hbump
    refine ⟨ht, hslot, fun g hg ↦ ?_⟩
    rcases h g hg with hg | rfl
    · exact hold ht g hg
    · rw [hslot, Filed.append_new layout a spec _ hproject hok]
      refine ⟨_, ⟨⟨?_, ?_⟩, ?_⟩, rfl⟩
      · rw [hsame.1]
        exact hfirst _
      · rw [hsame.2, Allocator.count_bump]
        exact (Nat.lt_succ_self _).trans_eq (if_pos rfl).symm
      · rw [htook rfl]
        exact List.sublist_append_right _ _
  | spoiled h =>
    have ht := hextends fun _ ↦ Nat.le_refl _
    exact ⟨ht, hslot, fun g hg ↦ hold ht g (h hg)⟩
  | wasted h =>
    have ht := hextends hbump
    exact ⟨ht, hslot, fun g hg ↦ hold ht g (h hg)⟩

/-- Writing a record with the writer of a batch. -/
theorem write {w w' : Writer} {record : Json} {result : Except WriteError Unit}
    (h : t.InHand layout a s w) (hw : (w.write layout record).Ends Fickle s (w', result) s')
    (hsame : t'.first = t.first ∧ t'.last = w'.allocator)
    (hrecords : t.records.Sublist t'.records)
    (htook : result = .ok () → t'.records = t.records ++ [record]) :
    t.Extends t' ∧ t.Stages layout a s s' ∧ t'.InHand layout a s' w' := by
  cases Writer.hands_write hw with
  | rejected _ hwriter hs =>
    subst hwriter hs
    have ht : t.Extends t' := ⟨hsame.1, by simp [hsame.2, h.last], hrecords⟩
    refine ⟨ht, .refl, h.slot, hsame.2, by simpa [hsame.1] using h.first_le, fun f hf ↦ ?_,
      fun c hc ↦ (h.closed c hc).mono ht⟩
    obtain ⟨g, hg, rfl⟩ := h.opened f hf
    exact ⟨g, hg.mono ht, rfl⟩
  | blocked _ _ _ hclosing hopened hclosed hallocator =>
    obtain ⟨hstages, hcovers⟩ := hclosing.stages h.opened
    have ht : t.Extends t' := ⟨hsame.1, by simp [hsame.2, h.last, hallocator], hrecords⟩
    refine ⟨ht, hstages, hallocator ▸ h.slot, hsame.2, ?_, by simp [hopened], fun c hc ↦ ?_⟩
    · rw [hsame.1, hallocator]
      exact h.first_le
    · rw [hclosed] at hc
      rcases List.mem_append.mp hc with hc | hc
      · exact (hstages.covers_self (h.closed c hc)).mono ht
      · exact (hcovers c hc).mono ht
  | turned hplace hclosing hplaced hclosed =>
    obtain ⟨hstages, hcovers⟩ := hclosing.stages h.opened
    obtain ⟨ht, hslot, hopened⟩ := placed h.slot h.last h.first_le (by simp)
      (Layout.project_of_place hplace) hplaced hsame hrecords htook
    refine ⟨ht, hstages, hslot, hsame.2, fun bucket ↦ ?_, hopened, fun c hc ↦ ?_⟩
    · rw [hsame.1, ← hsame.2]
      exact (h.first_le bucket).trans (h.last ▸ ht.last bucket)
    · rw [hclosed] at hc
      rcases List.mem_append.mp hc with hc | hc
      · exact (hstages.covers_self (h.closed c hc)).mono ht
      · exact (hcovers c hc).mono ht
  | put hplace _ hplaced hclosed hs =>
    subst hs
    obtain ⟨ht, hslot, hopened⟩ := placed h.slot h.last h.first_le h.opened
      (Layout.project_of_place hplace) hplaced hsame hrecords htook
    refine ⟨ht, .refl, hslot, hsame.2, fun bucket ↦ ?_, hopened, fun c hc ↦ ?_⟩
    · rw [hsame.1, ← hsame.2]
      exact (h.first_le bucket).trans (h.last ▸ ht.last bucket)
    · rw [hclosed] at hc
      exact (h.closed c hc).mono ht

end Batch.InHand

end TableSink
