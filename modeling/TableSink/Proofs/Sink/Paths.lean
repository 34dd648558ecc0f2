import TableSink.Proofs.Commit.Overlap
import TableSink.Proofs.Sink.Start

/-!
# What a sink touches

A sink asks a store for nothing but the two places of files that its allocator hands out. It may
hold such files open, and committables of such files (`Sink.Holds`), and every call keeps it so,
whatever the store replies (`Sink.Holds.call`).
-/

namespace TableSink

variable {a : Allocator} {kept kept' : Prop} {s s' : Sink} {w w' : Writer}

/-- The places of all files that an allocator may ever hand out. -/
def Allocator.Places (a : Allocator) (p : ObjectPath) : Prop :=
  ∃ spec i, p = (a.slot spec i).staging ∨ p = (a.slot spec i).target

/-- The file has places of the allocator. -/
def OpenFile.In (a : Allocator) (f : OpenFile) : Prop := ∃ spec i, f.slot = a.slot spec i

/-- The file has one of the places that were handed out. -/
def OpenFile.Issued (a : Allocator) (f : OpenFile) : Prop :=
  ∃ spec, ∃ i < a.count spec.bucket, f.slot = a.slot spec i

/-- The committable names places of the allocator only. -/
def Committable.In (a : Allocator) (c : Committable) : Prop := ∀ p ∈ c.places, a.Places p

namespace Committable

theorem In.within_finish {c : Committable} (h : c.In a) : c.finish.Within a.Places :=
  c.within_finish.mono h

/-- Handing a committable back does not change what it names. -/
theorem In.again {c : Committable} (h : c.In a) : c.again.In a := h

/-- The token that only lets a file be removed names no other places. -/
theorem In.intoDiscard {c : Committable} (h : c.In a) : c.intoDiscard.In a := by
  intro p hp
  obtain ⟨path, hpath, hread⟩ := List.mem_filterMap.mp hp
  refine h p (List.mem_filterMap.mpr ⟨path, ?_, hread⟩)
  cases htoken : c.token with
  | pending t =>
    have hpath : path ∈ (Token.inProgress c.token.discard).paths := hpath
    rw [htoken] at hpath
    exact List.mem_cons.mpr (.inl (List.mem_singleton.mp hpath))
  | inProgress t =>
    have hpath : path ∈ (Token.inProgress c.token.discard).paths := hpath
    rwa [htoken] at hpath

/-- Finishing committables touches what they name, and what is handed back names the same. -/
theorem In.finishEach {cs : List Committable} (hcs : ∀ c ∈ cs, c.In a)
    {results : List (Except FailedCommit Finish)}
    (h : (cs.mapM finish).Ends (Task.Watches a.Places) kept results kept') :
    (kept → kept') ∧ ∀ again, (CommitReport.ofResults results).intoRetries = .ok again →
      ∀ c ∈ again, c.In a := by
  have hwithin : (cs.mapM finish).Within a.Places :=
    Task.Within.mapM fun c hc ↦ (hcs c hc).within_finish
  refine ⟨fun hkept ↦ hwithin.keeps h hkept, fun again hagain c hc ↦ ?_⟩
  obtain ⟨c₀, hc₀, -, rfl⟩ := CommitReport.exists_of_mem_intoRetries h hagain hc
  exact (hcs c₀ hc₀).again

end Committable

namespace OpenFile

/-- What was handed out is a place of any allocator with the same places. -/
theorem Issued.inAt {b : Allocator} {f : OpenFile} (h : f.Issued b) (hb : b.slot = a.slot) :
    f.In a := by
  obtain ⟨spec, i, -, hslot⟩ := h
  exact ⟨spec, i, by rw [hslot, hb]⟩

/-- The token of a closed file leads to the two places of the file at most. -/
theorem eq_place_of_mem {f : OpenFile} {spec : PartitionSpec} {i : Nat} {kind : CloseKind}
    {c : Committable} {p : ObjectPath} (ha : a.InPlace) (hslot : f.slot = a.slot spec i)
    (hc : c.token = f.token kind) (hp : p ∈ c.places) :
    p = (a.slot spec i).staging ∨ p = (a.slot spec i).target := by
  obtain ⟨path, hpath, hread⟩ := List.mem_filterMap.mp hp
  have hstaging := (ha.written_staging spec i).readPath_text
  have htarget := (a.written_target spec i).readPath_text
  rw [hc] at hpath
  cases kind with
  | commit =>
    simp only [token, hslot, Token.paths, List.mem_cons, List.not_mem_nil, or_false] at hpath
    rcases hpath with rfl | rfl
    · rw [hstaging] at hread
      exact .inl (Option.some.inj hread).symm
    · rw [htarget] at hread
      exact .inr (Option.some.inj hread).symm
  | recovery =>
    simp only [token, hslot, Token.paths, List.mem_singleton] at hpath
    rw [hpath, hstaging] at hread
    exact .inl (Option.some.inj hread).symm

theorem In.committable {f : OpenFile} (ha : a.InPlace) (h : f.In a) (kind : CloseKind) :
    Committable.In a { bucket := f.slot.bucket, token := f.token kind } := by
  obtain ⟨spec, i, hslot⟩ := h
  intro p hp
  exact ⟨spec, i, eq_place_of_mem ha hslot rfl hp⟩

theorem In.within_close {f : OpenFile} (h : f.In a) (kind : CloseKind) :
    (f.close kind).Within a.Places := by
  obtain ⟨spec, i, hslot⟩ := h
  refine Task.Within.ask_bind ⟨spec, i, .inl (by rw [hslot])⟩ fun answer ↦ ?_
  cases answer with
  | ok _ => exact Task.Within.report_bind Task.within_done
  | error e => exact Task.within_done

/-- The committable of a closed file, whatever a store is like. -/
theorem committable_of_close {σ : Type} {replies : Replying σ} {st st' : σ} {f : OpenFile}
    {kind : CloseKind} {c : Committable} (h : (f.close kind).Ends replies st (.ok c) st') :
    c = { bucket := f.slot.bucket, token := f.token kind } := by
  obtain ⟨reply, st₁, -, h⟩ := Task.ends_ask_bind.mp h
  cases reply with
  | ok _ => exact Except.ok.inj (Task.ends_report_done.mp h).1
  | error fault => cases (Task.ends_done.mp h).1

end OpenFile

/-- Closing files touches their staging places only. -/
theorem Closing.kept_in (ha : a.InPlace) {kind : CloseKind} {fs : List OpenFile}
    {cs : List Committable} {error : Option WriteError}
    (h : Closing (Task.Watches a.Places) kind fs kept cs error kept') (hfs : ∀ f ∈ fs, f.In a) :
    (kept → kept') ∧ ∀ c ∈ cs, c.In a := by
  induction h with
  | nil => exact ⟨id, by simp⟩
  | done hclose _ ih =>
    obtain ⟨hf, hfs⟩ := List.forall_mem_cons.mp hfs
    obtain ⟨hkept, hcs⟩ := ih hfs
    rw [OpenFile.committable_of_close hclose]
    exact ⟨hkept ∘ (hf.within_close kind).keeps hclose,
      List.forall_mem_cons.mpr ⟨hf.committable ha kind, hcs⟩⟩
  | lost hclose _ ih =>
    obtain ⟨hf, hfs⟩ := List.forall_mem_cons.mp hfs
    obtain ⟨hkept, hcs⟩ := ih hfs
    exact ⟨hkept ∘ (hf.within_close kind).keeps hclose, hcs⟩

section Placed

variable {encoder : Encoder Json Json.Fault} {spec : PartitionSpec} {projected : Json}
variable {b b' : Allocator} {opened opened' : List OpenFile} {written : Except WriteError Unit}

/-- Places are handed out at most. -/
theorem Placed.allocator_eq (h : Placed encoder spec projected b opened b' opened' written) :
    b'.slot = b.slot ∧ ∀ bucket, b.count bucket ≤ b'.count bucket := by
  have hbump : ∀ bucket, b.count bucket ≤ (b.bump spec.bucket).count bucket :=
    fun bucket ↦ (b.count_bump_bounds spec.bucket bucket).1
  cases h with
  | added _ _ _ => exact ⟨rfl, fun _ ↦ Nat.le_refl _⟩
  | started _ _ => exact ⟨rfl, hbump⟩
  | spoiled _ => exact ⟨rfl, fun _ ↦ Nat.le_refl _⟩
  | wasted _ => exact ⟨rfl, hbump⟩

/-- A record is put into a file with a place that was handed out. -/
theorem Placed.issued (h : Placed encoder spec projected b opened b' opened' written)
    (hopened : ∀ f ∈ opened, f.Issued b) : ∀ f ∈ opened', f.Issued b' := by
  intro g hg
  obtain ⟨hslot, hcount⟩ := h.allocator_eq
  rcases h.slot_of_mem hg with ⟨f, hf, hgf⟩ | ⟨hg, rfl⟩
  · obtain ⟨spec', i, hi, hf⟩ := hopened f hf
    exact ⟨spec', i, Nat.lt_of_lt_of_le hi (hcount _), by rw [hgf, hf, hslot]⟩
  · exact ⟨spec, _, by simp [Allocator.count_bump], hg⟩

end Placed

/-- What a writer has in hand has places of the allocator, and the writer hands out such places. -/
structure Writer.Holds (a : Allocator) (w : Writer) : Prop where
  slot : w.allocator.slot = a.slot
  opened : ∀ f ∈ w.opened, f.Issued w.allocator
  closed : ∀ c ∈ w.closed, c.In a

namespace Writer

theorem Holds.openedIn (h : w.Holds a) : ∀ f ∈ w.opened, f.In a :=
  fun f hf ↦ (h.opened f hf).inAt h.slot

theorem Holds.drain (h : w.Holds a) : w.drain.Holds a where
  slot := by rw [allocator_drain, h.slot]
  opened := by rw [opened_drain, allocator_drain]; exact h.opened
  closed := by simp

theorem Holds.close (ha : a.InPlace) (h : w.Holds a) {kind : CloseKind}
    {result : Except WriteError Unit}
    (hclose : (w.close kind).Ends (Task.Watches a.Places) kept (w', result) kept') :
    w'.Holds a ∧ (kept → kept') := by
  obtain ⟨cs, error, hclosing, -, hopened, hclosed, hallocator, -⟩ := hands_close hclose
  obtain ⟨hkept, hcs⟩ := hclosing.kept_in ha h.openedIn
  refine ⟨⟨by rw [hallocator, h.slot], by simp [hopened], ?_⟩, hkept⟩
  rw [hclosed]
  exact List.forall_mem_append.mpr ⟨h.closed, hcs⟩

theorem Holds.write (ha : a.InPlace) (h : w.Holds a) {layout : Layout Json} {record : Json}
    {result : Except WriteError Unit}
    (hwrite : (w.write layout record).Ends (Task.Watches a.Places) kept (w', result) kept') :
    w'.Holds a ∧ (kept → kept') := by
  cases hands_write hwrite with
  | rejected _ hw hs =>
    subst hw hs
    exact ⟨h, id⟩
  | blocked _ _ _ hclosing hopened hclosed hallocator =>
    obtain ⟨hkept, hcs⟩ := hclosing.kept_in ha h.openedIn
    refine ⟨⟨by rw [hallocator, h.slot], by simp [hopened], ?_⟩, hkept⟩
    rw [hclosed]
    exact List.forall_mem_append.mpr ⟨h.closed, hcs⟩
  | turned _ hclosing hplaced hclosed =>
    obtain ⟨hkept, hcs⟩ := hclosing.kept_in ha h.openedIn
    refine ⟨⟨hplaced.allocator_eq.1.trans h.slot, hplaced.issued (by simp), ?_⟩, hkept⟩
    rw [hclosed]
    exact List.forall_mem_append.mpr ⟨h.closed, hcs⟩
  | put _ _ hplaced hclosed hs =>
    subst hs
    exact ⟨⟨hplaced.allocator_eq.1.trans h.slot, hplaced.issued h.opened, hclosed ▸ h.closed⟩, id⟩

/-- What holds before the eyes of one store holds on every other one. -/
theorem Holds.of_write {σ : Type} {replies : Replying σ} {st st' : σ} (ha : a.InPlace)
    (h : w.Holds a) {layout : Layout Json} {record : Json} {result : Except WriteError Unit}
    (hwrite : (w.write layout record).Ends replies st (w', result) st') : w'.Holds a := by
  obtain ⟨kept', hwatched⟩ := hwrite.watched a.Places True
  exact (h.write ha hwatched).1

end Writer

/-- What a sink has in hand has places of the allocator. -/
structure Sink.Holds (a : Allocator) (s : Sink) : Prop where
  writer : s.writer.Holds a
  retries : ∀ c ∈ s.retries, c.In a

namespace Sink

/-- The sink of a configuration hands out the places of the run. -/
theorem allocator_new (config : Config) (run : String) :
    (new config run).writer.allocator = config.allocator run := by
  cases hs : config.strategy <;>
    simp [new, Writer.new, hs, Writer.allocator, Config.allocator]

theorem opened_new (config : Config) (run : String) : (new config run).writer.opened = [] := by
  cases hs : config.strategy <;> simp [new, Writer.new, hs, Writer.opened]

theorem closed_new (config : Config) (run : String) : (new config run).writer.closed = [] := by
  cases hs : config.strategy <;> simp [new, Writer.new, hs, Writer.closed]

theorem holds_new (config : Config) (run : String) :
    (new config run).Holds (config.allocator run) where
  writer := {
    slot := by rw [allocator_new]
    opened := by simp [opened_new]
    closed := by simp [closed_new] }
  retries := by simp [new]

theorem Holds.discardBatch (h : s.Holds a)
    (hdiscard : s.discardBatch.Ends (Task.Watches a.Places) kept s' kept') :
    s'.Holds a ∧ (kept → kept') := by
  obtain ⟨results, hresults, rfl⟩ := phases_discardBatch hdiscard
  have hdiscards : ∀ c ∈ s.writer.closed.map Committable.intoDiscard, c.In a := by
    intro c hc
    obtain ⟨c₀, hc₀, rfl⟩ := List.mem_map.mp hc
    exact (h.writer.closed c₀ hc₀).intoDiscard
  exact ⟨⟨h.writer.drain, h.retries⟩, (Committable.In.finishEach hdiscards hresults).1⟩

/-- What is left of a sink, if anything is, holds places of the allocator. -/
def Ending.Holds (a : Allocator) (ending : Ending) : Prop :=
  ∀ outcome, ending = .ok outcome → outcome.1.Holds a

variable {ending : Ending}

theorem Holds.checkpoint (ha : a.InPlace) (h : s.Holds a)
    (hcheckpoint : s.checkpoint.Ends (Task.Watches a.Places) kept ending kept') :
    ending.Holds a ∧ (kept → kept') := by
  obtain ⟨w, closed, kept₁, hclose, hphases⟩ := phases_checkpoint_ending hcheckpoint
  obtain ⟨hw, hkept₁⟩ := h.writer.close ha hclose
  rcases hphases with ⟨e, s₁, -, rfl, hdiscard⟩ | ⟨-, results, hresults, rfl⟩
  · obtain ⟨hs₁, hkept⟩ :=
      Holds.discardBatch (s := { s with inBatch := 0, writer := w }) ⟨hw, h.retries⟩ hdiscard
    refine ⟨fun outcome houtcome ↦ ?_, hkept ∘ hkept₁⟩
    obtain rfl := Except.ok.inj houtcome
    exact hs₁
  · obtain ⟨hkept, hretries⟩ := Committable.In.finishEach
      (List.forall_mem_append.mpr ⟨h.retries, hw.closed⟩) hresults
    refine ⟨fun outcome houtcome ↦ ?_, hkept ∘ hkept₁⟩
    obtain ⟨again, hagain, rfl⟩ := Except.map_eq_ok.mp houtcome
    exact ⟨hw.drain, hretries again hagain⟩

theorem Holds.abort (ha : a.InPlace) (h : s.Holds a)
    (habort : s.abort.Ends (Task.Watches a.Places) kept ending kept') :
    ending.Holds a ∧ (kept → kept') := by
  obtain ⟨w, closed, kept₁, s₁, kept₂, hclose, hdiscard, hphases⟩ := phases_abort_ending habort
  obtain ⟨hw, hkept₁⟩ := h.writer.close ha hclose
  obtain ⟨hs₁, hkept₂⟩ :=
    Holds.discardBatch (s := { s with inBatch := 0, writer := w }) ⟨hw, h.retries⟩ hdiscard
  rcases hphases with ⟨e, -, rfl, rfl⟩ | ⟨-, results, hresults, rfl⟩
  · refine ⟨fun outcome houtcome ↦ ?_, hkept₂ ∘ hkept₁⟩
    obtain rfl := Except.ok.inj houtcome
    exact hs₁
  · obtain ⟨hkept, hretries⟩ := Committable.In.finishEach h.retries hresults
    refine ⟨fun outcome houtcome ↦ ?_, hkept ∘ hkept₂ ∘ hkept₁⟩
    obtain ⟨again, hagain, rfl⟩ := Except.map_eq_ok.mp houtcome
    exact ⟨hs₁.writer, hretries again hagain⟩

theorem Holds.write (ha : a.InPlace) (h : s.Holds a) {record : Json}
    (hwrite : (s.write record).Ends (Task.Watches a.Places) kept ending kept') :
    ending.Holds a ∧ (kept → kept') := by
  obtain ⟨w, written, kept₁, hwritten, hphases⟩ := phases_write_ending hwrite
  obtain ⟨hw, hkept₁⟩ := h.writer.write ha hwritten
  have hholds : ∀ (inBatch : Nat) (stats : SinkStats),
      { s with writer := w, inBatch, stats : Sink }.Holds a := fun _ _ ↦ ⟨hw, h.retries⟩
  rcases hphases with ⟨e, -, rfl, rfl⟩ | ⟨-, ⟨-, hcheckpoint⟩ | ⟨-, rfl, rfl⟩⟩
  · refine ⟨fun outcome houtcome ↦ ?_, hkept₁⟩
    obtain rfl := Except.ok.inj houtcome
    exact hholds _ _
  · obtain ⟨hending, hkept⟩ := (hholds _ _).checkpoint ha hcheckpoint
    exact ⟨hending, hkept ∘ hkept₁⟩
  · refine ⟨fun outcome houtcome ↦ ?_, hkept₁⟩
    obtain rfl := Except.ok.inj houtcome
    exact hholds _ _

/-- A call touches places of the allocator only, and leaves nothing else in hand. -/
theorem Holds.call (ha : a.InPlace) (h : s.Holds a) {c : Call}
    (hcall : (s.call c).Ends (Task.Watches a.Places) kept ending kept') :
    ending.Holds a ∧ (kept → kept') := by
  cases c with
  | write record => exact h.write ha hcall
  | checkpoint => exact h.checkpoint ha hcall
  | abort => exact h.abort ha hcall

theorem Holds.within_call (ha : a.InPlace) (h : s.Holds a) (c : Call) :
    (s.call c).Within a.Places :=
  Task.within_of_keeps fun _ _ hcall ↦ (h.call ha hcall).2 trivial

theorem Holds.of_ends {σ : Type} {replies : Replying σ} {st st' : σ} (ha : a.InPlace)
    (h : s.Holds a) {c : Call} (hcall : (s.call c).Ends replies st ending st') :
    ending.Holds a := by
  obtain ⟨kept', hwatched⟩ := hcall.watched a.Places True
  exact (h.call ha hwatched).1

end Sink

end TableSink
