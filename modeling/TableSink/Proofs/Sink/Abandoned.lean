import TableSink.Proofs.Sink.Apart

/-!
# A batch that was given up never shows

`Sink.Apart` says that all that a sink has in hand is of the batch it is said to be of, and that
outside of the directory of its attempt only files of closed batches make a difference. Every call
keeps it, on a store of which nothing but success can be relied on (`Sink.Course.apart`).
-/

namespace TableSink

open MemoryStore (Fickle)

variable {layout : Layout Json} {a : Allocator} {init store store₁ store' : MemoryStore}
variable {s s₁ s' : Sink} {j j' : Journal} {result : Except SinkError Unit}

/-- What a sink has in hand is of its batches, and they are kept apart. -/
structure Sink.Apart (layout : Layout Json) (a : Allocator) (init store : MemoryStore) (j : Journal)
    (s : Sink) : Prop where
  same_layout : s.layout = layout
  inHand : j.current.InHand layout a store s.writer
  retries : ∀ c ∈ s.retries, ∃ t ∈ j.closed, t.Covers layout a .commit store c
  before : ∀ t ∈ j.closed ++ j.abandoned, ∀ bucket,
    t.last.count bucket ≤ j.current.first.count bucket
  disjoint : ∀ t ∈ j.closed, ∀ t' ∈ j.abandoned, ∀ spec i, t.Has spec i → ¬ t'.Has spec i
  shown : ∀ p : ObjectPath, p.isBelow a.taskDir = false → store.get? p = init.get? p ∨
    ∃ t ∈ j.closed, ∃ f, t.Owns f ∧ p = (f.slot a).target ∧ store.get? p = some (f.bytes layout)

/-- Staging places of batches before the open one are emptied at most. -/
def Journal.Spares (j : Journal) (a : Allocator) (store store' : MemoryStore) : Prop :=
  ∀ spec i, i < j.current.first.count spec.bucket →
    store'.get? (a.slot spec i).staging = store.get? (a.slot spec i).staging ∨
      store'.get? (a.slot spec i).staging = none

namespace Journal

theorem spares_of_stages {t : Batch} (hfirst : t.first = j.current.first)
    (h : t.Stages layout a store store') : j.Spares a store store' := by
  intro spec i hi
  refine .inl (h.staging_eq fun hhas ↦ Nat.not_lt.mpr hhas.1 ?_)
  rwa [hfirst]

theorem spares_of_moves (ha : a.InPlace) {closed : List Batch}
    (h : Moves closed layout a store store') : j.Spares a store store' :=
  fun spec i _ ↦ h.staging ha spec i

theorem Spares.trans (h : j.Spares a store store₁) (h' : j.Spares a store₁ store') :
    j.Spares a store store' := by
  intro spec i hi
  rcases h' spec i hi with hsame | hempty
  · rw [hsame]
    exact h spec i hi
  · exact .inr hempty

end Journal

namespace Sink

/-- Committables that are kept are still of their batches when files of the open batch are staged.
-/
theorem Apart.covers_of_stages (h : s.Apart layout a init store j)
    (hstages : j.current.Stages layout a store store₁) {c : Committable} (hc : c ∈ s.retries) :
    ∃ t ∈ j.closed, t.Covers layout a .commit store₁ c := by
  obtain ⟨t, ht, hcovers⟩ := h.retries c hc
  exact ⟨t, ht, hstages.covers (h.before t (List.mem_append_left _ ht)) hcovers⟩

/-- The end of a batch, at which files were staged and then moved. -/
theorem Apart.turn (ha : a.InPlace) (h : s.Apart layout a init store j) (hturns : j.Turns j')
    (hbounded : s.Bounded s') (hstages : j.current.Stages layout a store store₁)
    (hmoves : Moves j'.closed layout a store₁ store')
    (hretries : ∀ c ∈ s'.retries, ∃ t ∈ j'.closed, t.Covers layout a .commit store' c) :
    s'.Apart layout a init store' j' ∧ j.Spares a store store' := by
  refine ⟨⟨hbounded.layout.trans h.same_layout, ?_, hretries, ?_, ?_, fun p hp ↦ ?_⟩,
    (Journal.spares_of_stages rfl hstages).trans (Journal.spares_of_moves ha hmoves)⟩
  · have hlast := h.inHand.last
    refine ⟨hbounded.allocator ▸ h.inHand.slot, ?_, fun bucket ↦ ?_, ?_, ?_⟩
    · rw [hturns.current, hbounded.allocator, ← hlast]
      rfl
    · rw [hturns.current, hbounded.allocator, ← hlast]
      exact Nat.le_refl _
    · simp [hbounded.opened]
    · simp [hbounded.closed]
  · have hmem : ∀ t ∈ j'.closed ++ j'.abandoned, t ∈ j.closed ++ j.abandoned ∨ t = j.current := by
      rcases hturns.batches with ⟨hclosed, habandoned⟩ | ⟨hclosed, habandoned⟩ <;>
        · rw [hclosed, habandoned]
          intro t ht
          simp only [List.mem_append, List.mem_singleton] at ht ⊢
          tauto
    have hfirst : ∀ bucket, j.current.first.count bucket ≤ j.current.last.count bucket :=
      fun bucket ↦ h.inHand.last ▸ h.inHand.first_le bucket
    intro t ht bucket
    rw [hturns.current]
    rcases hmem t ht with ht | rfl
    · exact (h.before t ht bucket).trans (hfirst bucket)
    · exact Nat.le_refl _
  · intro t ht t' ht' spec i hi hi'
    rcases hturns.batches with ⟨hclosed, habandoned⟩ | ⟨hclosed, habandoned⟩
    · rw [hclosed, List.mem_append, List.mem_singleton] at ht
      rw [habandoned] at ht'
      rcases ht with ht | rfl
      · exact h.disjoint t ht t' ht' spec i hi hi'
      · exact Batch.disjoint_of_le (h.before t' (List.mem_append_right _ ht')) hi' hi
    · rw [hclosed] at ht
      rw [habandoned, List.mem_append, List.mem_singleton] at ht'
      rcases ht' with ht' | rfl
      · exact h.disjoint t ht t' ht' spec i hi hi'
      · exact Batch.disjoint_of_le (h.before t (List.mem_append_left _ ht)) hi hi'
  · rcases hmoves p with hsame | ⟨⟨spec, i, rfl⟩, -⟩ | hmoved
    · rw [hsame, hstages.get?_eq hp]
      rcases h.shown p hp with hinit | ⟨t, ht, hf⟩
      · exact .inl hinit
      · exact .inr ⟨t, hturns.closed_subset ht, hf⟩
    · rw [a.staging_isBelow] at hp
      cases hp
    · exact .inr hmoved

/-- Giving up what the writer of the open batch has closed. -/
theorem moves_of_discardBatch (ha : a.InPlace) {t : Batch}
    (hclosed : ∀ c ∈ s.writer.closed, ∃ kind, t.Covers layout a kind store c)
    (h : s.discardBatch.Ends Fickle store s' store') :
    Moves [] layout a store store' ∧ s'.retries = s.retries := by
  obtain ⟨results, hresults, rfl⟩ := phases_discardBatch h
  exact ⟨moves_of_discardEach ha hclosed hresults, rfl⟩

/-- What closing and giving up what was closed do to the store, and that what is kept is still of
its batches then. -/
theorem Apart.discard (ha : a.InPlace) (h : s.Apart layout a init store j) {kind : CloseKind}
    {w : Writer} {closed : Except WriteError Unit} {store₂ : MemoryStore}
    (hclose : (s.writer.close kind).Ends Fickle store (w, closed) store₁)
    (hdiscard : ({ s with inBatch := 0, writer := w } : Sink).discardBatch.Ends Fickle store₁ s₁
      store₂) :
    j.current.Stages layout a store store₁ ∧ Moves [] layout a store₁ store₂ ∧
      s₁.retries = s.retries ∧
      ∀ c ∈ s.retries, ∃ t ∈ j.closed, t.Covers layout a .commit store₂ c := by
  obtain ⟨hstages, -, -, cs, hclosed, hold, hnew⟩ := h.inHand.close hclose
  have hcovers : ∀ c ∈ w.closed, ∃ kind, j.current.Covers layout a kind store₁ c := by
    intro c hc
    rw [hclosed] at hc
    rcases List.mem_append.mp hc with hc | hc
    · exact ⟨.commit, hold c hc⟩
    · exact ⟨kind, hnew c hc⟩
  obtain ⟨hmoves, hsame⟩ := moves_of_discardBatch ha hcovers hdiscard
  refine ⟨hstages, hmoves, hsame, fun c hc ↦ ?_⟩
  obtain ⟨t, ht, hcovers⟩ := h.covers_of_stages hstages hc
  exact ⟨t, ht, hmoves.covers ha hcovers⟩

/-- A checkpoint closes the open batch, or gives it up. -/
theorem Apart.checkpoint (ha : a.InPlace) (h : s.Apart layout a init store j)
    (kept : List Committable)
    (hc : s.checkpoint.Ends Fickle store (.ok (s', result)) store') :
    s'.Apart layout a init store' (j.boundary kept result) ∧
      j.Spares a store store' := by
  have hbounded := bounded_checkpoint hc
  obtain ⟨w, closed, store₁, hclose, hphases⟩ := phases_checkpoint hc
  obtain ⟨hstages, -, -, cs, hclosed, hold, hnew⟩ := h.inHand.close hclose
  rcases hphases with ⟨e, -, rfl, hdiscard⟩ | ⟨-, results, again, hresults, hagain, hresult, rfl⟩
  · obtain ⟨-, hmoves, hsame, hkept⟩ := h.discard ha hclose hdiscard
    exact h.turn ha Journal.turns_abandon hbounded hstages (hmoves.mono (List.nil_subset _))
      (hsame ▸ hkept)
  · have hbatch : ∀ c ∈ s.retries ++ w.closed, ∃ t ∈ j.closed ++ [j.current],
        t.Covers layout a .commit store₁ c := by
      intro c hc
      rcases List.mem_append.mp hc with hc | hc
      · obtain ⟨t, ht, hcovers⟩ := h.covers_of_stages hstages hc
        exact ⟨t, List.mem_append_left _ ht, hcovers⟩
      · rw [hclosed] at hc
        exact ⟨j.current, List.mem_append_right _ (List.mem_singleton_self _),
          (List.mem_append.mp hc).elim (hold c) (hnew c)⟩
    obtain ⟨hmoves, hretries⟩ := moves_of_finishEach ha hbatch hresults
    have hclosed : (j.boundary kept result).closed = j.closed ++ [j.current] := by
      split at hresult
      · rw [hresult]
        rfl
      · rw [hresult]
        rfl
    rw [← hclosed] at hmoves hretries
    exact h.turn ha (Journal.turns_boundary _ _).1 hbounded hstages hmoves (hretries again hagain)

/-- An abort gives the open batch up, and moves files of closed batches only. -/
theorem Apart.abort (ha : a.InPlace) (h : s.Apart layout a init store j)
    (hc : s.abort.Ends Fickle store (.ok (s', result)) store') :
    s'.Apart layout a init store' j.abandon ∧ j.Spares a store store' := by
  have hbounded := bounded_abort hc
  obtain ⟨w, closed, store₁, s₁, store₂, hclose, hdiscard, hphases⟩ := phases_abort hc
  obtain ⟨hstages, hmoves, hsame, hkept⟩ := h.discard ha hclose hdiscard
  have hmoves' : Moves j.abandon.closed layout a store₁ store₂ := hmoves.mono (List.nil_subset _)
  rcases hphases with ⟨e, -, -, rfl, rfl⟩ | ⟨-, -, results, again, hresults, hagain, rfl⟩
  · exact h.turn ha Journal.turns_abandon hbounded hstages hmoves' (hsame ▸ hkept)
  · obtain ⟨hlater, hretries⟩ := moves_of_finishEach ha hkept hresults
    exact h.turn ha Journal.turns_abandon hbounded hstages (hmoves'.trans hlater)
      (hretries again hagain)

/-- A record is taken into the open batch, or it is not. -/
theorem Apart.put (h : s.Apart layout a init store j) (s' : Sink) (j' : Journal) {w : Writer}
    {record : Json} {written : Except WriteError Unit} (hlayout : s'.layout = s.layout)
    (hwriter : s'.writer = w) (hretries : s'.retries = s.retries)
    (hw : (s.writer.write layout record).Ends Fickle store (w, written) store')
    (hfirst : j'.current.first = j.current.first) (hlast : j'.current.last = w.allocator)
    (hclosed : j'.closed = j.closed) (habandoned : j'.abandoned = j.abandoned)
    (hrecords : j.current.records.Sublist j'.current.records)
    (htook : written = .ok () → j'.current.records = j.current.records ++ [record]) :
    s'.Apart layout a init store' j' ∧ j.current.Stages layout a store store' := by
  obtain ⟨-, hstages, hinHand⟩ := h.inHand.write hw ⟨hfirst, hlast⟩ hrecords htook
  refine ⟨⟨hlayout.trans h.same_layout, hwriter ▸ hinHand, ?_, ?_, ?_, ?_⟩, hstages⟩
  · intro c hc
    rw [hretries] at hc
    rw [hclosed]
    exact h.covers_of_stages hstages hc
  · rw [hclosed, habandoned, hfirst]
    exact h.before
  · rw [hclosed, habandoned]
    exact h.disjoint
  · intro p hp
    rw [hclosed, hstages.get?_eq hp]
    exact h.shown p hp

variable {config : Config} {run : String}

/-- Whatever a call does, batches are kept apart. -/
theorem Apart.call (ha : a.InPlace) (h : s.Apart layout a init store j)
    (htold : s.Told config run j) (c : Call)
    (hc : (s.call c).Ends Fickle store (.ok (s', result)) store') :
    s'.Apart layout a init store' (j.after config s s' result c) ∧
      j.Spares a store store' := by
  cases c with
  | checkpoint =>
    rw [htold.journal_checkpoint hc]
    exact h.checkpoint ha s.retries hc
  | abort =>
    rw [htold.journal_abort hc]
    exact h.abort ha hc
  | write record =>
    obtain ⟨w, written, store₁, hw, hjournal⟩ := htold.journal_write hc
    rw [h.same_layout] at hw
    rcases hjournal with ⟨e, rfl, -, rfl, rfl, hafter⟩ | ⟨rfl, s₁, j₁, rfl, rfl, hend⟩
    · rw [hafter]
      obtain ⟨books, hmiss⟩ := j.miss_eq result
      rw [hmiss]
      obtain ⟨happart, hstages⟩ := h.put { s with writer := w }
        (Journal.upTo { j with current := { j.current with books } } w.allocator) rfl rfl rfl hw
        rfl rfl rfl rfl (.refl _) (fun hok ↦ by cases hok)
      exact ⟨happart, Journal.spares_of_stages rfl hstages⟩
    · obtain ⟨happart, hstages⟩ := h.put
        { s with
          writer := w
          inBatch := s.inBatch + 1
          stats := { s.stats with records := s.stats.records + 1 } }
        ((j.take config record).upTo w.allocator) rfl rfl rfl hw rfl rfl rfl rfl
        (List.sublist_append_left _ _) (fun _ ↦ rfl)
      rcases hend with ⟨-, hcheckpoint, hafter⟩ | ⟨-, rfl, rfl, rfl, hafter⟩
      · rw [hafter]
        obtain ⟨happart', hspares⟩ := happart.checkpoint ha s.retries hcheckpoint
        exact ⟨happart', (Journal.spares_of_stages rfl hstages).trans hspares⟩
      · rw [hafter]
        exact ⟨happart, Journal.spares_of_stages rfl hstages⟩

/-- In every course, batches are kept apart. -/
theorem Course.apart (h : Course config run Fickle init s store j) :
    s.Apart (new config run).layout (config.allocator run) init store j := by
  have ha : (config.allocator run).InPlace := Allocator.inPlace_new _ _ _ _
  induction h with
  | start hstart =>
    obtain ⟨rfl, dir, reply, hlist⟩ := eq_new_of_start hstart
    obtain rfl := hlist.list
    have hallocator := allocator_new config run
    refine ⟨rfl, ⟨?_, ?_, fun bucket ↦ ?_, ?_, ?_⟩, ?_, ?_, ?_, fun _ _ ↦ .inl rfl⟩
    · rw [hallocator]
    · rw [hallocator]
      rfl
    · rw [hallocator]
      exact Nat.le_refl _
    · simp [opened_new]
    · simp [closed_new]
    · simp [new]
    · simp [Journal.start]
    · simp [Journal.start]
  | call h c hc ih => exact (ih.call ha h.told c hc).1

/-- Whatever a sink was asked to do before, and whatever its store replied: at the targets of a
batch that was given up stands what stood there at first. Everything else that changed outside of
the directory of the attempt is a file of a batch that was closed in good order, with records of
that batch, and no place is one of both kinds of batches. Every boundary leaves the writer with
nothing in hand. Nothing outside of the directory of the attempt changes when what was closed is
given up. -/
theorem Course.never_published (h : Course config run Fickle init s store j) :
    let a := config.allocator run
    (∀ t ∈ j.abandoned, ∀ spec i, t.Has spec i →
      store.get? (a.slot spec i).target = init.get? (a.slot spec i).target) ∧
    (∀ p : ObjectPath, p.isBelow a.taskDir = false → store.get? p = init.get? p ∨
      ∃ t ∈ j.closed, ∃ f, t.Owns f ∧ p = (f.slot a).target ∧
        store.get? p = some (f.bytes s.layout)) ∧
    (∀ t ∈ j.closed, ∀ t' ∈ j.abandoned, ∀ spec i, t.Has spec i → ¬ t'.Has spec i) ∧
    (∀ (c : Call) s' result store', (s.call c).Ends Fickle store (.ok (s', result)) store' →
      j.boundaries < (j.after config s s' result c).boundaries →
        s'.writer.opened = [] ∧ s'.writer.closed = []) ∧
    ∀ kind w closed store₁ s₂ store₂,
      (s.writer.close kind).Ends Fickle store (w, closed) store₁ →
      ({ s with inBatch := 0, writer := w } : Sink).discardBatch.Ends Fickle store₁ s₂ store₂ →
      ∀ p : ObjectPath, p.isBelow a.taskDir = false → store₂.get? p = store₁.get? p := by
  intro a
  have happart := h.apart
  have ha : a.InPlace := Allocator.inPlace_new _ _ _ _
  refine ⟨?_, ?_, happart.disjoint, ?_, ?_⟩
  · intro t ht spec i hi
    rcases happart.shown _ (ha.target_not_isBelow a spec i) with hsame |
      ⟨t', ht', f, hf, htarget, -⟩
    · exact hsame
    · obtain ⟨rfl, rfl⟩ := Allocator.slot_target_inj htarget
      exact absurd hi (happart.disjoint t' ht' t ht _ _ hf.has)
  · intro p hp
    rw [happart.same_layout]
    exact happart.shown p hp
  · intro c s' result store' hc hbounds
    exact h.told.bounded hc hbounds
  · intro kind w closed store₁ s₂ store₂ hclose hdiscard p hp
    obtain ⟨-, hmoves, -⟩ := happart.discard ha hclose hdiscard
    exact hmoves.get?_eq hp

/-- The file of one record is staged when a record of another partition comes, whose file cannot be
put at the checkpoint. The file that is staged cannot be removed either, and stays. It never shows,
while the next file of its partition does. -/
theorem Course.never_published_after_failed_close :
    let config : Config := { table := "memory://table", strategy := .grouped, columns := ["p"] }
    let a := config.allocator "r"
    let first : Json := .object [("p", .string "a")]
    let second : Json := .object [("p", .string "b")]
    ∃ s store j, Course config "r" Fickle .empty s store j ∧
      (∃ t ∈ j.abandoned, t.Has [("p", "a")] 0 ∧
        t.records.map Json.text = [first.text, second.text]) ∧
      store.get? (a.slot [("p", "a")] 0).staging ≠ none ∧
      store.get? (a.slot [("p", "a")] 0).target = none ∧
      store.get? (a.slot [("p", "a")] 1).target ≠ none := by
  intro config a first second
  let answer := MemoryStore.refusing fun r ↦ match r with
    | .put path _ => path = (a.slot [("p", "b")] 0).staging
    | .delete path => path = (a.slot [("p", "a")] 0).staging
    | _ => false
  have hanswer : ∀ r s, Fickle r s (answer r s).1 (answer r s).2 :=
    fun r s ↦ (MemoryStore.replies_refusing _ r s).fickle
  have hstart : Course config "r" Fickle .empty (new config "r") .empty (.start a) :=
    .start (Task.ends_run answer hanswer (Sink.start config "r") .empty)
  obtain ⟨s, store, j, hcourse, ⟨t, ht, hhas, hrecords⟩, hstaging, htarget⟩ :=
    hstart.exists_of_proceed answer hanswer
      [.write first, .write second, .checkpoint, .write first, .checkpoint]
      (P := fun x ↦ (∃ t ∈ x.2.2.abandoned, t.Has [("p", "a")] 0 ∧
          t.records.map Json.text = [first.text, second.text]) ∧
        x.2.1.get? (a.slot [("p", "a")] 0).staging ≠ none ∧
        x.2.1.get? (a.slot [("p", "a")] 1).target ≠ none) (by decide +kernel)
  exact ⟨s, store, j, hcourse, ⟨t, ht, hhas, hrecords⟩, hstaging,
    (Course.never_published hcourse).1 t ht _ _ hhas, htarget⟩

end Sink

end TableSink
