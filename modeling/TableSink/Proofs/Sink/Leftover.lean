import TableSink.Proofs.Sink.Accounts

/-!
# What is left behind

When a batch is given up its staged files are to be removed, and nobody looks at whether that
worked. So a file can stay at its staging place for ever, with nothing that leads to it. That takes
a store that refuses to look at that very file, or to remove it (`Sink.Course.left_behind`); every
other object that a boundary leaves in the directory of the attempt was there before or is kept for
later.

`Journal.Cleared` says so about the batches that were given up. A batch is cleared when it is given
up, and what was cleared stays so since no later call puts a file at an old place.
-/

namespace TableSink

open MemoryStore (Replies Refuses Fickle)

variable {bad : Request → Prop} {s s' store store₁ store' init : MemoryStore}

/-! ## Removing -/

/-- Whether this is the question for an object at a path. -/
def Request.looksAt (p : ObjectPath) : Request → Bool
  | .head path => path = p
  | _ => false

theorem Request.eq_head_of_looksAt {p : ObjectPath} {r : Request} (h : r.looksAt p = true) :
    r = .head p := by
  cases r with
  | head path => exact congrArg Request.head (of_decide_eq_true h)
  | _ => cases h

/-- Nothing is at the path, or it could not be looked at, or could not be removed. -/
def MemoryStore.Gone (bad : Request → Prop) (s : MemoryStore) (p : ObjectPath) : Prop :=
  s.get? p = none ∨ bad (.head p) ∨ bad (.delete p)

theorem MemoryStore.Refuses.fickle {r : Request} {reply : r.Reply}
    (h : Refuses bad r s reply s') : Fickle r s reply s' := h.replies.fickle

theorem MemoryStore.Gone.of_emptied {p : ObjectPath}
    (hp : s'.get? p = s.get? p ∨ s'.get? p = none) (h : s.Gone bad p) : s'.Gone bad p := by
  rcases hp with hsame | hempty
  · rw [Gone, hsame]
    exact h
  · exact .inl hempty

theorem Task.objectExists_refuses {path : ObjectPath} {result : Except StorageError Bool}
    (h : (objectExists path).Ends (Refuses bad) s result s') : s' = s ∧
      (result = .ok true ∨ result = .ok false ∧ s.get? path = none ∨
        (∃ e, result = .error e) ∧ bad (.head path)) := by
  obtain ⟨reply, s₁, hreply, h⟩ := ends_ask_bind.mp h
  cases hreply with
  | regular =>
    simp only [MemoryStore.answer] at h
    cases hpath : s.get? path with
    | none =>
      rw [hpath] at h
      obtain ⟨rfl, rfl⟩ := ends_done.mp h
      exact ⟨rfl, .inr (.inl ⟨rfl, rfl⟩)⟩
    | some data =>
      rw [hpath] at h
      obtain ⟨rfl, rfl⟩ := ends_done.mp h
      exact ⟨rfl, .inl rfl⟩
  | @refused _ _ fault hbad hfault =>
    obtain ⟨rfl, rfl⟩ := ends_done.mp h
    refine ⟨rfl, .inr (.inr ⟨?_, hbad⟩)⟩
    cases fault with
    | notFound => exact absurd rfl hfault
    | _ => exact ⟨_, rfl⟩

/-- Where the token leads, nothing is left, or the store has refused. -/
theorem InProgressToken.finish_refuses {t : InProgressToken} {path : ObjectPath}
    (ht : readPath t.staging = .ok path) {result : Except CommitFailure Finish}
    (h : (Token.inProgress t).finish.Ends (Refuses bad) s result s') : s'.Gone bad path := by
  simp only [Token.finish, cleanup, ht, Task.ends_bind] at h
  obtain ⟨removed, s₁, ⟨found, s₂, hexists, hcleanup⟩, h⟩ := h
  have hs : s' = s₁ := by
    cases removed with
    | error e =>
      obtain ⟨-, rfl⟩ := Task.ends_report_done.mp h
      rfl
    | ok _ => exact (Task.ends_done.mp h).2
  subst hs
  obtain ⟨rfl, rfl | ⟨rfl, hnone⟩ | ⟨-, hbad⟩⟩ := Task.objectExists_refuses hexists
  · obtain ⟨reply, s₃, hreply, h₃⟩ := Task.ends_ask_bind.mp hcleanup
    cases hreply with
    | regular =>
      obtain ⟨-, rfl⟩ := Task.ends_report_done.mp h₃
      refine .inl ?_
      exact (MemoryStore.get?_erase _ _ _).trans (if_pos rfl)
    | refused hbad _ => exact .inr (.inr hbad)
  · obtain ⟨-, rfl⟩ := Task.ends_report_done.mp hcleanup
    exact .inl hnone
  · exact .inr (.inl hbad)

/-- Finishing without the pending token empties one place at most, whatever the token holds. -/
theorem Committable.emptied_of_discard {c : Committable} {result : Except FailedCommit Finish}
    (h : c.intoDiscard.finish.Ends Fickle s result s') (p : ObjectPath) :
    s'.get? p = s.get? p ∨ s'.get? p = none := by
  simp only [finish, intoDiscard, Task.ends_bind] at h
  obtain ⟨finished, s₁, hfinish, h⟩ := h
  obtain ⟨-, rfl⟩ := Task.ends_done.mp h
  cases hpath : readPath c.token.discard.staging with
  | ok path => exact (InProgressToken.finish_fickle hpath hfinish p).imp_right And.right
  | error e =>
    simp only [Token.finish, InProgressToken.cleanup, hpath, Task.pure_eq, Task.done_bind]
      at hfinish
    obtain ⟨-, rfl⟩ := Task.ends_report_done.mp hfinish
    exact .inl rfl

/-! ## Batches that were given up -/

/-- Of the files of the batches that were given up, nothing is left that was not there before, but
for what a store refuses to look at or to remove. -/
def Journal.Cleared (bad : Request → Prop) (a : Allocator) (init s : MemoryStore) (j : Journal) :
    Prop :=
  ∀ t ∈ j.abandoned, ∀ spec i, t.Has spec i →
    s.get? (a.slot spec i).staging = init.get? (a.slot spec i).staging ∨
      s.Gone bad (a.slot spec i).staging

/-- What was cleared stays so while the places of earlier batches are only emptied. -/
theorem Journal.Cleared.spares {a : Allocator} {j : Journal} (h : j.Cleared bad a init store)
    (hspares : j.Spares a store store')
    (hbefore : ∀ t ∈ j.abandoned, ∀ bucket, t.last.count bucket ≤ j.current.first.count bucket) :
    j.Cleared bad a init store' := by
  intro t ht spec i hi
  rcases hspares spec i (Nat.lt_of_lt_of_le hi.2 (hbefore t ht _)) with hsame | hempty
  · rw [MemoryStore.Gone, hsame]
    exact h t ht spec i hi
  · exact .inr (.inl hempty)

/-- A batch is given up next to those that were before. -/
theorem Journal.Cleared.abandon {a : Allocator} {j : Journal} (h : j.Cleared bad a init s)
    (hcurrent : ∀ spec i, j.current.Has spec i →
      s.get? (a.slot spec i).staging = init.get? (a.slot spec i).staging ∨
        s.Gone bad (a.slot spec i).staging) : j.abandon.Cleared bad a init s := by
  intro t ht spec i hi
  rcases List.mem_append.mp ht with ht | ht
  · exact h t ht spec i hi
  · obtain rfl := List.mem_singleton.mp ht
    exact hcurrent spec i hi

namespace Sink

variable {d : Desk Json} {b : Books Json} {j : Journal} {result : Except SinkError Unit}

/-- What was closed for a batch is gone when the batch was given up. -/
theorem gone_of_discardBatch {k k' : Sink}
    (h : k.discardBatch.Ends (Refuses bad) store k' store') {c : Committable}
    (hc : c ∈ k.writer.closed) {p : ObjectPath} (hp : readPath c.token.staging = .ok p) :
    store'.Gone bad p := by
  obtain ⟨results, hresults, -⟩ := phases_discardBatch h
  have hpath : ∀ c : Committable,
      readPath c.intoDiscard.token.staging = readPath c.token.staging := by
    rintro ⟨bucket, token, retries⟩
    cases token <;> rfl
  have hgone : ∀ x ∈ k.writer.closed.map Committable.intoDiscard,
      ∀ p, readPath x.token.staging = .ok p → store'.Gone bad p := by
    refine Task.ends_mapM_each
      (fun c store ↦ ∀ p, readPath c.token.staging = .ok p → store.Gone bad p) ?_ ?_ hresults
    · intro x hx s y s' hfinish p hp
      obtain ⟨c, -, rfl⟩ := List.mem_map.mp hx
      simp only [Committable.finish, Committable.intoDiscard, Task.ends_bind] at hfinish
      obtain ⟨finished, s₁, hfinish, h⟩ := hfinish
      obtain ⟨-, rfl⟩ := Task.ends_done.mp h
      exact InProgressToken.finish_refuses hp hfinish
    · intro x hx s y s' hfinish x' hgone p hp
      obtain ⟨c, -, rfl⟩ := List.mem_map.mp hx
      have hemptied := Committable.emptied_of_discard
        (hfinish.mono fun _ _ _ _ ↦ Refuses.fickle) p
      exact (hgone p hp).of_emptied hemptied
  exact hgone c.intoDiscard (List.mem_map_of_mem hc) p ((hpath c).trans hp)

/-- Giving up a batch empties places at most. -/
theorem emptied_of_discardBatch {k k' : Sink}
    (h : k.discardBatch.Ends Fickle store k' store') (p : ObjectPath) :
    store'.get? p = store.get? p ∨ store'.get? p = none := by
  obtain ⟨results, hresults, -⟩ := phases_discardBatch h
  have hstep : ∀ c ∈ k.writer.closed.map Committable.intoDiscard, ∀ s result s',
      (s.get? p = store.get? p ∨ s.get? p = none) → c.finish.Ends Fickle s result s' →
      (s'.get? p = store.get? p ∨ s'.get? p = none) ∧ True := by
    intro x hx s y s' hs hfinish
    obtain ⟨c, -, rfl⟩ := List.mem_map.mp hx
    refine ⟨?_, trivial⟩
    rcases Committable.emptied_of_discard hfinish p with hsame | hempty
    · rw [hsame]
      exact hs
    · exact .inr hempty
  exact (Task.ends_mapM hstep (.inl rfl) hresults).1

/-- When the writer was closed, every place of the open batch has a committable, or nothing was put
there. What is put without notice has no committable, so nothing may be. -/
theorem Accounts.closed_or_init {k : Sink} (h : k.Accounts d store b j)
    (hheard : ¬ d.mishaps .unheard) (hlast : j.current.last = k.writer.allocator)
    {kind : CloseKind} {w : Writer}
    {closed : Except WriteError Unit}
    (hclose : (k.writer.close kind).Ends (Replies d.mishaps) store (w, closed) store₁)
    {spec : PartitionSpec} {i : Nat} (hi : j.current.Has spec i) :
    (∃ c ∈ w.closed, c.token.staging = (d.base.slot spec i).staging.text) ∨
      store₁.get? (d.base.slot spec i).staging = d.init.get? (d.base.slot spec i).staging := by
  obtain ⟨done, lost, error, hcloses, -, -, -, -, hclosed⟩ :=
    Writer.ends_close h.keeps.at_desk h.keeps.tracks.opened h.keeps.tracks.holds hclose
  have hholds := hcloses.holds
  have hslot := h.keeps.tracks.base
  have hstaging : ∀ (f : Filed Json) kind,
      (f.committable d.layout k.writer.allocator kind).token.staging =
        (d.base.slot f.spec f.sequence).staging.text := by
    intro f kind
    rw [f.staging_committable, Filed.slot, hslot]
  have hissued := (hholds.issued spec i).mpr (hlast ▸ hi.2)
  rcases Books.mem_keys_iff.mp hissued with hkey | hkey | hkey
  · obtain ⟨f, hf, hf'⟩ := List.mem_map.mp hkey
    obtain ⟨rfl, rfl⟩ := Prod.mk.inj hf'
    simp only [Books.batch, Books.close, List.append_nil, List.mem_append] at hf
    refine .inl ?_
    rw [hclosed, h.keeps.tracks.closed]
    rcases hf with hf | hf
    · exact ⟨_, List.mem_append_left _ (List.mem_map_of_mem hf), hstaging f _⟩
    · exact ⟨_, List.mem_append_right _ (List.mem_map_of_mem hf), hstaging f _⟩
  · obtain ⟨f, hf, hf'⟩ := List.mem_map.mp hkey
    obtain ⟨rfl, rfl⟩ := Prod.mk.inj hf'
    exact absurd (h.opens.earlier f hf) (Nat.not_lt.mpr hi.1)
  · obtain ⟨f, hf, hf'⟩ := List.mem_map.mp hkey
    obtain ⟨rfl, rfl⟩ := Prod.mk.inj hf'
    have hdropped := (hholds.stands (f, .dropped) (Books.mem_entries.mpr hf)).1.resolve_right
      fun hunheard ↦ hheard hunheard.1
    rw [Filed.slot, hslot] at hdropped
    exact .inr hdropped

/-- When the open batch was given up, it is cleared. -/
theorem Accounts.cleared_discard {k k' : Sink} (h : k.Accounts d store b j)
    (hheard : ¬ d.mishaps .unheard) (hlast : j.current.last = k.writer.allocator)
    (hbad : ∀ r s reply s', Refuses bad r s reply s' → Replies d.mishaps r s reply s')
    {kind : CloseKind} {w : Writer} {closed : Except WriteError Unit}
    (hclose : (k.writer.close kind).Ends (Refuses bad) store (w, closed) store₁)
    (hdiscard : ({ k with inBatch := 0, writer := w } : Sink).discardBatch.Ends (Refuses bad) store₁
      k' store') {spec : PartitionSpec} {i : Nat} (hi : j.current.Has spec i) :
    store'.get? (d.base.slot spec i).staging = d.init.get? (d.base.slot spec i).staging ∨
      store'.Gone bad (d.base.slot spec i).staging := by
  rcases h.closed_or_init hheard hlast (hclose.mono hbad) hi with ⟨c, hc, hstaging⟩ | hinit
  · have ha := h.keeps.tracks.holds.inPlace
    have hread := (ha.written_staging spec i).readPath_text
    rw [h.keeps.tracks.base, ← hstaging] at hread
    exact .inr (gone_of_discardBatch hdiscard hc hread)
  · have hdiscard := hdiscard.mono fun _ _ _ _ ↦ Refuses.fickle
    rcases emptied_of_discardBatch hdiscard (d.base.slot spec i).staging with hsame | hempty
    · exact .inl (hsame.trans hinit)
    · exact .inr (.inl hempty)

/-- A checkpoint that gives the open batch up has cleared it. -/
theorem Accounts.cleared_checkpoint {k k' : Sink} (h : k.Accounts d store b j)
    (hheard : ¬ d.mishaps .unheard) (hlast : j.current.last = k.writer.allocator)
    (hbad : ∀ r s reply s', Refuses bad r s reply s' → Replies d.mishaps r s reply s')
    (hc : k.checkpoint.Ends (Refuses bad) store (.ok (k', result)) store')
    (hold : j.Cleared bad d.base d.init store') (kept : List Committable) :
    (j.boundary kept result).Cleared bad d.base d.init store' := by
  obtain ⟨w, closed, store₁, hclose, hphases⟩ := phases_checkpoint hc
  rcases hphases with ⟨e, -, rfl, hdiscard⟩ | ⟨-, results, again, -, -, hresult, -⟩
  · exact hold.abandon fun _ _ ↦ h.cleared_discard hheard hlast hbad hclose hdiscard
  · split at hresult <;> subst hresult <;> exact hold

/-- An abort has cleared the open batch. -/
theorem Accounts.cleared_abort {k k' : Sink} (h : k.Accounts d store b j)
    (hheard : ¬ d.mishaps .unheard) (ha : d.base.InPlace)
    (happart : k.Apart d.layout d.base init store j)
    (hbad : ∀ r s reply s', Refuses bad r s reply s' → Replies d.mishaps r s reply s')
    (hc : k.abort.Ends (Refuses bad) store (.ok (k', result)) store')
    (hold : j.Cleared bad d.base d.init store') :
    j.abandon.Cleared bad d.base d.init store' := by
  obtain ⟨w, closed, store₁, k₁, store₂, hclose, hdiscard, hphases⟩ := phases_abort hc
  have hfickle : ∀ r s reply s', Refuses bad r s reply s' → Fickle r s reply s' :=
    fun _ _ _ _ ↦ Refuses.fickle
  refine hold.abandon fun spec i hi ↦ ?_
  have hcleared := h.cleared_discard hheard happart.inHand.last hbad hclose hdiscard hi
  rcases hphases with ⟨e, -, -, rfl, rfl⟩ | ⟨-, -, results, again, hresults, -, rfl⟩
  · exact hcleared
  · obtain ⟨-, -, -, hkept⟩ := happart.discard ha (hclose.mono hfickle) (hdiscard.mono hfickle)
    obtain ⟨hmoves, -⟩ := moves_of_finishEach ha hkept (hresults.mono hfickle)
    rcases hmoves.staging ha spec i with hsame | hempty
    · rw [MemoryStore.Gone, hsame]
      exact hcleared
    · exact .inr (.inl hempty)

/-- Between batches, an object in the directory of the attempt was there at first, or is that of a
file that is kept or that was removed. -/
theorem Accounts.kept_or_removed {k : Sink} (h : k.Accounts d store b j)
    (hheard : ¬ d.mishaps .unheard) (ha : d.base.InPlace) (hopened : k.writer.opened = [])
    (hclosed : k.writer.closed = []) {p : ObjectPath} (hp : p.isBelow d.base.taskDir = true)
    {data : ByteArray} (hdata : store.get? p = some data) :
    d.init.get? p = some data ∨ (∃ c ∈ k.retries, c.token.staging = p.text) ∨
      ∃ f ∈ b.removed, p = (f.slot d.base).staging := by
  have htracks := h.keeps.tracks
  rw [htracks.opened, List.map_eq_nil_iff] at hopened
  rw [htracks.closed, List.map_eq_nil_iff] at hclosed
  rcases htracks.frame_or_place p with hinit | ⟨f, status, hf, rfl | rfl⟩
  · exact .inl (hinit.symm.trans hdata)
  · have hstands := htracks.stands hf
    cases status with
    | shown => exact absurd (hstands.2.symm.trans hdata) (Option.some_ne_none data).symm
    | kept =>
      have hstaging : (f.slot d.base).staging.text ∈ k.retries.map fun c ↦ c.token.staging := by
        rw [h.keeps.staging_retries]
        exact List.mem_map_of_mem hf
      exact .inr (.inl (List.mem_map.mp hstaging))
    | closed => simp [Books.files, hclosed] at hf
    | opened => simp [Books.files, hopened] at hf
    | removed => exact .inr (.inr ⟨f, hf, rfl⟩)
    | dropped =>
      have hinit := hstands.1.resolve_right fun hunheard ↦ hheard hunheard.1
      exact .inl (hinit.symm.trans hdata)
  · rw [Filed.slot, ha.target_not_isBelow d.base _ _] at hp
    cases hp

variable {config : Config} {run : String}

/-- In every course the batches that were given up are cleared. -/
theorem Course.cleared {k : Sink} (h : Course config run (Refuses bad) init k store j) :
    j.Cleared bad (config.allocator run) init store := by
  have ha : (config.allocator run).InPlace := Allocator.inPlace_new _ _ _ _
  have hfickle : ∀ r s reply s', Refuses bad r s reply s' → Fickle r s reply s' :=
    fun _ _ _ _ ↦ Refuses.fickle
  have hbad : ∀ r s reply s', Refuses bad r s reply s' → Replies (· = .refusal) r s reply s' :=
    fun _ _ _ _ ↦ Refuses.replies
  have hheard : Mishap.unheard ≠ .refusal := nofun
  induction h with
  | start _ =>
    intro t ht
    cases ht
  | @call k k' store store' j result hcourse c hc ih =>
    have happart := (hcourse.mono hfickle).apart
    have htold := hcourse.told
    obtain ⟨b, haccounts⟩ := (hcourse.mono hbad).accounts
    have hold : j.Cleared bad (config.allocator run) init store' :=
      ih.spares (happart.call ha htold c (hc.mono hfickle)).2 fun t ht ↦
        happart.before t (List.mem_append_right _ ht)
    cases c with
    | checkpoint =>
      rw [htold.journal_checkpoint hc]
      exact haccounts.cleared_checkpoint hheard htold.last hbad hc hold k.retries
    | abort =>
      rw [htold.journal_abort hc]
      exact haccounts.cleared_abort hheard ha happart hbad hc hold
    | write record =>
      obtain ⟨w, written, store₁, hw, ⟨e, -, -, -, -, hafter⟩ | ⟨rfl, k₁, j₁, rfl, rfl, hend⟩⟩ :=
        htold.journal_write hc
      · obtain ⟨books, hmiss⟩ := j.miss_eq result
        rw [hafter, hmiss]
        exact hold
      · obtain ⟨b₁, htaken⟩ :=
          haccounts.take htold.last happart.inHand.first_le (hw.mono hbad)
        rcases hend with ⟨-, hcheckpoint, hafter⟩ | ⟨-, -, -, -, hafter⟩
        · rw [hafter]
          exact htaken.cleared_checkpoint hheard rfl hbad hcheckpoint hold k.retries
        · rw [hafter]
          exact hold

/-- Whatever a sink was asked to do before, on a store that may refuse some requests: when a call
has ended a batch, every object that is left in the directory of the attempt was there at first, or
is the staged file of a committable that is kept, or is one of a batch that was given up, which the
store has refused to look at or to remove. -/
theorem Course.left_behind {k k' : Sink} (h : Course config run (Refuses bad) init k store j)
    (c : Call) (hc : (k.call c).Ends (Refuses bad) store (.ok (k', result)) store')
    (hbounds : j.boundaries < (j.after config k k' result c).boundaries) :
    let a := config.allocator run
    ∀ p : ObjectPath, p.isBelow a.taskDir = true → ∀ data, store'.get? p = some data →
      init.get? p = some data ∨
      (∃ c ∈ k'.retries, c.token.staging = p.text) ∨
      ∃ t ∈ (j.after config k k' result c).abandoned, ∃ spec i, t.Has spec i ∧
        p = (a.slot spec i).staging ∧ (bad (.head p) ∨ bad (.delete p)) := by
  intro a p hp data hdata
  have hcourse := h.call c hc
  obtain ⟨b, haccounts⟩ := (hcourse.mono fun _ _ _ _ ↦ Refuses.replies).accounts
  obtain ⟨hopened, hclosed⟩ := h.told.bounded hc hbounds
  have hheard : Mishap.unheard ≠ .refusal := nofun
  rcases haccounts.kept_or_removed hheard (Allocator.inPlace_new _ _ _ _) hopened hclosed hp
    hdata with hinit | hkept | ⟨f, hf, rfl⟩
  · exact .inl hinit
  · exact .inr (.inl hkept)
  · obtain ⟨t, ht, hhas⟩ := haccounts.removed f hf
    rcases hcourse.cleared t ht f.spec f.sequence hhas with hinit | hnone | hbad
    · exact .inl (hinit.symm.trans hdata)
    · exact absurd (hnone.symm.trans hdata) (Option.some_ne_none data).symm
    · exact .inr (.inr ⟨t, ht, f.spec, f.sequence, hhas, rfl, hbad⟩)

/-- The file of one record is staged when a record of another partition comes. The batch is given
up, but the store refuses to look at the file. It stays, and nothing is kept that leads to it. -/
theorem Course.left_behind_after_abort :
    let config : Config := { table := "memory://table", strategy := .grouped, columns := ["p"] }
    let a := config.allocator "r"
    let p := (a.slot [("p", "a")] 0).staging
    let bad := fun r : Request ↦ r = .head p
    ∃ k store j k' store', Course config "r" (Refuses bad) .empty k store j ∧
      (k.call .abort).Ends (Refuses bad) store (.ok (k', .ok ())) store' ∧
      store'.get? p ≠ none ∧ k'.retries = [] ∧
      ∃ t ∈ (j.after config k k' (.ok ()) .abort).abandoned, ∃ spec i, t.Has spec i ∧
        p = (a.slot spec i).staging := by
  intro config a p bad
  let record (p : String) : Json := .object [("p", .string p)]
  let answer := MemoryStore.refusing (Request.looksAt p)
  have hanswer : ∀ r s, Refuses bad r s (answer r s).1 (answer r s).2 :=
    fun r s ↦ (MemoryStore.refuses_refusing _ r s).mono fun _ ↦ Request.eq_head_of_looksAt
  have hstart : Course config "r" (Refuses bad) .empty (new config "r") .empty (.start a) :=
    .start (Task.ends_run answer hanswer (Sink.start config "r") .empty)
  obtain ⟨k, store, j, hcourse, ⟨k', result⟩, hvalue, hok, hretries, hsome⟩ :=
    hstart.exists_of_proceed answer hanswer [.write (record "a"), .write (record "b")]
      (P := fun x ↦ let outcome := (x.1.call .abort).run answer x.2.1
        ∃ ending ∈ outcome.value.toOption, ending.2 = .ok () ∧ ending.1.retries = [] ∧
          outcome.state.get? p ≠ none) (by decide +kernel)
  obtain rfl : result = .ok () := hok
  have habort := ends_of_mem_run answer hanswer hvalue
  obtain ⟨data, hdata⟩ := Option.ne_none_iff_exists'.mp hsome
  refine ⟨k, store, j, k', _, hcourse, habort, hsome, hretries, ?_⟩
  have hbounds : j.boundaries < (j.after config k k' (.ok ()) .abort).boundaries :=
    Nat.lt_succ_self _
  rcases Course.left_behind hcourse .abort habort hbounds p (a.staging_isBelow _ _) data hdata with
    hinit | ⟨c, hc, -⟩ | ⟨t, ht, spec, i, hi, hp, -⟩
  · cases hinit
  · have hnil : k'.retries = [] := hretries
    rw [hnil] at hc
    cases hc
  · exact ⟨t, ht, spec, i, hi, hp⟩

end Sink

end TableSink
