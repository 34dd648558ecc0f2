import TableSink.Proofs.Commit.Settle
import TableSink.Proofs.Storage.Pool
import TableSink.Proofs.Writer.Emitted

/-!
# Removing a file again and again

A file that must not show is removed from its staging place, and whoever cannot tell whether that
was done does it again. An attempt looks for the file first and removes it then, so others may have
removed it in between. All of them only ever take away this one object (`Rule.removal`), and a store
takes the removal of a missing object for a success. So every attempt ends well, whatever became of
the file before: it may still wait, it may stand at its target, or be gone.
-/

namespace TableSink

open MemoryStore (Replies Updated)

/-- The number of bytes. -/
def Token.size : Token → Nat
  | .pending t => t.size
  | .inProgress t => t.size

@[simp] theorem Token.staging_discard (t : Token) : t.discard.staging = t.staging := by
  cases t <;> rfl

@[simp] theorem Token.size_discard (t : Token) : t.discard.size = t.size := by
  cases t <;> rfl

/-- Taking the pending token away keeps everything else, and there is nothing more to take away. -/
theorem Committable.intoDiscard_keeps (c : Committable) :
    c.intoDiscard.bucket = c.bucket ∧ c.intoDiscard.token.staging = c.token.staging ∧
      c.intoDiscard.token.size = c.token.size ∧ c.intoDiscard.retries = c.retries ∧
      c.intoDiscard.token.isPending = false ∧ c.intoDiscard.intoDiscard = c.intoDiscard :=
  ⟨rfl, c.token.staging_discard, c.token.size_discard, rfl, rfl, rfl⟩

variable {path : ObjectPath} {s : MemoryStore}

/-- What was removed may be removed again. -/
theorem MemoryStore.Updated.again {s₁ s₂ : MemoryStore} (h : Updated s path none s₁)
    (h' : Updated s₁ path none s₂) : Updated s path none s₂ := by
  intro q
  rw [h' q, h q]
  split <;> rfl

/-- A question is answered first, and what follows goes on from there. -/
theorem Task.run_ask_bind {σ α : Type} {answer : (r : Request) → σ → r.Reply × σ} {r : Request}
    {f : Except StorageError r.Answer → Task α} {st : σ} :
    (Task.ask r >>= f).run answer st =
      let rest := (f ((answer r st).1.mapError .request)).run answer (answer r st).2
      { rest with events := .request r.operation (r.succeeded (answer r st).1) :: rest.events } :=
  rfl

/-! ## One attempt after the other -/

namespace InProgressToken

variable {t : InProgressToken}

/-- The file is gone afterwards, and it was found if it was there. -/
theorem run_cleanup (ht : readPath t.staging = .ok path) (s : MemoryStore) :
    (t.cleanup.run MemoryStore.answer s).value = .ok (s.get? path).isSome ∧
      Updated s path none (t.cleanup.run MemoryStore.answer s).state := by
  rw [cleanup, ht]
  simp only [Task.objectExists, Task.bind_assoc]
  rw [Task.run_ask_bind]
  cases hs : s.get? path with
  | none =>
    have hreply : MemoryStore.answer (.head path) s = (.error .notFound, s) := by
      simp [MemoryStore.answer, hs]
    rw [hreply]
    exact ⟨rfl, .of_get?_eq hs⟩
  | some data =>
    have hreply : MemoryStore.answer (.head path) s = (.ok data.size, s) := by
      simp [MemoryStore.answer, hs]
    rw [hreply]
    exact ⟨rfl, s.get?_erase path⟩

/-- Where the file is gone, nobody finds it any more. -/
theorem run_cleanups_of_gone {ts : List InProgressToken}
    (hts : ∀ t ∈ ts, readPath t.staging = .ok path) (hs : s.get? path = none) :
    ((ts.mapM cleanup).run MemoryStore.answer s).value = ts.map fun _ ↦ .ok false := by
  induction ts generalizing s with
  | nil => rfl
  | cons t ts ih =>
    obtain ⟨hvalue, hstate⟩ := run_cleanup (hts t List.mem_cons_self) s
    have hrest := ih (fun t' ht' ↦ hts t' (List.mem_cons_of_mem t ht'))
      ((hstate path).trans (if_pos rfl))
    simp only [List.mapM_cons, Task.run_bind, Task.pure_eq, Task.run_done, hvalue, hs, hrest]
    rfl

/-- Of attempts one after the other only the first one finds the file, if it is there. -/
theorem run_cleanups {ts : List InProgressToken}
    (hts : ∀ t' ∈ t :: ts, readPath t'.staging = .ok path) (s : MemoryStore) :
    (((t :: ts).mapM cleanup).run MemoryStore.answer s).value =
      .ok (s.get? path).isSome :: ts.map fun _ ↦ .ok false := by
  obtain ⟨hvalue, hstate⟩ := run_cleanup (hts t List.mem_cons_self) s
  have hrest := run_cleanups_of_gone (fun t' ht' ↦ hts t' (List.mem_cons_of_mem t ht'))
    ((hstate path).trans (if_pos rfl))
  simp only [List.mapM_cons, Task.run_bind, Task.pure_eq, Task.run_done, hvalue, hrest]

end InProgressToken

namespace Committable

variable {c : Committable}

/-- Who takes the pending token away first removes the file, or finds it removed. -/
theorem run_finish_intoDiscard (hc : readPath c.token.staging = .ok path) (s : MemoryStore) :
    (c.intoDiscard.finish.run MemoryStore.answer s).value = .ok .discarded ∧
      Updated s path none (c.intoDiscard.finish.run MemoryStore.answer s).state := by
  have htoken : readPath c.token.discard.staging = .ok path := by
    rw [Token.staging_discard, hc]
  obtain ⟨hvalue, hstate⟩ := InProgressToken.run_cleanup htoken s
  simp only [finish, intoDiscard, Token.finish, Task.run_bind, hvalue]
  exact ⟨rfl, hstate⟩

/-- A batch of such committables is discarded, each of them. -/
theorem run_finish_intoDiscards {cs : List Committable}
    (hcs : ∀ c ∈ cs, readPath c.token.staging = .ok path) (s : MemoryStore) :
    let outcome := ((cs.map intoDiscard).mapM finish).run MemoryStore.answer s
    outcome.value = cs.map (fun _ ↦ .ok .discarded) ∧
      (cs ≠ [] → Updated s path none outcome.state) := by
  intro outcome
  induction cs generalizing s with
  | nil => exact ⟨rfl, fun h ↦ absurd rfl h⟩
  | cons c cs ih =>
    obtain ⟨hvalue, hstate⟩ := run_finish_intoDiscard (hcs c List.mem_cons_self) s
    obtain ⟨hvalues, hstates⟩ := ih (fun c' hc' ↦ hcs c' (List.mem_cons_of_mem c hc'))
      (c.intoDiscard.finish.run MemoryStore.answer s).state
    have hrest : outcome.value = .ok .discarded :: cs.map (fun _ ↦ .ok .discarded) ∧
        outcome.state = (((cs.map intoDiscard).mapM finish).run MemoryStore.answer
          (c.intoDiscard.finish.run MemoryStore.answer s).state).state := by
      simp only [outcome, List.map_cons, List.mapM_cons, Task.run_bind, Task.pure_eq, Task.run_done,
        hvalue, hvalues, and_self]
    refine ⟨hrest.1, fun _ ↦ ?_⟩
    rw [hrest.2]
    cases cs with
    | nil => exact hstate
    | cons c' cs => exact hstate.again (hstates (List.cons_ne_nil c' cs))

end Committable

theorem CommitReport.ofResults_discarded (cs : List Committable) :
    ofResults (cs.map fun _ ↦ .ok .discarded) = { discarded := cs.length } := by
  induction cs with
  | nil => rfl
  | cons c cs ih =>
    rw [List.map_cons, ofResults_cons, ih]
    simp [add, join, Nat.add_comm]

/-- Such a batch is reported as discarded, all of it. -/
theorem run_commitBatch_intoDiscards {cs : List Committable}
    (hcs : ∀ c ∈ cs, readPath c.token.staging = .ok path) (s : MemoryStore) :
    let outcome := (commitBatch (cs.map Committable.intoDiscard)).run MemoryStore.answer s
    outcome.value = { discarded := cs.length } ∧
      (cs ≠ [] → Updated s path none outcome.state) := by
  obtain ⟨hvalue, hstate⟩ := Committable.run_finish_intoDiscards hcs s
  simp only [commitBatch, Task.run_bind, hvalue, ← CommitReport.ofResults_discarded]
  exact ⟨rfl, hstate⟩

/-! ## Attempts side by side -/

/-- The object at a path may be removed, and that is all. -/
def Rule.removal (path : ObjectPath) : Rule where
  allows s s' := (∀ q, q ≠ path → s'.get? q = s.get? q) ∧
    (s'.get? path = s.get? path ∨ s'.get? path = none)
  refl _ := ⟨fun _ _ ↦ rfl, .inl rfl⟩
  trans h₁ h₂ := ⟨fun q hq ↦ (h₂.1 q hq).trans (h₁.1 q hq),
    h₂.2.elim (fun h ↦ h₁.2.imp h.trans h.trans) .inr⟩

/-- What an attempt to remove the file at a path has to show for it. -/
def MemoryStore.Removed (path : ObjectPath) (s : MemoryStore)
    (result : Except FailedCommit Finish) : Prop :=
  result = .ok .discarded ∧ s.get? path = none

namespace Committable

variable {c : Committable}

/-- Attempts to remove files, all before their first request. -/
def discards {κ : Type} (cs : κ → Committable) (s : MemoryStore) :
    Pool κ fun _ ↦ Except FailedCommit Finish where
  store := s
  tasks k := (cs k).intoDiscard.finish

/-- An attempt goes well, whoever is faster. -/
theorem keeps_finish_intoDiscard (hc : readPath c.token.staging = .ok path) (s : MemoryStore) :
    c.intoDiscard.finish.Keeps (.removal path) (fun _ ↦ False) (.ok .discarded)
      (MemoryStore.Removed path) s := by
  have hgone : ∀ {s₁ s₂ : MemoryStore}, s₁.get? path = none → (Rule.removal path).allows s₁ s₂ →
      s₂.get? path = none :=
    fun hs₁ h ↦ h.2.elim (fun heq ↦ heq.trans hs₁) id
  have htoken : readPath c.token.discard.staging = .ok path := by
    rw [Token.staging_discard, hc]
  simp only [finish, intoDiscard, Token.finish, InProgressToken.cleanup, htoken, Task.objectExists,
    Task.bind_assoc]
  rw [Task.keeps_ask_bind]
  intro s₁ _
  cases hs₁ : s₁.get? path with
  | none =>
    have hreply : MemoryStore.answer (.head path) s₁ = (.error .notFound, s₁) := by
      simp [MemoryStore.answer, hs₁]
    rw [hreply]
    exact ⟨(Rule.removal path).refl _, False.elim, fun s₂ h₂ ↦ ⟨rfl, hgone hs₁ h₂⟩⟩
  | some data =>
    have hreply : MemoryStore.answer (.head path) s₁ = (.ok data.size, s₁) := by
      simp [MemoryStore.answer, hs₁]
    rw [hreply]
    refine ⟨(Rule.removal path).refl _, False.elim, ?_⟩
    simp only [Except.mapError, Task.pure_eq, Task.done_bind, Task.bind_assoc]
    -- Between looking and removing others may have removed the file. It makes no difference to
    -- what the store replies.
    rw [Task.keeps_ask_bind]
    intro s₂ _
    have herase := s₂.get?_erase path
    refine ⟨⟨fun q hq ↦ (herase q).trans (if_neg hq), .inr ((herase path).trans (if_pos rfl))⟩,
      False.elim, fun s₃ h₃ ↦ ⟨rfl, hgone ((herase path).trans (if_pos rfl)) h₃⟩⟩

theorem keeps_discards {κ : Type} {cs : κ → Committable}
    (hcs : ∀ k, readPath (cs k).token.staging = .ok path) (s : MemoryStore) :
    (discards cs s).Keeps (.removal path) (fun _ ↦ False) (fun _ ↦ .ok .discarded)
      (fun _ ↦ MemoryStore.Removed path) :=
  fun k ↦ keeps_finish_intoDiscard (hcs k) s

/-- However attempts overlap, each that ends has discarded the file, which stays away from then on,
and nothing else in the store is touched. -/
theorem discards_reaches {κ : Type} [DecidableEq κ] {cs : κ → Committable}
    {p : Pool κ fun _ ↦ Except FailedCommit Finish}
    (hcs : ∀ k, readPath (cs k).token.staging = .ok path)
    (hp : Pool.Reaches (fun _ _ ↦ False) (discards cs s) p) :
    (∀ k, ((p.tasks k).run MemoryStore.answer p.store).value = .ok .discarded) ∧
      (∀ q, q ≠ path → p.store.get? q = s.get? q) ∧
      ∀ k result, p.tasks k = .done result → result = .ok .discarded ∧
        ∀ p', Pool.Reaches (fun _ _ ↦ False) p p' → p'.store.get? path = none := by
  have hout : ∀ s s' : MemoryStore, False → (Rule.removal path).allows s s' :=
    fun _ _ ↦ False.elim
  obtain ⟨hrule, hkeeps⟩ := Pool.Reaches.keeps hout hp (keeps_discards hcs s)
  refine ⟨fun k ↦ ?_, hrule.1, fun k result hdone ↦ ?_⟩
  · have halone := Pool.Reaches.keeps hout (Pool.reaches_run (fun _ _ ↦ False) p k) hkeeps
    exact (halone.2.of_done (Function.update_self k _ _)).1
  · obtain ⟨hresult, hgone⟩ := hkeeps.of_done hdone
    refine ⟨hresult, fun p' hp' ↦ ?_⟩
    exact (Pool.Reaches.keeps hout hp' hkeeps).1.2.elim (fun heq ↦ heq.trans hgone) id

end Committable

/-! ## Committables of a writer -/

namespace Writer

variable {ρ : Type} {layout : Layout ρ} {stagingDir run : String} {attempt : Attempt}
variable {naming : FileNaming} {strategy : Strategy} {fixed : PartitionSpec}
variable {init store : MemoryStore} {w : Writer} {fetched : List Committable} {written : List ρ}

/-- Whatever a committable is that a writer has emitted, and whatever has become of its file since:
its pending token can be taken away, which keeps the rest of it, and its file discarded by anybody,
any number of times. Attempts may overlap request by request; each of them reports that the file is
discarded. It is gone once the first of them has ended, and no other place has changed, the target
of the file among them. Of attempts that come one after the other only the first one may find the
file, and does if it is there. -/
theorem Course.discard_safe {κ : Type} [DecidableEq κ]
    (h : Course layout (Replies (· = .refusal)) init
      (new strategy (.new stagingDir attempt naming run) fixed) w store fetched written)
    {c : Committable} (hc : c.fresh ∈ fetched ++ w.closed) :
    let a := Allocator.new stagingDir attempt naming run
    ∃ (f : Filed ρ) (kind : CloseKind), c.fresh = f.committable layout a kind ∧
      (f.slot a).target ≠ (f.slot a).staging ∧
      (c.intoDiscard.bucket = c.bucket ∧ c.intoDiscard.token.staging = c.token.staging ∧
        c.intoDiscard.token.size = c.token.size ∧ c.intoDiscard.retries = c.retries ∧
        c.intoDiscard.token.isPending = false ∧ c.intoDiscard.intoDiscard = c.intoDiscard) ∧
      (∀ (before : MemoryStore) (cs : κ → Committable),
        (∀ k, (cs k).token.staging = c.token.staging) →
        ∀ p, Pool.Reaches (fun _ _ ↦ False) (Committable.discards cs before) p →
          (∀ k, ((p.tasks k).run MemoryStore.answer p.store).value = .ok .discarded) ∧
          (∀ q, q ≠ (f.slot a).staging → p.store.get? q = before.get? q) ∧
          ∀ k result, p.tasks k = .done result → result = .ok .discarded ∧
            ∀ p', Pool.Reaches (fun _ _ ↦ False) p p' →
              p'.store.get? (f.slot a).staging = none) ∧
      ∀ (before : MemoryStore) (later : List Committable),
        (∀ d ∈ later, d.token.staging = c.token.staging) →
        (((c :: later).map fun d ↦ d.token.discard).mapM InProgressToken.cleanup |>.run
          MemoryStore.answer before).value =
            .ok (before.get? (f.slot a).staging).isSome :: later.map (fun _ ↦ .ok false) ∧
        let outcome := (commitBatch ((c :: later).map Committable.intoDiscard)).run
          MemoryStore.answer before
        outcome.value = { discarded := later.length + 1 } ∧
          Updated before (f.slot a).staging none outcome.state := by
  intro a
  have ha : a.InPlace := Allocator.inPlace_new stagingDir attempt naming run
  obtain ⟨emitted, -, hclosed, -⟩ := h.emitted_staged
  rw [hclosed] at hc
  obtain ⟨⟨f, kind⟩, -, hf⟩ := List.mem_map.mp hc
  have hstaging : c.token.staging = (f.slot a).staging.text := by
    have htoken : c.fresh.token.staging = (f.slot a).staging.text := by
      rw [← hf, Filed.staging_committable]
    exact htoken
  have hread : readPath c.token.staging = .ok (f.slot a).staging := by
    rw [hstaging]
    exact (ha.written_staging f.spec f.sequence).readPath_text
  refine ⟨f, kind, hf.symm, (ha.staging_ne_target a f.spec f.spec f.sequence f.sequence).symm,
    c.intoDiscard_keeps, fun before cs hcs p hp ↦ ?_, fun before later hlater ↦ ?_⟩
  · exact Committable.discards_reaches (fun k ↦ by rw [hcs k, hread]) hp
  · have hall : ∀ d ∈ c :: later, readPath d.token.staging = .ok (f.slot a).staging := by
      rintro d (_ | ⟨_, hd⟩)
      · exact hread
      · rw [hlater d hd, hread]
    have htokens : ∀ t ∈ (c :: later).map fun d ↦ d.token.discard,
        readPath t.staging = .ok (f.slot a).staging := by
      intro t ht
      obtain ⟨d, hd, rfl⟩ := List.mem_map.mp ht
      rw [Token.staging_discard, hall d hd]
    have hfound := InProgressToken.run_cleanups htokens before
    rw [List.map_map] at hfound
    obtain ⟨hvalue, hstate⟩ := run_commitBatch_intoDiscards hall before
    exact ⟨hfound, hvalue, hstate (List.cons_ne_nil c later)⟩

/-- A file was published, but nobody was told. Its committable was handed back once, and two
attempts discard it now. Neither finds anything, and the file stands at its target as before. -/
theorem Course.discard_safe_published :
    let layout : Layout String := ⟨⟨fun r ↦ .ok [("p", r)], .ok⟩, fun r _ ↦ (r.toUTF8, .ok ())⟩
    let a := Allocator.new "_staging" ⟨0, 0⟩ {} "r"
    let target := (a.slot [("p", "x")] 0).target
    ∃ w store fetched written c,
      Course layout (Replies (· = .refusal)) .empty (new .grouped a []) w store fetched written ∧
      c.fresh ∈ fetched ++ w.closed ∧ c.token.isPending = true ∧ c.retries = 1 ∧
      let published := ((commitBatch [c]).run MemoryStore.answer store).state
      published.get? target = some "x".toUTF8 ∧
      ((commitBatch [c.intoDiscard, c.intoDiscard]).run MemoryStore.answer published).value =
        { discarded := 2 } ∧
      ∀ p, Pool.Reaches (fun _ _ ↦ False) (Committable.discards (fun _ : Bool ↦ c) published) p →
        p.store.get? target = some "x".toUTF8 := by
  intro layout a target
  have hanswer : ∀ r s, Replies (· = .refusal) r s (MemoryStore.answer r s).1
      (MemoryStore.answer r s).2 := .regular
  have hstart : Course layout (Replies (· = .refusal)) .empty (new .grouped a []) _ _ _ _ := .start
  have hclosed := (hstart.run_write MemoryStore.answer hanswer "x").run_close
    MemoryStore.answer hanswer .commit
  let c : Committable :=
    ⟨"p=x", .pending ⟨(a.slot [("p", "x")] 0).staging.text, target.text, 1, 1⟩, 1⟩
  obtain ⟨w, store, fetched, written, hcourse, hemitted, hpublished⟩ :
      ∃ w store fetched written,
        Course layout (Replies (· = .refusal)) .empty (new .grouped a []) w store fetched written ∧
        fetched ++ w.closed = [c.fresh] ∧
        ((commitBatch [c]).run MemoryStore.answer store).state.get? target = some "x".toUTF8 :=
    ⟨_, _, _, _, hclosed, by decide +kernel, by decide +kernel⟩
  have hc : c.fresh ∈ fetched ++ w.closed := hemitted ▸ List.mem_singleton_self _
  obtain ⟨f, kind, -, -, -, hoverlap, hlater⟩ := Course.discard_safe (κ := Bool) hcourse hc
  have htarget : target ≠ (f.slot a).staging :=
    ((Allocator.inPlace_new _ _ _ _).staging_ne_target a _ _ _ _).symm
  refine ⟨w, store, fetched, written, c, hcourse, hc, rfl, rfl, hpublished, ?_, fun p hp ↦ ?_⟩
  · exact (hlater _ [c] fun d hd ↦ by rw [List.mem_singleton.mp hd]).2.1
  · rw [(hoverlap _ (fun _ ↦ c) (fun _ ↦ rfl) p hp).2.1 target htarget, hpublished]

end Writer

end TableSink
