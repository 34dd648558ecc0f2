import TableSink.Proofs.Commit.Finish
import TableSink.Proofs.Storage.Pool

/-!
# Races for one file

Everybody who holds the token of a staged file may try to publish it, and so may the writer that
closed it. All of them only ever move the file from its staging place to its target, so there are
two states of the store, and one way from the first to the second (`Transfer.rule`). What makes an
attempt safe is that a file that is missing at its staging place can only be at its target: whoever
comes too late, at whichever request, finds it there.
-/

namespace TableSink

/-- The two places of a file and its bytes. -/
structure Transfer where
  source : ObjectPath
  target : ObjectPath
  bytes : ByteArray
  apart : source ≠ target

namespace Transfer

variable (f : Transfer)

/-- The file waits at its staging place. -/
def Staged (s : MemoryStore) : Prop := s.get? f.source = some f.bytes ∧ s.get? f.target = none

/-- The file stands at its target. -/
def Published (s : MemoryStore) : Prop := s.get? f.source = none ∧ s.get? f.target = some f.bytes

/-- The file may be moved to its target, and that is all. -/
def rule : Rule where
  allows s s' := (f.Staged s → f.Staged s' ∨ f.Published s') ∧ (f.Published s → f.Published s')
  refl _ := ⟨.inl, id⟩
  trans h₁ h₂ := ⟨fun h ↦ (h₁.1 h).elim h₂.1 fun h ↦ .inr (h₂.2 h), fun h ↦ h₂.2 (h₁.2 h)⟩

/-- A store on which neither of the two places was touched. -/
def Untouched (s s' : MemoryStore) : Prop :=
  s'.get? f.source = s.get? f.source ∧ s'.get? f.target = s.get? f.target

variable {f}

theorem Staged.not_published {s : MemoryStore} (h : f.Staged s) : ¬ f.Published s := fun h' ↦ by
  simpa [h.1] using h'.1

theorem Untouched.staged {s s' : MemoryStore} (h : f.Untouched s s') (hs : f.Staged s) :
    f.Staged s' :=
  ⟨h.1.trans hs.1, h.2.trans hs.2⟩

theorem Untouched.published {s s' : MemoryStore} (h : f.Untouched s s') (hs : f.Published s) :
    f.Published s' :=
  ⟨h.1.trans hs.1, h.2.trans hs.2⟩

theorem Untouched.allows {s s' : MemoryStore} (h : f.Untouched s s') : f.rule.allows s s' :=
  ⟨fun hs ↦ .inl (h.staged hs), h.published⟩

/-! ## Replies -/

/-- Moving a staged file publishes it. -/
theorem Staged.rename {s : MemoryStore} (h : f.Staged s) :
    ∃ s', MemoryStore.answer (.rename f.source f.target) s = (.ok (), s') ∧ f.Published s' := by
  refine ⟨(s.insert f.target f.bytes).erase f.source, by simp [MemoryStore.answer, h.1], ?_, ?_⟩
  · simp [MemoryStore.get?_erase]
  · simp [MemoryStore.get?_erase, MemoryStore.get?_insert, f.apart.symm]

theorem Staged.head_source {s : MemoryStore} (h : f.Staged s) :
    MemoryStore.answer (.head f.source) s = (.ok f.bytes.size, s) := by
  simp [MemoryStore.answer, h.1]

theorem Published.rename {s : MemoryStore} (h : f.Published s) :
    MemoryStore.answer (.rename f.source f.target) s = (.error .notFound, s) := by
  simp [MemoryStore.answer, h.1]

theorem Published.head_source {s : MemoryStore} (h : f.Published s) :
    MemoryStore.answer (.head f.source) s = (.error .notFound, s) := by
  simp [MemoryStore.answer, h.1]

theorem Published.head_target {s : MemoryStore} (h : f.Published s) :
    MemoryStore.answer (.head f.target) s = (.ok f.bytes.size, s) := by
  simp [MemoryStore.answer, h.2]

/-! ## Attempts

Where the file stands at its target already, only replies on such a store have to be looked at;
where it may still wait, those on both kinds of store. -/

section Attempts

variable {α : Type} {credit : α} {post : MemoryStore → α → Prop}

theorem Published.keeps_ask_bind {r : Request} {next : Except StorageError r.Answer → Task α}
    {s : MemoryStore} (h : f.Published s)
    (hnext : ∀ s', f.Published s' → ∃ reply, MemoryStore.answer r s' = (reply, s') ∧
      (next (reply.mapError .request)).Keeps f.rule f.Staged credit post s') :
    (Task.ask r >>= next).Keeps f.rule f.Staged credit post s := by
  rw [Task.keeps_ask_bind]
  intro s' hs'
  obtain ⟨reply, hreply, hkeeps⟩ := hnext s' (hs'.2 h)
  rw [hreply]
  exact ⟨f.rule.refl _, fun hb ha ↦ absurd hb ha, hkeeps⟩

theorem Staged.keeps_ask_bind {r : Request} {next : Except StorageError r.Answer → Task α}
    {s : MemoryStore} (h : f.Staged s)
    (hstaged : ∀ s', f.Staged s' → ∃ reply s'', MemoryStore.answer r s' = (reply, s'') ∧
      (f.Staged s'' ∨ f.Published s'' ∧ (next (reply.mapError .request)).Settles credit) ∧
      (next (reply.mapError .request)).Keeps f.rule f.Staged credit post s'')
    (hpublished : ∀ s', f.Published s' →
      (Task.ask r >>= next).Keeps f.rule f.Staged credit post s') :
    (Task.ask r >>= next).Keeps f.rule f.Staged credit post s := by
  rw [Task.keeps_ask_bind]
  intro s' hs'
  rcases hs'.1 h with h' | h'
  · obtain ⟨reply, s'', hreply, hphase, hkeeps⟩ := hstaged s' h'
    rw [hreply]
    refine ⟨⟨fun _ ↦ hphase.imp id And.left, fun hp ↦ absurd hp h'.not_published⟩, ?_, hkeeps⟩
    exact fun _ ha ↦ hphase.elim (fun hb ↦ absurd hb ha) And.right
  · exact Task.keeps_ask_bind.mp (hpublished s' h') s' (f.rule.refl _)

/-- Whoever comes too late finds the file at its target. -/
theorem Published.keeps_commitRecovered {s : MemoryStore} (h : f.Published s)
    {next : Except CommitError Unit → Task α}
    (hnext : ∀ s', f.Published s' → (next (.ok ())).Keeps f.rule f.Staged credit post s') :
    ((PendingFile.staged f.source f.target).commitRecovered >>= next).Keeps
      f.rule f.Staged credit post s := by
  rw [PendingFile.commitRecovered, Task.bind_assoc]
  refine h.keeps_ask_bind fun s₁ h₁ ↦ ⟨_, h₁.rename, ?_⟩
  simp only [Except.mapError, StorageError.isNotFound, if_true, Task.objectExists, Task.bind_assoc]
  exact h₁.keeps_ask_bind fun s₂ h₂ ↦ ⟨_, h₂.head_target, hnext s₂ h₂⟩

/-- Publishing a file that was found goes well, whoever is faster. -/
theorem Staged.keeps_commitRecovered {s : MemoryStore} (h : f.Staged s)
    {next : Except CommitError Unit → Task α} (hcredit : (next (.ok ())).Settles credit)
    (hnext : ∀ s', f.Published s' → (next (.ok ())).Keeps f.rule f.Staged credit post s') :
    ((PendingFile.staged f.source f.target).commitRecovered >>= next).Keeps
      f.rule f.Staged credit post s := by
  have hlate := fun s' (hs' : f.Published s') ↦ hs'.keeps_commitRecovered hnext
  rw [PendingFile.commitRecovered, Task.bind_assoc]
  simp only [PendingFile.commitRecovered, Task.bind_assoc] at hlate
  refine h.keeps_ask_bind (fun s₁ h₁ ↦ ?_) hlate
  obtain ⟨s₂, hreply, h₂⟩ := h₁.rename
  exact ⟨_, s₂, hreply, .inr ⟨h₂, .emit hcredit⟩, hnext s₂ h₂⟩

end Attempts

/-- The token leads to the file. -/
structure Named (f : Transfer) (t : PendingToken) : Prop where
  places : t.places = .ok (f.source, f.target)
  size : t.size = f.bytes.size

/-- What an attempt that ends has to show for it. -/
def attempted (f : Transfer) (s : MemoryStore) (result : Except FailedCommit Finish) : Prop :=
  result = .ok .committed ∧ f.Published s

variable {t : PendingToken} {c : Committable}

theorem Published.keeps_finish {s : MemoryStore} (h : f.Published s) (ht : f.Named t)
    (hc : c.token = .pending t) :
    c.finish.Keeps f.rule f.Staged (.ok .committed) f.attempted s := by
  simp only [Committable.finish, hc, Token.finish, PendingToken.recover, ht.places, Task.bind_assoc]
  refine h.keeps_ask_bind fun s₁ h₁ ↦ ⟨_, h₁.head_source, ?_⟩
  simp only [Except.mapError, StorageError.isNotFound, if_true, Task.bind_assoc]
  refine h₁.keeps_ask_bind fun s₂ h₂ ↦ ⟨_, h₂.head_target, ?_⟩
  simp only [Except.mapError, ht.size, if_true, Task.pure_eq, Task.done_bind,
    PendingFile.commitRecovered]
  exact fun s₃ h₃ ↦ ⟨rfl, h₃.2 h₂⟩

/-- An attempt at a file that waits goes well: at its first request the file still waits or stands
at its target already, and so on. -/
theorem Staged.keeps_finish {s : MemoryStore} (h : f.Staged s) (ht : f.Named t)
    (hc : c.token = .pending t) :
    c.finish.Keeps f.rule f.Staged (.ok .committed) f.attempted s := by
  have hlate := fun s' (hs' : f.Published s') ↦ hs'.keeps_finish ht hc
  simp only [Committable.finish, hc, Token.finish, PendingToken.recover, ht.places,
    Task.bind_assoc] at hlate ⊢
  refine h.keeps_ask_bind (fun s₁ h₁ ↦ ?_) hlate
  refine ⟨_, s₁, h₁.head_source, .inl h₁, ?_⟩
  simp only [Except.mapError, ht.size, if_true, Task.pure_eq, Task.done_bind, Task.bind_assoc]
  exact h₁.keeps_commitRecovered .done fun s₂ h₂ s₃ h₃ ↦ ⟨rfl, h₃.2 h₂⟩

/-- What the writer that closed the file has to show when it has tried to publish it. -/
def handed (f : Transfer) (s : MemoryStore) (result : Except CommitError Unit) : Prop :=
  (result = .ok () ∨ result = .error (.publish f.source f.target (.request .notFound))) ∧
    f.Published s

theorem Published.keeps_commit {s : MemoryStore} (h : f.Published s) :
    (PendingFile.staged f.source f.target).commit.Keeps f.rule f.Staged (.ok ()) f.handed s := by
  refine h.keeps_ask_bind fun s₁ h₁ ↦ ⟨_, h₁.rename, ?_⟩
  exact fun s₂ h₂ ↦ ⟨.inr rfl, h₂.2 h₁⟩

theorem Staged.keeps_commit {s : MemoryStore} (h : f.Staged s) :
    (PendingFile.staged f.source f.target).commit.Keeps f.rule f.Staged (.ok ()) f.handed s := by
  refine h.keeps_ask_bind (fun s₁ h₁ ↦ ?_) fun s₁ h₁ ↦ h₁.keeps_commit
  obtain ⟨s₂, hreply, h₂⟩ := h₁.rename
  exact ⟨_, s₂, hreply, .inr ⟨h₂, .emit .done⟩, fun s₃ h₃ ↦ ⟨.inl rfl, h₃.2 h₂⟩⟩

/-- Where nobody else takes part, the writer publishes the file. -/
theorem Staged.value_commit {s : MemoryStore} (h : f.Staged s) :
    ((PendingFile.staged f.source f.target).commit.run MemoryStore.answer s).value = .ok () := by
  obtain ⟨s', hreply, -⟩ := h.rename
  change ((Task.call (.rename f.source f.target) _).run MemoryStore.answer s).value = _
  rw [Task.run_call, hreply]
  rfl

end Transfer

/-! ## The race -/

/-- What those who take part end with: the writer that closed the file, or an attempt through its
token. -/
abbrev Contestant.Result {κ : Type} : Option κ → Type
  | none => Except CommitError Unit
  | some _ => Except FailedCommit Finish

/-- The writer that closed a file and any number of attempts, all before their first request. -/
def Transfer.contest {κ : Type} (f : Transfer) (cs : κ → Committable) (s : MemoryStore) :
    Pool (Option κ) Contestant.Result where
  store := s
  tasks
    | none => (PendingFile.staged f.source f.target).commit
    | some k => (cs k).finish

namespace Transfer

variable {κ : Type} {f : Transfer} {t : PendingToken} {cs : κ → Committable} {s : MemoryStore}

/-- The value of those who move the file. -/
def credit : (i : Option κ) → Contestant.Result i
  | none => .ok ()
  | some _ => .ok .committed

/-- What those who take part have to show at their end. -/
def promise (f : Transfer) : (i : Option κ) → MemoryStore → Contestant.Result i → Prop
  | none => f.handed
  | some _ => f.attempted

theorem Staged.keeps_contest (hs : f.Staged s) (ht : f.Named t)
    (hcs : ∀ k, (cs k).token = .pending t) :
    (f.contest cs s).Keeps f.rule f.Staged credit f.promise
  | none => hs.keeps_commit
  | some k => hs.keeps_finish ht (hcs k)

variable [DecidableEq κ] {p : Pool (Option κ) Contestant.Result}

/-- The file is never lost and never doubled. -/
theorem Staged.staged_or_published (hs : f.Staged s) (ht : f.Named t)
    (hcs : ∀ k, (cs k).token = .pending t)
    (hp : Pool.Reaches f.Untouched (f.contest cs s) p) :
    f.Staged p.store ∨ f.Published p.store :=
  (Pool.Reaches.keeps (fun _ _ ↦ Untouched.allows) hp (hs.keeps_contest ht hcs)).1.1 hs

/-- An error of the writer that closed the file means that an attempt was faster. -/
theorem Staged.exists_settles (hs : f.Staged s) (ht : f.Named t)
    (hcs : ∀ k, (cs k).token = .pending t)
    (hp : Pool.Reaches f.Untouched (f.contest cs s) p) {e : CommitError}
    (he : p.tasks none = .done (.error e)) :
    e = .publish f.source f.target (.request .notFound) ∧ f.Published p.store ∧
      ∃ k, (p.tasks (some k)).Settles (.ok .committed) := by
  have hkeeps := hs.keeps_contest ht hcs
  have hout : ∀ s s', f.Untouched s s' → f.rule.allows s s' := fun _ _ ↦ Untouched.allows
  obtain ⟨hresult, hpublished⟩ := (Pool.Reaches.keeps hout hp hkeeps).2.of_done he
  refine ⟨by simpa using hresult, hpublished, ?_⟩
  rcases Pool.Reaches.phase_or_settles hout (fun _ _ ↦ Untouched.staged) hp hkeeps hs with
    hstaged | ⟨i, hi⟩
  · exact absurd hpublished hstaged.not_published
  · cases i with
    | none =>
      rw [he] at hi
      exact absurd (Task.settles_done.mp hi) (by simp [credit])
    | some k => exact ⟨k, hi⟩

end Transfer

namespace Allocator

/-- A file of an allocator on its way to its target. -/
def transfer {a : Allocator} (ha : a.InPlace) (spec : PartitionSpec) (sequence : Nat)
    (bytes : ByteArray) : Transfer where
  source := (a.slot spec sequence).staging
  target := (a.slot spec sequence).target
  bytes
  apart := ha.staging_ne_target a spec spec sequence sequence

end Allocator

theorem OpenFile.named_token {a : Allocator} (ha : a.InPlace) (spec : PartitionSpec)
    (sequence records : Nat) (bytes : ByteArray) :
    (a.transfer ha spec sequence bytes).Named
      ⟨(a.slot spec sequence).staging.text, (a.slot spec sequence).target.text, bytes.size,
        records⟩ where
  places := ha.places spec sequence bytes.size records
  size := rfl

/-- A file that is closed waits at its staging place. -/
theorem OpenFile.staged_close {a : Allocator} (ha : a.InPlace) (spec : PartitionSpec)
    (sequence records : Nat) (bytes : ByteArray) {before : MemoryStore}
    (hfresh : before.get? (a.slot spec sequence).target = none) :
    (a.transfer ha spec sequence bytes).Staged
      ((close ⟨a.slot spec sequence, bytes, records⟩ .commit).run
        MemoryStore.answer before).state := by
  have hne := ha.staging_ne_target a spec spec sequence sequence
  have hstate : ((close ⟨a.slot spec sequence, bytes, records⟩ .commit).run
    MemoryStore.answer before).state = before.insert (a.slot spec sequence).staging bytes := rfl
  rw [hstate, Transfer.Staged, MemoryStore.get?_insert, MemoryStore.get?_insert]
  exact ⟨if_pos rfl, (if_neg hne.symm).trans hfresh⟩

/-- Whoever publishes a closed file, in whatever order requests are made and wherever attempts are
given up: at every moment the file is at exactly one of its places, with its bytes. Attempts that
end have published it, and from then on it stands at its target. Only the writer that closed the
file can fail, and only because an attempt was faster. -/
theorem OpenFile.commit_race {κ : Type} [DecidableEq κ] (stagingDir : String) (attempt : Attempt)
    (naming : FileNaming) (run : String) (spec : PartitionSpec) (sequence records : Nat)
    (bytes : ByteArray) (before : MemoryStore) :
    let a := Allocator.new stagingDir attempt naming run
    let f := a.transfer (Allocator.inPlace_new stagingDir attempt naming run) spec sequence bytes
    let closed := (close ⟨a.slot spec sequence, bytes, records⟩ .commit).run
      MemoryStore.answer before
    before.get? f.target = none →
    ∃ c, closed.value = .ok c ∧ c.token.isPending = true ∧
      ∀ cs : κ → Committable, (∀ k, (cs k).token = c.token) →
      ∀ p, Pool.Reaches f.Untouched (f.contest cs closed.state) p →
        (f.Staged p.store ∨ f.Published p.store) ∧
        (∀ k result, p.tasks (some k) = .done result → result = .ok .committed) ∧
        (∀ e, p.tasks none = .done (.error e) →
          e = .publish f.source f.target (.request .notFound) ∧ f.Published p.store ∧
            ∃ k, (p.tasks (some k)).Settles (.ok .committed)) ∧
        ((∃ i result, p.tasks i = .done result) →
          ∀ p', Pool.Reaches f.Untouched p p' → p'.store.get? f.target = some bytes) := by
  intro a f closed hfresh
  have hnamed := OpenFile.named_token (Allocator.inPlace_new stagingDir attempt naming run) spec
    sequence records bytes
  refine ⟨_, rfl, rfl, fun cs hcs p hp ↦ ?_⟩
  have hstaged : f.Staged closed.state := OpenFile.staged_close _ spec sequence records bytes hfresh
  have hout : ∀ s s', f.Untouched s s' → f.rule.allows s s' := fun _ _ ↦ Transfer.Untouched.allows
  have hkeeps := (Pool.Reaches.keeps hout hp (hstaged.keeps_contest hnamed hcs)).2
  have hdone : ∀ i result, p.tasks i = .done result → f.Published p.store := by
    rintro (_ | k) result hi
    · exact (hkeeps.of_done hi).2
    · exact (hkeeps.of_done hi).2
  refine ⟨hstaged.staged_or_published hnamed hcs hp, fun k result hk ↦ (hkeeps.of_done hk).1,
    fun e he ↦ hstaged.exists_settles hnamed hcs hp he, ?_⟩
  rintro ⟨i, result, hi⟩ p' hp'
  exact ((Pool.Reaches.keeps hout hp' hkeeps).1.2 (hdone i result hi)).2

/-- The writer publishes its file while an attempt has yet to begin. -/
theorem OpenFile.commit_race_writer_first :
    let a := Allocator.new "_staging" ⟨0, 0⟩ ⟨"part", ".ndjson"⟩ "r"
    let bytes := "x".toUTF8
    let f := a.transfer (Allocator.inPlace_new _ _ _ _) [("p", "1")] 0 bytes
    let closed := (close ⟨a.slot [("p", "1")] 0, bytes, 1⟩ .commit).run
      MemoryStore.answer .empty
    MemoryStore.empty.get? f.target = none ∧ ∃ c : Committable, closed.value = .ok c ∧
      ∃ p, Pool.Reaches f.Untouched (f.contest (fun _ : Unit ↦ c) closed.state) p ∧
        p.tasks none = .done (.ok ()) ∧ p.tasks (some ()) = c.finish ∧
        ∀ p', Pool.Reaches f.Untouched p p' → p'.store.get? f.target = some bytes := by
  intro a bytes f closed
  refine ⟨MemoryStore.get?_empty _, ?_⟩
  obtain ⟨c, hc, -, hrace⟩ := OpenFile.commit_race (κ := Unit) "_staging" ⟨0, 0⟩
    ⟨"part", ".ndjson"⟩ "r" [("p", "1")] 0 1 bytes .empty (MemoryStore.get?_empty _)
  have hstaged : f.Staged closed.state :=
    OpenFile.staged_close _ _ _ _ _ (MemoryStore.get?_empty _)
  obtain ⟨p, hp, hwriter, hattempt⟩ : ∃ p,
      Pool.Reaches f.Untouched (f.contest (fun _ : Unit ↦ c) closed.state) p ∧
        p.tasks none = .done (.ok ()) ∧ p.tasks (some ()) = c.finish := by
    refine ⟨_, Pool.reaches_run f.Untouched (f.contest (fun _ ↦ c) closed.state) none, ?_, ?_⟩
    · simp [hstaged.value_commit, Transfer.contest]
    · simp [Transfer.contest]
  exact ⟨c, hc, p, hp, hwriter, hattempt,
    (hrace (fun _ ↦ c) (fun _ ↦ rfl) p hp).2.2.2 ⟨none, _, hwriter⟩⟩

end TableSink
