import TableSink.Commit.Batch
import TableSink.File.Open
import TableSink.Proofs.Path.Slot
import TableSink.Proofs.Storage.Mishap

/-!
# What becomes of one file

Closing a file, publishing it through its token and removing it, each said once: what it ends with
and what it does to the store, for every way in which the requests on the way may go wrong. Nothing
behind this file looks at single requests any more.
-/

namespace TableSink

variable {mishaps : Mishap → Prop} {s s' : MemoryStore} {source target : ObjectPath}

open MemoryStore (Replies Updated Moved)

theorem StorageError.isNotFound_request {fault : StoreFault} (h : fault ≠ .notFound) :
    (StorageError.request fault).isNotFound = false := by
  cases fault with
  | notFound => exact absurd rfl h
  | invalidPath => rfl
  | failed => rfl

/-- A closed file is staged; one that could not be closed may be. -/
theorem OpenFile.ends_close {f : OpenFile} {kind : CloseKind}
    {result : Except WriteError Committable}
    (h : (f.close kind).Ends (Replies mishaps) s result s') :
    result = .ok { bucket := f.slot.bucket, token := f.token kind } ∧
        Updated s f.slot.staging (some f.buffer) s' ∨
      (∃ e, result = .error (.stage f.slot.staging e)) ∧
        (s' = s ∧ mishaps .refusal ∨
          Updated s f.slot.staging (some f.buffer) s' ∧ mishaps .unheard) := by
  obtain ⟨reply, s₁, hreply, h₁⟩ := Task.ends_ask_bind.mp h
  clear h
  rcases hreply.put with ⟨rfl, hs₁⟩ | ⟨fault, rfl, hs₁⟩
  · obtain ⟨rfl, rfl⟩ := Task.ends_report_done.mp h₁
    exact .inl ⟨rfl, hs₁⟩
  · obtain ⟨rfl, rfl⟩ := Task.ends_done.mp h₁
    exact .inr ⟨⟨_, rfl⟩, hs₁⟩

/-- Whether there is an object is told, or the look at it fails. -/
theorem Task.ends_objectExists {path : ObjectPath} {result : Except StorageError Bool}
    (h : (objectExists path).Ends (Replies mishaps) s result s') : s' = s ∧
      ((∃ data, s.get? path = some data ∧ result = .ok true) ∨
        s.get? path = none ∧ result = .ok false ∨
        (∃ e, result = .error e) ∧ ∃ m, mishaps m) := by
  obtain ⟨reply, s₁, hreply, h₁⟩ := ends_ask_bind.mp h
  clear h
  obtain ⟨rfl, ⟨data, hdata, rfl⟩ | ⟨hpath, rfl⟩ | ⟨fault, hfault, rfl, hm⟩⟩ := hreply.head
  · obtain ⟨rfl, rfl⟩ := ends_done.mp h₁
    exact ⟨rfl, .inl ⟨data, hdata, rfl⟩⟩
  · obtain ⟨rfl, rfl⟩ := ends_done.mp h₁
    exact ⟨rfl, .inr (.inl ⟨hpath, rfl⟩)⟩
  · simp only [Except.mapError, StorageError.isNotFound_request hfault] at h₁
    obtain ⟨rfl, rfl⟩ := ends_done.mp h₁
    exact ⟨rfl, .inr (.inr ⟨⟨_, rfl⟩, hm⟩)⟩

/-! ## Publishing -/

/-- The token of a file leads back to both of its places. -/
theorem Allocator.InPlace.places {a : Allocator} (ha : a.InPlace) (spec : PartitionSpec)
    (sequence size records : Nat) :
    PendingToken.places ⟨(a.slot spec sequence).staging.text, (a.slot spec sequence).target.text,
      size, records⟩ = .ok ((a.slot spec sequence).staging, (a.slot spec sequence).target) := by
  simp only [PendingToken.places, (ha.written_staging spec sequence).readPath_text,
    (a.written_target spec sequence).readPath_text]
  rfl

/-- A file of this size waits, or it stands at its target and nothing waits. -/
def Finishable (source target : ObjectPath) (size : Nat) (s : MemoryStore) : Prop :=
  (∃ data, s.get? source = some data ∧ data.size = size) ∨
    s.get? source = none ∧ ∃ data, s.get? target = some data ∧ data.size = size

theorem finishable_of_source {size : Nat} {data : ByteArray} (hdata : s.get? source = some data) :
    Finishable source target size s ↔ data.size = size := by
  simp [Finishable, hdata]

theorem finishable_of_target {size : Nat} {data : ByteArray} (hsource : s.get? source = none)
    (hdata : s.get? target = some data) : Finishable source target size s ↔ data.size = size := by
  simp [Finishable, hsource, hdata]

theorem not_finishable {size : Nat} (hsource : s.get? source = none)
    (htarget : s.get? target = none) : ¬ Finishable source target size s := by
  simp [Finishable, hsource, htarget]

/-- Looking for a file changes nothing, and finds it unless it is not there. -/
theorem PendingToken.ends_recover {t : PendingToken} (ht : t.places = .ok (source, target))
    {result : Except RecoveryError PendingFile}
    (h : t.recover.Ends (Replies mishaps) s result s') : s' = s ∧
    ((∃ data, s.get? source = some data ∧ data.size = t.size ∧
        result = .ok (.staged source target)) ∨
      s.get? source = none ∧ (∃ data, s.get? target = some data ∧ data.size = t.size) ∧
        result = .ok (.published target) ∨
      (∃ e, result = .error e) ∧ ((∃ m, mishaps m) ∨ ¬ Finishable source target t.size s)) := by
  simp only [recover, ht] at h
  obtain ⟨reply, s₁, hreply, h₁⟩ := Task.ends_ask_bind.mp h
  obtain ⟨rfl, ⟨data, hdata, rfl⟩ | ⟨hsource, rfl⟩ | ⟨fault, hfault, rfl, hm⟩⟩ := hreply.head
  · obtain ⟨rfl, rfl⟩ := Task.ends_done.mp h₁
    refine ⟨rfl, ?_⟩
    by_cases hsize : data.size = t.size
    · exact .inl ⟨data, hdata, hsize, if_pos hsize⟩
    · exact .inr (.inr ⟨⟨_, if_neg hsize⟩, .inr (mt (finishable_of_source hdata).mp hsize)⟩)
  · simp only [Except.mapError, StorageError.isNotFound, if_true] at h₁
    obtain ⟨reply, s₂, hreply, h₂⟩ := Task.ends_ask_bind.mp h₁
    obtain ⟨rfl, ⟨data, hdata, rfl⟩ | ⟨htarget, rfl⟩ | ⟨fault, hfault, rfl, hm⟩⟩ := hreply.head
    · obtain ⟨rfl, rfl⟩ := Task.ends_done.mp h₂
      refine ⟨rfl, ?_⟩
      by_cases hsize : data.size = t.size
      · exact .inr (.inl ⟨hsource, ⟨data, hdata, hsize⟩, if_pos hsize⟩)
      · exact .inr (.inr ⟨⟨_, if_neg hsize⟩,
          .inr (mt (finishable_of_target hsource hdata).mp hsize)⟩)
    · obtain ⟨rfl, rfl⟩ := Task.ends_done.mp h₂
      exact ⟨rfl, .inr (.inr ⟨⟨_, rfl⟩, .inr (not_finishable hsource htarget)⟩)⟩
    · obtain ⟨rfl, rfl⟩ := Task.ends_done.mp h₂
      exact ⟨rfl, .inr (.inr ⟨⟨_, rfl⟩, .inl hm⟩)⟩
  · simp only [Except.mapError, StorageError.isNotFound_request hfault] at h₁
    obtain ⟨rfl, rfl⟩ := Task.ends_done.mp h₁
    exact ⟨rfl, .inr (.inr ⟨⟨_, rfl⟩, .inl hm⟩)⟩

/-- What becomes of a file that waits and could not be moved: nothing, or it was copied. -/
def Stays (mishaps : Mishap → Prop) (s : MemoryStore) (target : ObjectPath) (data : ByteArray)
    (s' : MemoryStore) : Prop :=
  s' = s ∧ mishaps .refusal ∨ Updated s target (some data) s' ∧ mishaps .halfway

/-- To publish a file is to rename it. A rename that has failed counts all the same if there was
nothing to be moved and there is something at the target. -/
theorem PendingFile.ends_rename {result : Except CommitError Unit}
    (h : (staged source target).commitRecovered.Ends (Replies mishaps) s result s') :
    ∃ reply, Replies mishaps (.rename source target) s reply s' ∧
      (reply = .ok () ∧ result = .ok () ∨ ∃ fault, reply = .error fault ∧
        (fault = .notFound ∧ (∃ data, s'.get? target = some data) ∧ result = .ok () ∨
          ∃ e, result = .error e)) := by
  obtain ⟨reply, s₁, hreply, h₁⟩ := Task.ends_ask_bind.mp h
  cases reply with
  | ok _ =>
    obtain ⟨rfl, rfl⟩ := Task.ends_report_done.mp h₁
    exact ⟨_, hreply, .inl ⟨rfl, rfl⟩⟩
  | error fault =>
    by_cases hnot : fault = .notFound
    · subst hnot
      simp only [Except.mapError, StorageError.isNotFound, if_true, Task.ends_bind] at h₁
      obtain ⟨found, s₂, hexists, h₂⟩ := h₁
      obtain ⟨rfl, ⟨data, hdata, rfl⟩ | ⟨-, rfl⟩ | ⟨⟨e, rfl⟩, -⟩⟩ :=
        Task.ends_objectExists hexists
      · obtain ⟨rfl, rfl⟩ := Task.ends_report_done.mp h₂
        exact ⟨_, hreply, .inr ⟨_, rfl, .inl ⟨rfl, ⟨data, hdata⟩, rfl⟩⟩⟩
      · obtain ⟨rfl, rfl⟩ := Task.ends_done.mp h₂
        exact ⟨_, hreply, .inr ⟨_, rfl, .inr ⟨_, rfl⟩⟩⟩
      · obtain ⟨rfl, rfl⟩ := Task.ends_done.mp h₂
        exact ⟨_, hreply, .inr ⟨_, rfl, .inr ⟨_, rfl⟩⟩⟩
    · simp only [Except.mapError, StorageError.isNotFound_request hnot] at h₁
      obtain ⟨rfl, rfl⟩ := Task.ends_done.mp h₁
      exact ⟨_, hreply, .inr ⟨_, rfl, .inr ⟨_, rfl⟩⟩⟩

/-- A file that waits is moved to its target, or it still waits. -/
theorem PendingFile.ends_commitRecovered {data : ByteArray} (hdata : s.get? source = some data)
    {result : Except CommitError Unit}
    (h : (staged source target).commitRecovered.Ends (Replies mishaps) s result s') :
    Moved s source target data s' ∧
        (result = .ok () ∨ (∃ e, result = .error e) ∧ mishaps .unheard) ∨
      (∃ e, result = .error e) ∧ Stays mishaps s target data s' := by
  obtain ⟨reply, hreply, hresult⟩ := ends_rename h
  rcases hreply.rename with ⟨data', hdata', hrenamed⟩ | ⟨hsource, -⟩
  · obtain rfl := Option.some.inj (hdata.symm.trans hdata')
    rcases hrenamed with ⟨hmoved, rfl | ⟨fault, rfl, hm⟩⟩ | ⟨fault, rfl, hstuck⟩
    · obtain ⟨-, rfl⟩ | ⟨_, hfault, -⟩ := hresult
      · exact .inl ⟨hmoved, .inl rfl⟩
      · cases hfault
    · obtain ⟨hok, -⟩ | ⟨_, -, ⟨-, -, rfl⟩ | herror⟩ := hresult
      · cases hok
      · exact .inl ⟨hmoved, .inl rfl⟩
      · exact .inl ⟨hmoved, .inr ⟨herror, hm⟩⟩
    · -- A file that was not moved is not taken for one that was: if nothing is said to be found,
      -- it is the target that is missing.
      have herror : ∃ e, result = .error e := by
        obtain ⟨hok, -⟩ | ⟨fault', hsame, ⟨hnot, ⟨_, hthere⟩, -⟩ | herror⟩ := hresult
        · cases hok
        · obtain rfl := Except.error.inj hsame
          cases hstuck with
          | refused _ htarget => simp [htarget hnot] at hthere
          | copied _ hfault _ => exact absurd hnot hfault
        · exact herror
      cases hstuck with
      | refused hm _ => exact .inr ⟨herror, .inl ⟨rfl, hm⟩⟩
      | copied hm _ hs => exact .inr ⟨herror, .inr ⟨hs, hm⟩⟩
  · simp [hdata] at hsource

/-- A file with a pending token is moved, or it was moved before, or it still waits, or nothing has
happened. -/
theorem PendingToken.ends_finish {t : PendingToken} (ht : t.places = .ok (source, target))
    {result : Except CommitFailure Finish}
    (h : (Token.pending t).finish.Ends (Replies mishaps) s result s') :
    (∃ data, s.get? source = some data ∧ data.size = t.size ∧
        (Moved s source target data s' ∧
            (result = .ok .committed ∨ (∃ e, result = .error e) ∧ mishaps .unheard) ∨
          (∃ e, result = .error e) ∧ Stays mishaps s target data s')) ∨
      (s.get? source = none ∧ (∃ data, s.get? target = some data ∧ data.size = t.size) ∧
        result = .ok .committed ∧ s' = s) ∨
      (∃ e, result = .error e) ∧ s' = s ∧
        ((∃ m, mishaps m) ∨ ¬ Finishable source target t.size s) := by
  simp only [Token.finish, Task.ends_bind] at h
  obtain ⟨found, s₁, hrecover, h⟩ := h
  obtain ⟨rfl, ⟨data, hdata, hsize, rfl⟩ | ⟨hsource, htarget, rfl⟩ | ⟨⟨e, rfl⟩, hm⟩⟩ :=
    ends_recover ht hrecover
  · simp only [Task.ends_bind] at h
    obtain ⟨moved, s₂, hcommit, h⟩ := h
    refine .inl ⟨data, hdata, hsize, ?_⟩
    rcases PendingFile.ends_commitRecovered hdata hcommit with
      ⟨hmoved, rfl | ⟨⟨e, rfl⟩, hm⟩⟩ | ⟨⟨e, rfl⟩, hstays⟩
    · obtain ⟨rfl, rfl⟩ := Task.ends_done.mp h
      exact .inl ⟨hmoved, .inl rfl⟩
    · obtain ⟨rfl, rfl⟩ := Task.ends_report_done.mp h
      exact .inl ⟨hmoved, .inr ⟨⟨_, rfl⟩, hm⟩⟩
    · obtain ⟨rfl, rfl⟩ := Task.ends_report_done.mp h
      exact .inr ⟨⟨_, rfl⟩, hstays⟩
  · obtain ⟨rfl, rfl⟩ := Task.ends_done.mp h
    exact .inr (.inl ⟨hsource, htarget, rfl, rfl⟩)
  · obtain ⟨rfl, rfl⟩ := Task.ends_report_done.mp h
    exact .inr (.inr ⟨⟨_, rfl⟩, rfl, hm⟩)

/-! ## Removing -/

/-- A file with an in-progress token is gone, or nothing has happened. That it is gone may not have
got through. -/
theorem InProgressToken.ends_cleanup {t : InProgressToken} {path : ObjectPath}
    (ht : readPath t.staging = .ok path) {result : Except CommitError Bool}
    (h : t.cleanup.Ends (Replies mishaps) s result s') :
    Updated s path none s' ∧
        ((∃ found, result = .ok found) ∨ (∃ e, result = .error e) ∧ ∃ m, mishaps m) ∨
      (∃ e, result = .error e) ∧ s' = s ∧ ∃ m, mishaps m := by
  simp only [cleanup, ht, Task.ends_bind] at h
  obtain ⟨found, s₁, hexists, h₁⟩ := h
  obtain ⟨rfl, ⟨-, -, rfl⟩ | ⟨hpath, rfl⟩ | ⟨⟨e, rfl⟩, hm⟩⟩ := Task.ends_objectExists hexists
  · obtain ⟨reply, s₂, hreply, h₂⟩ := Task.ends_ask_bind.mp h₁
    clear h₁
    rcases hreply.delete with ⟨hs₂, rfl | ⟨fault, rfl, hm⟩⟩ | ⟨fault, hfault, rfl, rfl, hm⟩
    · obtain ⟨rfl, rfl⟩ := Task.ends_report_done.mp h₂
      exact .inl ⟨hs₂, .inl ⟨_, rfl⟩⟩
    · simp only [Except.mapError] at h₂
      split at h₂
      · obtain ⟨rfl, rfl⟩ := Task.ends_report_done.mp h₂
        exact .inl ⟨hs₂, .inl ⟨_, rfl⟩⟩
      · obtain ⟨rfl, rfl⟩ := Task.ends_done.mp h₂
        exact .inl ⟨hs₂, .inr ⟨⟨_, rfl⟩, hm⟩⟩
    · simp only [Except.mapError, StorageError.isNotFound_request hfault] at h₂
      obtain ⟨rfl, rfl⟩ := Task.ends_done.mp h₂
      exact .inr ⟨⟨_, rfl⟩, rfl, _, hm⟩
  · obtain ⟨rfl, rfl⟩ := Task.ends_report_done.mp h₁
    exact .inl ⟨.of_get?_eq hpath, .inl ⟨_, rfl⟩⟩
  · obtain ⟨rfl, rfl⟩ := Task.ends_done.mp h₁
    exact .inr ⟨⟨_, rfl⟩, rfl, hm⟩

theorem InProgressToken.ends_finish {t : InProgressToken} {path : ObjectPath}
    (ht : readPath t.staging = .ok path) {result : Except CommitFailure Finish}
    (h : (Token.inProgress t).finish.Ends (Replies mishaps) s result s') :
    Updated s path none s' ∧
        (result = .ok .discarded ∨ (∃ e, result = .error e) ∧ ∃ m, mishaps m) ∨
      (∃ e, result = .error e) ∧ s' = s ∧ ∃ m, mishaps m := by
  simp only [Token.finish, Task.ends_bind] at h
  obtain ⟨removed, s₁, hcleanup, h⟩ := h
  rcases ends_cleanup ht hcleanup with ⟨hs₁, ⟨found, rfl⟩ | ⟨⟨e, rfl⟩, hm⟩⟩ | ⟨⟨e, rfl⟩, rfl, hm⟩
  · obtain ⟨rfl, rfl⟩ := Task.ends_done.mp h
    exact .inl ⟨hs₁, .inl rfl⟩
  · obtain ⟨rfl, rfl⟩ := Task.ends_report_done.mp h
    exact .inl ⟨hs₁, .inr ⟨⟨_, rfl⟩, hm⟩⟩
  · obtain ⟨rfl, rfl⟩ := Task.ends_report_done.mp h
    exact .inr ⟨⟨_, rfl⟩, rfl, hm⟩

end TableSink
