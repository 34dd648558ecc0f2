import TableSink.Proofs.Storage.Ends
import TableSink.Storage.Memory

/-!
# Stores on which requests go wrong

A request to a store in memory can go wrong in three ways: it is refused and nothing happens, it is
carried out and its success does not get through, or a rename gets no further than the copy. What
may go wrong is a parameter, `Mishap → Prop`, so that it can be said what follows from what.

That an object is missing is an answer. Such a store never gives it when all objects that the
request is about are there, but where one of them is missing, a failure may look like that too: a
rename that was carried out, and is reported to have found nothing; or one that was not, and whose
target has no object yet.

What a request may do is said once for each kind, by its effect on `MemoryStore.get?`.
-/

namespace TableSink

/-- A way in which a request goes wrong. -/
inductive Mishap where
  /-- The request is refused. -/
  | refusal
  /-- The request is carried out, and a failure is reported. -/
  | unheard
  /-- A rename has copied the object and not removed it, and a failure is reported. -/
  | halfway

/-- Nothing goes wrong. -/
def Mishap.none : Mishap → Prop := fun _ ↦ False

/-- One of the objects that the request is about is missing. A listing is about none of them, so
nothing is asked of it. -/
def Request.Lacks (s : MemoryStore) : Request → Prop
  | .get path | .head path | .put path _ | .delete path => s.get? path = none
  | .rename source target => s.get? source = none ∨ s.get? target = none
  | .list _ => True

namespace MemoryStore

variable {mishaps : Mishap → Prop} {s s' : MemoryStore}

/-- What a store may reply, given what may go wrong. -/
inductive Replies (mishaps : Mishap → Prop) : Replying MemoryStore
  | regular (r : Request) (s : MemoryStore) : Replies mishaps r s (answer r s).1 (answer r s).2
  | refused {r : Request} {s : MemoryStore} {fault : StoreFault} (h : mishaps .refusal)
    (hfault : fault = .notFound → r.Lacks s) : Replies mishaps r s (.error fault) s
  | unheard {r : Request} {s : MemoryStore} {fault : StoreFault} (h : mishaps .unheard)
    (hfault : fault = .notFound → r.Lacks (answer r s).2) :
    Replies mishaps r s (.error fault) (answer r s).2
  | halfway {source target : ObjectPath} {s : MemoryStore} {data : ByteArray} {fault : StoreFault}
    (h : mishaps .halfway) (hfault : fault ≠ .notFound) (hsource : s.get? source = some data) :
    Replies mishaps (.rename source target) s (.error fault) (s.insert target data)

/-- Whatever a rename finds, nothing is at its source after it; so a failure of it may look as if
nothing had been there. -/
theorem lacks_rename (source target : ObjectPath) (s : MemoryStore) :
    (Request.rename source target).Lacks (answer (.rename source target) s).2 := by
  refine .inl ?_
  simp only [answer]
  cases hsource : s.get? source with
  | none => exact hsource
  | some data => exact (get?_erase _ _ _).trans (if_pos rfl)

/-- A store that differs from another one in what `get?` gives at one path. -/
def Updated (s : MemoryStore) (path : ObjectPath) (data : Option ByteArray) (s' : MemoryStore) :
    Prop :=
  ∀ q, s'.get? q = if q = path then data else s.get? q

/-- An object was given another path. -/
def Moved (s : MemoryStore) (source target : ObjectPath) (data : ByteArray) (s' : MemoryStore) :
    Prop :=
  ∀ q, s'.get? q = if q = source then none else if q = target then some data else s.get? q

theorem Updated.of_get?_eq {path : ObjectPath} {data : Option ByteArray}
    (h : s.get? path = data) : Updated s path data s := by
  intro q
  split
  · next hq => rw [hq, h]
  · rfl

/-- Storing an object succeeds, or a failure is reported and it is stored or not. -/
theorem Replies.put {path : ObjectPath} {data : ByteArray} {reply : (Request.put path data).Reply}
    (h : Replies mishaps (.put path data) s reply s') :
    reply = .ok () ∧ Updated s path (some data) s' ∨
      ∃ fault, reply = .error fault ∧
        (s' = s ∧ mishaps .refusal ∨ Updated s path (some data) s' ∧ mishaps .unheard) := by
  cases h with
  | regular => exact .inl ⟨rfl, fun q ↦ s.get?_insert path q data⟩
  | refused h _ => exact .inr ⟨_, rfl, .inl ⟨rfl, h⟩⟩
  | unheard h _ => exact .inr ⟨_, rfl, .inr ⟨fun q ↦ s.get?_insert path q data, h⟩⟩

/-- Looking at an object says whether it is there, or fails. -/
theorem Replies.head {path : ObjectPath} {reply : (Request.head path).Reply}
    (h : Replies mishaps (.head path) s reply s') : s' = s ∧
    ((∃ data, s.get? path = some data ∧ reply = .ok data.size) ∨
      s.get? path = .none ∧ reply = .error .notFound ∨
      ∃ fault ≠ .notFound, reply = .error fault ∧ ∃ m, mishaps m) := by
  have hanswer : (answer (.head path) s).2 = s := by
    simp only [answer]
    cases s.get? path <;> rfl
  have hfailed : ∀ fault : StoreFault, (fault = .notFound → s.get? path = .none) →
      (∃ m, mishaps m) →
      s.get? path = .none ∧ (.error fault : Except StoreFault Nat) = .error .notFound ∨
        ∃ fault' ≠ .notFound, (.error fault : Except StoreFault Nat) = .error fault' ∧
          ∃ m, mishaps m := by
    intro fault hfault hm
    by_cases hnot : fault = .notFound
    · exact .inl ⟨hfault hnot, congrArg _ hnot⟩
    · exact .inr ⟨fault, hnot, rfl, hm⟩
  cases h with
  | regular =>
    refine ⟨hanswer, ?_⟩
    simp only [answer]
    cases hpath : s.get? path with
    | none => exact .inr (.inl ⟨rfl, rfl⟩)
    | some data => exact .inl ⟨data, rfl, rfl⟩
  | refused h hfault => exact ⟨rfl, .inr (hfailed _ hfault ⟨_, h⟩)⟩
  | unheard h hfault =>
    rw [hanswer] at hfault
    exact ⟨hanswer, .inr (hfailed _ hfault ⟨_, h⟩)⟩

/-- An object is removed, whatever is reported, or it is not, and then it is not reported to be
missing unless it is. -/
theorem Replies.delete {path : ObjectPath} {reply : (Request.delete path).Reply}
    (h : Replies mishaps (.delete path) s reply s') :
    Updated s path .none s' ∧ (reply = .ok () ∨ ∃ fault, reply = .error fault ∧ ∃ m, mishaps m) ∨
      ∃ fault ≠ .notFound, reply = .error fault ∧ s' = s ∧ mishaps .refusal := by
  cases h with
  | regular => exact .inl ⟨fun q ↦ s.get?_erase path q, .inl rfl⟩
  | @refused _ _ fault h hfault =>
    by_cases hnot : fault = .notFound
    · exact .inl ⟨.of_get?_eq (hfault hnot), .inr ⟨_, rfl, _, h⟩⟩
    · exact .inr ⟨_, hnot, rfl, rfl, h⟩
  | unheard h _ => exact .inl ⟨fun q ↦ s.get?_erase path q, .inr ⟨_, rfl, _, h⟩⟩

/-- What a failed rename leaves of an object and of its target. -/
inductive Stuck (mishaps : Mishap → Prop) (s : MemoryStore) (target : ObjectPath)
    (data : ByteArray) (fault : StoreFault) : MemoryStore → Prop
  | refused (h : mishaps .refusal) (hfault : fault = .notFound → s.get? target = .none) :
    Stuck mishaps s target data fault s
  | copied {s' : MemoryStore} (h : mishaps .halfway) (hfault : fault ≠ .notFound)
    (hs : Updated s target (some data) s') : Stuck mishaps s target data fault s'

/-- An object that is there is moved, maybe without notice, or it is stuck; one that is not there is
reported as missing, unless something else is reported. -/
theorem Replies.rename {source target : ObjectPath} {reply : (Request.rename source target).Reply}
    (h : Replies mishaps (.rename source target) s reply s') :
    (∃ data, s.get? source = some data ∧
      (Moved s source target data s' ∧
          (reply = .ok () ∨ ∃ fault, reply = .error fault ∧ mishaps .unheard) ∨
        ∃ fault, reply = .error fault ∧ Stuck mishaps s target data fault s')) ∨
    s.get? source = .none ∧ s' = s ∧ ∃ fault, reply = .error fault := by
  have hmoved : ∀ data, s.get? source = some data →
      Moved s source target data (answer (.rename source target) s).2 := by
    intro data hdata q
    simp only [answer, hdata, get?_erase, get?_insert]
  have hstayed : s.get? source = .none → answer (.rename source target) s = (.error .notFound, s) :=
    fun hsource ↦ by simp only [answer, hsource]
  cases hsource : s.get? source with
  | none =>
    refine .inr ⟨rfl, ?_⟩
    cases h with
    | regular => exact ⟨congrArg Prod.snd (hstayed hsource), _, congrArg Prod.fst (hstayed hsource)⟩
    | refused _ _ => exact ⟨rfl, _, rfl⟩
    | unheard _ _ => exact ⟨congrArg Prod.snd (hstayed hsource), _, rfl⟩
    | halfway _ _ hdata =>
      rw [hsource] at hdata
      cases hdata
  | some data =>
    refine .inl ⟨data, rfl, ?_⟩
    cases h with
    | regular => exact .inl ⟨hmoved data hsource, .inl (by simp [answer, hsource])⟩
    | refused h hfault =>
      refine .inr ⟨_, rfl, .refused h fun hnot ↦ (hfault hnot).resolve_left ?_⟩
      simp [hsource]
    | unheard h _ => exact .inl ⟨hmoved data hsource, .inr ⟨_, rfl, h⟩⟩
    | halfway h hfault hdata =>
      obtain rfl := Option.some.inj (hsource.symm.trans hdata)
      exact .inr ⟨_, rfl, .copied h hfault fun q ↦ s.get?_insert target q data⟩

/-- Listing changes nothing, and succeeds, or fails. -/
theorem Replies.list {dir : ObjectPath} {reply : (Request.list dir).Reply}
    (h : Replies mishaps (.list dir) s reply s') : s' = s ∧
    (reply = .ok (s.below dir) ∨ ∃ fault, reply = .error fault ∧ ∃ m, mishaps m) := by
  cases h with
  | regular => exact ⟨rfl, .inl rfl⟩
  | refused h _ => exact ⟨rfl, .inr ⟨_, rfl, _, h⟩⟩
  | unheard h _ => exact ⟨rfl, .inr ⟨_, rfl, _, h⟩⟩

/-- The replies of a store that refuses some requests. -/
def refusing (refuses : Request → Bool) (r : Request) (s : MemoryStore) : r.Reply × MemoryStore :=
  if refuses r then (.error .failed, s) else answer r s

/-- What a store may reply that may refuse these requests, and no others. -/
inductive Refuses (bad : Request → Prop) : Replying MemoryStore
  | regular (r : Request) (s : MemoryStore) : Refuses bad r s (answer r s).1 (answer r s).2
  | refused {r : Request} {s : MemoryStore} {fault : StoreFault} (h : bad r)
    (hfault : fault ≠ .notFound) : Refuses bad r s (.error fault) s

theorem Refuses.mono {bad bad' : Request → Prop} {r : Request} {reply : r.Reply}
    (h : Refuses bad r s reply s') (hbad : ∀ r, bad r → bad' r) : Refuses bad' r s reply s' := by
  cases h with
  | regular => exact .regular _ _
  | refused h hfault => exact .refused (hbad _ h) hfault

theorem refuses_refusing (refuses : Request → Bool) (r : Request) (s : MemoryStore) :
    Refuses (refuses · = true) r s (refusing refuses r s).1 (refusing refuses r s).2 := by
  unfold refusing
  by_cases hr : refuses r = true
  · rw [if_pos hr]
    exact .refused hr (by decide)
  · rw [if_neg hr]
    exact .regular r s

/-- To refuse some requests is a mishap. -/
theorem Refuses.replies {bad : Request → Prop} {r : Request} {reply : r.Reply}
    (h : Refuses bad r s reply s') : Replies (· = .refusal) r s reply s' := by
  cases h with
  | regular => exact .regular _ _
  | refused _ hfault => exact .refused rfl fun hnot ↦ absurd hnot hfault

theorem replies_refusing (refuses : Request → Bool) (r : Request) (s : MemoryStore) :
    Replies (· = .refusal) r s (refusing refuses r s).1 (refusing refuses r s).2 :=
  (refuses_refusing refuses r s).replies

/-- Where nothing goes wrong, replies are certain. -/
theorem replies_none {r : Request} {reply : r.Reply} :
    Replies Mishap.none r s reply s' ↔ (reply, s') = answer r s := by
  constructor
  · rintro (_ | ⟨h, _⟩ | ⟨h, _⟩ | ⟨h, _, _⟩)
    · rfl
    · exact h.elim
    · exact h.elim
    · exact h.elim
  · intro h
    obtain ⟨rfl, rfl⟩ := Prod.mk.inj h
    exact .regular r s

end MemoryStore

/-- Where nothing goes wrong, a task ends as `Task.run` says. -/
theorem Task.ends_answer {α : Type} (t : Task α) (s : MemoryStore) :
    t.Ends (MemoryStore.Replies Mishap.none) s (t.run MemoryStore.answer s).value
      (t.run MemoryStore.answer s).state :=
  t.ends_run MemoryStore.answer .regular s

/-- Where nothing goes wrong, a task can end in one way only. -/
theorem Task.run_of_ends {α : Type} {t : Task α} {s s' : MemoryStore} {a : α}
    (h : t.Ends (MemoryStore.Replies Mishap.none) s a s') :
    (t.run MemoryStore.answer s).value = a ∧ (t.run MemoryStore.answer s).state = s' := by
  induction h with
  | done => exact ⟨rfl, rfl⟩
  | emit _ ih => exact ih
  | call hr _ ih =>
    rw [Task.run_call, ← MemoryStore.replies_none.mp hr]
    exact ih

end TableSink
