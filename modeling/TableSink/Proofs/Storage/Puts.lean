import TableSink.Proofs.Storage.Mishap

/-!
# Stores as far as puts go

For what becomes of open files it only matters how a store takes puts. `PutsWhole` is all that is
asked of it: a put that succeeds stores the object, and one that fails does nothing. When it fails,
and why, is up to the store.

`Task.exchanges` is everything that a store is asked while a task runs, with the replies, so it can
be said how often something was tried, and that all went well.
-/

namespace TableSink

variable {σ α : Type}

/-- A store that shows its objects through `get?` takes an object as a whole or not at all. -/
structure PutsWhole (answer : (r : Request) → σ → r.Reply × σ)
    (get? : σ → ObjectPath → Option ByteArray) : Prop where
  stored (path : ObjectPath) (data : ByteArray) (s : σ) :
    (answer (.put path data) s).1 = .ok () →
      ∀ q, get? (answer (.put path data) s).2 q = if q = path then some data else get? s q
  refused (path : ObjectPath) (data : ByteArray) (s : σ) (fault : StoreFault) :
    (answer (.put path data) s).1 = .error fault →
      ∀ q, get? (answer (.put path data) s).2 q = get? s q

namespace MemoryStore

/-- A store in memory that refuses some requests. -/
theorem putsWhole_refusing (refuses : Request → Bool) : PutsWhole (refusing refuses) get? where
  stored path data s hok q := by
    unfold refusing at hok ⊢
    split at hok
    · cases hok
    · next hr =>
      rw [if_neg hr]
      exact s.get?_insert path q data
  refused path data s fault hfault q := by
    unfold refusing at hfault ⊢
    split at hfault
    · next hr => rw [if_pos hr]
    · cases hfault

theorem putsWhole_answer : PutsWhole answer get? where
  stored path data s _ q := s.get?_insert path q data
  refused _ _ _ _ hfault := nomatch hfault

end MemoryStore

/-- Something that a store was asked, and its reply. -/
abbrev Exchange := (r : Request) × r.Reply

namespace Task

variable {answer : (r : Request) → σ → r.Reply × σ}

theorem run_ask (r : Request) (s : σ) : (ask r).run answer s =
    ⟨(answer r s).1.mapError .request, (answer r s).2,
      [.request r.operation (r.succeeded (answer r s).1)]⟩ := rfl

/-- What a store is asked while a task runs, in order, with its replies. -/
def exchanges (answer : (r : Request) → σ → r.Reply × σ) : Task α → σ → List Exchange
  | .done _, _ => []
  | .emit _ t, s => t.exchanges answer s
  | .call r next, s =>
    let reply := answer r s
    ⟨r, reply.1⟩ :: (next reply.1).exchanges answer reply.2

@[simp] theorem exchanges_done (a : α) (s : σ) : (Task.done a).exchanges answer s = [] := rfl

@[simp] theorem exchanges_emit (e : Event) (t : Task α) (s : σ) :
    (Task.emit e t).exchanges answer s = t.exchanges answer s := rfl

theorem exchanges_ask (r : Request) (s : σ) :
    (ask r).exchanges answer s = [⟨r, (answer r s).1⟩] := rfl

/-- First what one task asks, then what the other one asks from where the first one ended. -/
theorem exchanges_bind {β : Type} (t : Task α) (f : α → Task β) (s : σ) :
    (t >>= f).exchanges answer s = t.exchanges answer s ++
      (f (t.run answer s).value).exchanges answer (t.run answer s).state := by
  induction t generalizing s with
  | done a => rfl
  | emit e t ih => exact ih s
  | call r next ih => exact congrArg (_ :: ·) (ih _ _)

end Task

end TableSink
