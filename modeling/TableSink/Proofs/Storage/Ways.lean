import TableSink.Proofs.Storage.Footprint
import TableSink.Proofs.Storage.Mishap

/-!
# Work that may go in several ways

A task goes one way on a store in memory. Where commits overlap, work may go in several: `Ways` says
what it may give and leave behind. It *refines* a task if it can be done, and if in every way it
gives what the task gives and leaves behind what the task leaves behind (`Ways.Refines`). What that
means depends on where the work goes on. Two stores are compared path by path, since the order in
which their objects were stored depends on the way (`MemoryStore.Alike`).
-/

namespace TableSink

open MemoryStore (Replies)

/-- Two stores that hold the same at every path. -/
abbrev MemoryStore.Alike (s s' : MemoryStore) : Prop := ∀ p, s.get? p = s'.get? p

/-- What work on a state may give and leave behind. -/
def Ways (σ α : Type) : Type := σ → α → σ → Prop

namespace Ways

variable {σ α β : Type}

instance : Monad (Ways σ) where
  pure a := fun s b s' ↦ b = a ∧ s' = s
  bind w f := fun s b s'' ↦ ∃ a s', w s a s' ∧ f a s' b s''

/-- A task goes the way that it goes where nothing goes wrong. -/
instance : MonadLift Task (Ways MemoryStore) := ⟨fun t s a s' ↦ t.Ends (Replies Mishap.none) s a s'⟩

/-- In every state that shows this store the work can be done, and every way in which it may go is
one in which the task goes on the store; what the work leaves behind shows what the task does. -/
structure Refines (shows : σ → MemoryStore → Prop) (w : Ways σ α) (t : Task α) (s₀ : MemoryStore) :
    Prop where
  possible : ∀ s, shows s s₀ → ∃ a s', w s a s'
  ends : ∀ s, shows s s₀ → ∀ a s', w s a s' →
    ∃ s₀', t.Ends (Replies Mishap.none) s₀ a s₀' ∧ shows s' s₀'

variable {shows : σ → MemoryStore → Prop} {t : Task α} {s₀ : MemoryStore}

theorem refines_pure (a : α) (s₀ : MemoryStore) : Refines shows (pure a) (pure a) s₀ where
  possible s _ := ⟨a, s, rfl, rfl⟩
  ends := by
    rintro s hs _ _ ⟨rfl, rfl⟩
    exact ⟨s₀, .done, hs⟩

/-- The second part of the work only has to do with what the first part of the task may end with. -/
theorem Refines.bind {w : Ways σ α} {f : α → Ways σ β} {g : α → Task β}
    (hw : w.Refines shows t s₀)
    (hf : ∀ a s₁, t.Ends (Replies Mishap.none) s₀ a s₁ → (f a).Refines shows (g a) s₁) :
    (w >>= f).Refines shows (t >>= g) s₀ where
  possible s hs := by
    obtain ⟨a, s', hway⟩ := hw.possible s hs
    obtain ⟨s₁, hends, hs'⟩ := hw.ends s hs a s' hway
    obtain ⟨b, s'', hrest⟩ := (hf a s₁ hends).possible s' hs'
    exact ⟨b, s'', a, s', hway, hrest⟩
  ends := by
    rintro s hs b s'' ⟨a, s', hway, hrest⟩
    obtain ⟨s₁, hends, hs'⟩ := hw.ends s hs a s' hway
    obtain ⟨s₂, hends', hs''⟩ := (hf a s₁ hends).ends s' hs' b s'' hrest
    exact ⟨s₂, Task.ends_bind.mpr ⟨a, s₁, hends, hends'⟩, hs''⟩

/-- A task within some paths does not notice in which order the objects of a store were stored. -/
theorem refines_lift {mine : ObjectPath → Prop} (ht : t.Within mine) (s₀ : MemoryStore) :
    Refines MemoryStore.Alike (liftM t) t s₀ where
  possible s _ := ⟨_, _, t.ends_answer s⟩
  ends := by
    intro s hs a s' hway
    obtain ⟨rfl, rfl⟩ := Task.run_of_ends hway
    have hagree : s.Agree (fun _ ↦ True) s₀ := fun p _ ↦ hs p
    obtain ⟨hvalue, hstate, -⟩ := (ht.mono fun _ _ ↦ trivial).run_congr hagree
    exact ⟨_, hvalue ▸ t.ends_answer s₀, fun p ↦ hstate p trivial⟩

end Ways

end TableSink
