import Mathlib.Tactic.Common

/-!
# Computations that a crash may cut short

A computation over a state yields a value and a last state, and lists the states it passed through. A crash
leaves any one of these. `Wp m s inv post` says of the computation run from `s` that every state it passes
through satisfies `inv`, so that a crash finds `inv`, and that value and last state satisfy `post`. The rules
compute it along the computation.
-/

namespace Rvc.Lib

variable {σ α β : Type}

structure Outcome (σ α : Type) where
  value : α
  final : σ
  passed : List σ

def Steps (σ α : Type) := σ → Outcome σ α

namespace Steps

instance : Monad (Steps σ) where
  pure a := fun s => ⟨a, s, []⟩
  bind m f := fun s =>
    let first := m s
    let second := f first.value first.final
    ⟨second.value, second.final, first.passed ++ second.passed⟩

def look : Steps σ σ := fun s => ⟨s, s, []⟩

/-- Change the state, in one step that a crash does not split. -/
def step (f : σ → σ) : Steps σ Unit := fun s => ⟨(), f s, [f s]⟩

def cut (m : Steps σ α) (n : Nat) : Steps σ Unit := fun s =>
  let passed := (m s).passed.take n
  ⟨(), passed.getLastD s, passed⟩

/-- The computation run from `s` passes through states with `inv` only, and ends with `post`. -/
def Wp (m : Steps σ α) (s : σ) (inv : σ → Prop) (post : α → σ → Prop) : Prop :=
  (∀ s' ∈ (m s).passed, inv s') ∧ post (m s).value (m s).final

variable {s : σ} {inv inv' : σ → Prop} {post : α → σ → Prop}

@[simp] theorem wp_pure {a : α} : Wp (pure a) s inv post ↔ post a s := by
  simp [Wp, pure]

@[simp] theorem wp_look {post : σ → σ → Prop} : Wp look s inv post ↔ post s s := by
  simp [Wp, look]

@[simp] theorem wp_step {f : σ → σ} {post : Unit → σ → Prop} : Wp (step f) s inv post ↔ inv (f s) ∧ post () (f s) := by
  simp [Wp, step]

variable {m : Steps σ α}

@[simp] theorem wp_bind {f : α → Steps σ β} {post : β → σ → Prop} :
    Wp (m >>= f) s inv post ↔ Wp m s inv fun a s' => Wp (f a) s' inv post := by
  simp only [Wp, bind, List.mem_append]
  constructor
  · rintro ⟨hinv, hpost⟩
    exact ⟨fun s' hs => hinv s' (.inl hs), fun s' hs => hinv s' (.inr hs), hpost⟩
  · rintro ⟨hfirst, hsecond, hpost⟩
    exact ⟨fun s' hs => hs.elim (hfirst s') (hsecond s'), hpost⟩

theorem Wp.mono {post' : α → σ → Prop} (h : Wp m s inv post)
    (hinv : ∀ s', inv s' → inv' s') (hpost : ∀ a s', post a s' → post' a s') : Wp m s inv' post' :=
  ⟨fun s' hs => hinv s' (h.1 s' hs), hpost _ _ h.2⟩

theorem Wp.bind {f : α → Steps σ β} {mid : α → σ → Prop} {post : β → σ → Prop}
    (h : Wp m s inv mid) (hf : ∀ a s', mid a s' → Wp (f a) s' inv post) : Wp (m >>= f) s inv post :=
  wp_bind.mpr (h.mono (fun _ hs => hs) hf)

theorem Wp.cut (h : Wp m s inv post) (hs : inv s) (n : Nat) : Wp (m.cut n) s inv fun _ s' => inv s' := by
  have hpassed : ∀ s' ∈ (m s).passed.take n, inv s' := fun s' hin => h.1 s' (List.mem_of_mem_take hin)
  refine ⟨hpassed, ?_⟩
  show inv (((m s).passed.take n).getLastD s)
  rw [List.getLastD_eq_getLast?]
  cases hlast : ((m s).passed.take n).getLast? with
  | none => exact hs
  | some s' => exact hpassed s' (List.mem_of_getLast? hlast)

end Steps

end Rvc.Lib
