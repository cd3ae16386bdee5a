import Mathlib.Logic.Function.Basic

/-!
# Resources owned through program counters

A system of threads keeps a lock, a flag or a role consistent when exactly the thread in one of certain
phases owns it. `Owns holds phase owner` says so for the phases that `holds` picks out. The three rules
are what a step of one thread can do: keep what it has (`move`), take what is free (`acquire`), give up
what it has (`release`).

A table with one such resource per key is kept by its owners when every entry is what some thread with
that key holds and no two threads hold the same key (`KeptBy`). One rule, `KeptBy.set`, covers taking an
entry, changing it and giving it up.
-/

namespace Rvc.Lib

open Function

variable {τ φ : Type*}

/-- What a step of one thread keeps of its own phase, it keeps of all. -/
theorem of_update [DecidableEq τ] {P : φ → Prop} {phase : τ → φ} {i j : τ} {p q : φ} (hi : phase i = p)
    (hpq : P q → P p) (hj : P (update phase i q j)) : P (phase j) :=
  (forall_update_iff phase fun j p => P p → P (phase j)).mpr ⟨fun hq => hi ▸ hpq hq, fun _ _ => id⟩ j hj

/-- `owner` is the one thread whose phase holds the resource. -/
def Owns (holds : φ → Bool) (phase : τ → φ) (owner : Option τ) : Prop :=
  ∀ i, holds (phase i) = true ↔ owner = some i

namespace Owns

variable {holds : φ → Bool} {phase : τ → φ} {owner : Option τ} {i j : τ} {p q : φ}

theorem of_none (h : ∀ i, holds (phase i) = false) : Owns holds phase none := by
  intro i
  simp [h i]

theorem unique (h : Owns holds phase owner) (hi : holds (phase i) = true) (hj : holds (phase j) = true) : i = j :=
  Option.some.inj (((h i).mp hi).symm.trans ((h j).mp hj))

variable [DecidableEq τ]

theorem move (h : Owns holds phase owner) (hi : phase i = p) (hpq : holds q = holds p) :
    Owns holds (update phase i q) owner := by
  refine (forall_update_iff phase fun j p => holds p = true ↔ owner = some j).mpr ⟨?_, fun j _ => h j⟩
  rw [hpq, ← hi]
  exact h i

theorem acquire (h : Owns holds phase none) (hq : holds q = true) : Owns holds (update phase i q) (some i) := by
  intro j
  by_cases hj : j = i
  · subst hj
    simp [hq]
  · rw [update_of_ne hj]
    have hfree : ¬ holds (phase j) = true := fun hheld => by simpa using (h j).mp hheld
    simp [hfree, Ne.symm hj]

theorem release (h : Owns holds phase owner) (hi : phase i = p) (hp : holds p = true)
    (hq : holds q = false) : Owns holds (update phase i q) none := by
  refine of_none ((forall_update_iff phase fun _ p => holds p = false).mpr ⟨hq, fun j hj => ?_⟩)
  by_contra hheld
  exact hj (h.unique (by simpa using hheld) (hi ▸ hp))

end Owns

variable {κ σ : Type*}

/-- Every entry of `table` is held by exactly one of the threads with its key, and what a thread holds is
in the table. -/
structure KeptBy (key : τ → κ) (held : τ → Option σ) (table : κ → Option σ) : Prop where
  entry : ∀ {i v}, held i = some v → table (key i) = some v
  holder : ∀ {k v}, table k = some v → ∃ i, key i = k ∧ held i = some v
  unique : ∀ {i j}, key i = key j → held i ≠ none → held j ≠ none → i = j

namespace KeptBy

variable {key : τ → κ} {held : τ → Option σ} {table : κ → Option σ} {i : τ} {k : κ}

theorem empty : KeptBy key (fun _ => none) fun _ : κ => (none : Option σ) := by
  constructor <;> simp

theorem eq_none (h : KeptBy key held table) (hfree : ∀ i, key i = k → held i = none) : table k = none := by
  by_contra hentry
  obtain ⟨v, hv⟩ := Option.ne_none_iff_exists'.mp hentry
  obtain ⟨i, hkey, hheld⟩ := h.holder hv
  rw [hfree i hkey] at hheld
  cases hheld

/-- A thread with an entry of its own, or whose key is free, is the only one that may hold the key. -/
theorem held_eq_none (h : KeptBy key held table) (hi : held i ≠ none ∨ table (key i) = none) {j : τ}
    (hkey : key j = key i) (hj : j ≠ i) : held j = none := by
  by_contra hheld
  rcases hi with howns | hfree
  · exact hj (h.unique hkey hheld howns)
  · obtain ⟨v, hv⟩ := Option.ne_none_iff_exists'.mp hheld
    have hentry := h.entry hv
    rw [hkey, hfree] at hentry
    cases hentry

variable [DecidableEq τ] [DecidableEq κ]

theorem set (h : KeptBy key held table) (hi : held i ≠ none ∨ table (key i) = none) (v : Option σ) :
    KeptBy key (update held i v) (update table (key i) v) := by
  have hothers : ∀ {j}, key j = key i → j ≠ i → update held i v j = none := by
    intro j hkey hj
    rw [update_of_ne hj]
    exact h.held_eq_none hi hkey hj
  refine ⟨?_, ?_, ?_⟩
  · intro j w hw
    by_cases hj : j = i
    · subst hj
      simpa using hw
    · have hkey : key j ≠ key i := fun hkey => by simp [hothers hkey hj] at hw
      rw [update_of_ne hj] at hw
      rw [update_of_ne hkey]
      exact h.entry hw
  · intro k w hw
    by_cases hk : k = key i
    · subst hk
      exact ⟨i, rfl, by simpa using hw⟩
    · rw [update_of_ne hk] at hw
      obtain ⟨j, rfl, hj⟩ := h.holder hw
      have hji : j ≠ i := fun hji => hk (congrArg key hji)
      exact ⟨j, rfl, by rwa [update_of_ne hji]⟩
  · intro j l hkey hj hl
    by_cases hji : j = i
    · subst hji
      by_contra hne
      exact hl (hothers hkey.symm (Ne.symm hne))
    · by_cases hli : l = i
      · subst hli
        exact absurd (hothers hkey hji) hj
      · rw [update_of_ne hji] at hj
        rw [update_of_ne hli] at hl
        exact h.unique hkey hj hl

end KeptBy

end Rvc.Lib
