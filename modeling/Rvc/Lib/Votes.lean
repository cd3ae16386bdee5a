import Mathlib.Order.Defs.LinearOrder
import Mathlib.Order.Basic
import Mathlib.Order.MinMax
import Mathlib.Data.Set.Basic

/-!
# Votes and floors

A vote links a source to a target in a linear order. Two votes conflict when they share a target or
one strictly surrounds the other. A floor is a pair of optional bounds; it admits a vote that lies
above it and covers one that lies below it, and a covered vote conflicts with no admitted one.
-/

namespace Rvc.Lib

open List

variable {ε : Type*}

structure Vote (ε : Type*) where
  source : ε
  target : ε
  deriving DecidableEq

/-- Lower bounds on sources and targets, each possibly missing. -/
structure Floor (ε : Type*) where
  source : Option ε
  target : Option ε

variable [LinearOrder ε]

/-! ### Conflicts -/

def Vote.Surrounds (a b : Vote ε) : Prop := a.source < b.source ∧ b.target < a.target

def Vote.Conflicts (a b : Vote ε) : Prop := a.target = b.target ∨ a.Surrounds b ∨ b.Surrounds a

instance (a b : Vote ε) : Decidable (a.Surrounds b) := inferInstanceAs (Decidable (_ ∧ _))

instance (a b : Vote ε) : Decidable (a.Conflicts b) := inferInstanceAs (Decidable (_ ∨ _))

theorem Vote.Conflicts.symm {a b : Vote ε} (h : a.Conflicts b) : b.Conflicts a :=
  h.elim (fun h => .inl h.symm) fun h => .inr h.symm

theorem Vote.not_conflicts_of_lt {a b : Vote ε} (hs : a.source ≤ b.source) (ht : a.target < b.target) :
    ¬ a.Conflicts b := by
  rintro (h | ⟨-, h⟩ | ⟨h, -⟩)
  · exact ht.ne h
  · exact lt_asymm ht h
  · exact not_lt_of_ge hs h

/-! ### Floors -/

def Floor.Admits (f : Floor ε) (v : Vote ε) : Prop :=
  (∀ s ∈ f.source, s ≤ v.source) ∧ ∀ t ∈ f.target, t < v.target

def Floor.Covers (f : Floor ε) (v : Vote ε) : Prop :=
  (∃ s ∈ f.source, v.source ≤ s) ∧ ∃ t ∈ f.target, v.target ≤ t

instance (f : Floor ε) (v : Vote ε) : Decidable (f.Covers v) := inferInstanceAs (Decidable (_ ∧ _))

def Floor.Raised (f g : Floor ε) : Prop :=
  (∀ s ∈ f.source, ∃ s' ∈ g.source, s ≤ s') ∧ ∀ t ∈ f.target, ∃ t' ∈ g.target, t ≤ t'

theorem Floor.Covers.mono {f g : Floor ε} {v : Vote ε} (hfg : f.Raised g) (h : f.Covers v) : g.Covers v := by
  obtain ⟨⟨s, hs, hvs⟩, t, ht, hvt⟩ := h
  obtain ⟨s', hs', hle⟩ := hfg.1 s hs
  obtain ⟨t', ht', hle'⟩ := hfg.2 t ht
  exact ⟨⟨s', hs', hvs.trans hle⟩, t', ht', hvt.trans hle'⟩

theorem Floor.Admits.anti {f g : Floor ε} {v : Vote ε} (hfg : f.Raised g) (h : g.Admits v) : f.Admits v := by
  constructor
  · intro s hs
    obtain ⟨s', hs', hle⟩ := hfg.1 s hs
    exact hle.trans (h.1 s' hs')
  · intro t ht
    obtain ⟨t', ht', hle⟩ := hfg.2 t ht
    exact hle.trans_lt (h.2 t' ht')

theorem Floor.Covers.not_conflicts {f : Floor ε} {v w : Vote ε} (hv : f.Covers v)
    (hw : f.Admits w) : ¬ v.Conflicts w := by
  obtain ⟨⟨s, hs, hvs⟩, t, ht, hvt⟩ := hv
  exact Vote.not_conflicts_of_lt (hvs.trans (hw.1 s hs)) (hvt.trans_lt (hw.2 t ht))

/-! ### Bounds raised to a maximum -/

theorem max?_eq_of_mem_iff {xs ys : List ε} (h : ∀ x, x ∈ xs ↔ x ∈ ys) : xs.max? = ys.max? := by
  apply Option.ext
  intro a
  rw [max?_eq_some_iff, max?_eq_some_iff, h a]
  exact and_congr_right fun _ => forall_congr' fun b => by rw [h b]

theorem max?_toList_append (xs ys : List ε) : (xs.max?.toList ++ ys).max? = (xs ++ ys).max? := by
  cases hmax : xs.max? with
  | none =>
    obtain rfl := max?_eq_none_iff.mp hmax
    rfl
  | some m =>
    obtain ⟨hm, hle⟩ := max?_eq_some_iff.mp hmax
    apply Option.ext
    intro a
    rw [max?_eq_some_iff, max?_eq_some_iff]
    constructor
    · rintro ⟨ha, hbound⟩
      have hma : m ≤ a := hbound m (by simp)
      refine ⟨?_, fun b hb => ?_⟩
      · rcases mem_append.mp ha with ha | ha
        · obtain rfl : a = m := by simpa using ha
          exact mem_append_left _ hm
        · exact mem_append_right _ ha
      · rcases mem_append.mp hb with hb | hb
        · exact (hle b hb).trans hma
        · exact hbound b (mem_append_right _ hb)
    · rintro ⟨ha, hbound⟩
      have hma : m ≤ a := hbound m (mem_append_left _ hm)
      refine ⟨?_, fun b hb => ?_⟩
      · rcases mem_append.mp ha with ha | ha
        · simp [le_antisymm (hle a ha) hma]
        · exact mem_append_right _ ha
      · rcases mem_append.mp hb with hb | hb
        · obtain rfl : b = m := by simpa using hb
          exact hma
        · exact hbound b (mem_append_right _ hb)

end Rvc.Lib
