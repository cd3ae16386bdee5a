import Mathlib.Algebra.Ring.Nat
import Mathlib.Data.List.Sort
import Mathlib.Data.List.Sublists

/-!
# Enumerations that are stepped through

A successor function that ends visits the elements of a list one after another, and a search along it finds what
`List.findSome?` finds in the list. A visitor with a state of its own that may ask to stop sees the same elements
(`visitUntil`). The sublists of a given length, in the order of the places they are taken from, are such a list.
-/

namespace Rvc.Lib

open List

/-! ### Paths -/

section

variable {α β γ : Type*}

/-- `next` leads from the first state through `xs` to the second; `none` is the end. -/
inductive Path (next : α → Option α) : Option α → List α → Option α → Prop
  | nil (s : Option α) : Path next s [] s
  | cons {x : α} {xs : List α} {t : Option α} : Path next (next x) xs t → Path next (some x) (x :: xs) t

variable {next : α → Option α} {next' : β → Option β} {s t u : Option α} {xs ys : List α}

theorem Path.append (h : Path next s xs t) (h' : Path next t ys u) : Path next s (xs ++ ys) u := by
  induction h with
  | nil => exact h'
  | cons _ ih => exact .cons (ih h')

theorem Path.map {f : α → β} {t' : Option β} (h : Path next s xs none)
    (hnext : ∀ x ∈ xs, next' (f x) = ((next x).map f).or t') : Path next' ((s.map f).or t') (xs.map f) t' := by
  generalize hend : (none : Option α) = e at h
  induction h with
  | nil =>
    subst hend
    exact .nil t'
  | @cons x _ _ _ ih =>
    refine .cons ?_
    rw [hnext x mem_cons_self]
    exact ih (fun y hy => hnext y (mem_cons_of_mem x hy)) hend

def search (next : α → Option α) (visit : α → Option γ) : ℕ → Option α → Option γ
  | _, none => none
  | 0, some _ => none
  | fuel + 1, some x =>
    match visit x with
    | some found => some found
    | none => search next visit fuel (next x)

theorem Path.search_eq {visit : α → Option γ} (h : Path next s xs none) {fuel : ℕ} (hfuel : xs.length ≤ fuel) :
    search next visit fuel s = xs.findSome? visit := by
  generalize hend : (none : Option α) = e at h
  induction h generalizing fuel with
  | nil =>
    subst hend
    rw [search, List.findSome?_nil]
  | @cons x xs _ _ ih =>
    obtain ⟨fuel, rfl⟩ := Nat.exists_eq_add_of_le' hfuel
    rw [length_cons, ← Nat.add_assoc, search, List.findSome?_cons]
    cases visit x with
    | some => rfl
    | none => exact ih (Nat.le_add_left ..) hend

def visitUntil {σ : Type*} (visit : σ → α → Bool × σ) : List α → σ → Bool × σ
  | [], s => (false, s)
  | x :: xs, s =>
    match visit s x with
    | (true, s') => (true, s')
    | (false, s') => visitUntil visit xs s'

end

/-! ### Combinations -/

section

variable {α : Type*}

/-- The sublists of length `k`, those with the first element before those without. -/
def combinations : ℕ → List α → List (List α)
  | 0, _ => [[]]
  | _ + 1, [] => []
  | k + 1, x :: xs => (combinations k xs).map (x :: ·) ++ combinations (k + 1) xs

theorem combinations_perm (k : ℕ) (xs : List α) : (combinations k xs).Perm (xs.sublistsLen k) := by
  induction xs generalizing k with
  | nil => cases k <;> simp [combinations]
  | cons x xs ih =>
    cases k with
    | zero => simp [combinations]
    | succ k =>
      rw [combinations, sublistsLen_succ_cons]
      exact (((ih k).map _).append (ih (k + 1))).trans perm_append_comm

theorem mem_combinations {k : ℕ} {xs ys : List α} : ys ∈ combinations k xs ↔ ys.Sublist xs ∧ ys.length = k :=
  (combinations_perm k xs).mem_iff.trans mem_sublistsLen

theorem length_combinations (k : ℕ) (xs : List α) : (combinations k xs).length = xs.length.choose k := by
  rw [(combinations_perm k xs).length_eq, length_sublistsLen]

theorem length_combinations_le (k : ℕ) (xs : List α) : (combinations k xs).length ≤ 2 ^ xs.length := by
  rw [(combinations_perm k xs).length_eq, ← length_sublists']
  exact (sublistsLen_sublist_sublists' k xs).length_le

variable [LinearOrder α]

theorem pairwise_lt_combinations {xs : List α} (h : xs.Pairwise (· < ·)) (k : ℕ) :
    (combinations k xs).Pairwise (· < ·) := by
  induction xs generalizing k with
  | nil => cases k <;> simp [combinations]
  | cons x xs ih =>
    obtain ⟨hx, hxs⟩ := pairwise_cons.mp h
    cases k with
    | zero => simp [combinations]
    | succ k =>
      rw [combinations, pairwise_append, pairwise_map]
      refine ⟨?_, ih hxs (k + 1), ?_⟩
      · exact (ih hxs k).imp fun hlt => cons_lt_cons_iff.mpr (.inr ⟨rfl, hlt⟩)
      · intro c hc d hd
        obtain ⟨c', _, rfl⟩ := mem_map.mp hc
        obtain ⟨hsub, hlen⟩ := mem_combinations.mp hd
        cases d with
        | nil => cases hlen
        | cons y d => exact cons_lt_cons_iff.mpr (.inl (hx y (hsub.subset mem_cons_self)))

theorem mem_combinations_of_pairwise_lt {xs : List α} (h : xs.Pairwise (· < ·)) {k : ℕ} {c : List α} :
    c ∈ combinations k xs ↔ c.length = k ∧ c.Pairwise (· < ·) ∧ c ⊆ xs := by
  rw [mem_combinations]
  constructor
  · rintro ⟨hsub, hlen⟩
    exact ⟨hlen, h.sublist hsub, hsub.subset⟩
  · rintro ⟨hlen, hc, hsubset⟩
    have hperm : c.Subperm xs := subperm_of_subset (hc.imp ne_of_lt) hsubset
    exact ⟨sublist_of_subperm_of_pairwise hperm (hc.imp le_of_lt) (h.imp le_of_lt), hlen⟩

end

end Rvc.Lib
