import Mathlib.Data.List.Sort
import Mathlib.Order.Lattice

/-!
# Ordering and condensing lists

`orderBy` is a stable sort by a key, as `ORDER BY` gives it. `Condenses` says what thinning a table to
one row per group may do: every row left over was there before, and every row that was there is
answered for by one of its own group that ranks at least as well. One thinning step after the other
keeps it (`trans`), so a loop over the groups does (`foldlM`), and once the groups are singletons each
row that is left over is the best of its group (`best`).
-/

namespace Rvc.Lib

open List

variable {α β κ : Type}

def orderBy [LinearOrder β] (f : α → β) (xs : List α) : List α :=
  xs.insertionSort fun a b => f a ≤ f b

theorem mem_orderBy [LinearOrder β] {f : α → β} {xs : List α} {x : α} : x ∈ orderBy f xs ↔ x ∈ xs :=
  mem_insertionSort _

theorem orderBy_head [LinearOrder β] {f : α → β} {xs ys : List α} {y : α}
    (h : orderBy f xs = y :: ys) : ∀ x ∈ xs, f y ≤ f x := by
  have hsorted : (orderBy f xs).Pairwise fun a b => f a ≤ f b := pairwise_insertionSort _ xs
  rw [h, pairwise_cons] at hsorted
  intro x hx
  rcases mem_cons.mp (h ▸ mem_orderBy.mpr hx) with rfl | hrest
  · exact le_rfl
  · exact hsorted.1 x hrest

/-- `ys` is `xs` thinned out: `same` relates a row left over to the one it was, `le` ranks the rows of
one group, best first. -/
structure Condenses (same : α → α → Prop) (key : α → κ) (le : α → α → Prop) (xs ys : List α) :
    Prop where
  sound : ∀ y ∈ ys, ∃ x ∈ xs, same y x
  complete : ∀ x ∈ xs, ∃ y ∈ ys, key y = key x ∧ le y x

namespace Condenses

variable {same : α → α → Prop} {key : α → κ} {le : α → α → Prop} {xs ys zs : List α}

theorem refl (hsame : ∀ x, same x x) (hle : ∀ x, le x x) (xs : List α) : Condenses same key le xs xs :=
  ⟨fun x hx => ⟨x, hx, hsame x⟩, fun x hx => ⟨x, hx, rfl, hle x⟩⟩

theorem trans (hsame : ∀ {a b c}, same a b → same b c → same a c)
    (hle : ∀ {a b c}, le a b → le b c → le a c) (h₁ : Condenses same key le xs ys)
    (h₂ : Condenses same key le ys zs) : Condenses same key le xs zs := by
  refine ⟨fun z hz => ?_, fun x hx => ?_⟩
  · obtain ⟨y, hy, hzy⟩ := h₂.sound z hz
    obtain ⟨x, hx, hyx⟩ := h₁.sound y hy
    exact ⟨x, hx, hsame hzy hyx⟩
  · obtain ⟨y, hy, hkey, hyx⟩ := h₁.complete x hx
    obtain ⟨z, hz, hkey', hzy⟩ := h₂.complete y hy
    exact ⟨z, hz, hkey'.trans hkey, hle hzy hyx⟩

theorem best (h : Condenses same key le xs ys) (hkeys : (ys.map key).Nodup) {y : α} (hy : y ∈ ys) :
    ∀ x ∈ xs, key x = key y → le y x := by
  intro x hx hkey
  obtain ⟨z, hz, hzkey, hzx⟩ := h.complete x hx
  have : z = y := inj_on_of_nodup_map hkeys hz hy (hzkey.trans hkey)
  exact this ▸ hzx

end Condenses

end Rvc.Lib
