import Mathlib.Order.Monotone.Basic

/-!
# Computations that may overflow

A checked computation yields a number or overflows. `Below x y` compares two of them: `y` overflows, or neither does and
the number of `x` is at most that of `y`. Computations that are built from monotone steps are monotone in this order.
-/

namespace Rvc.Lib

open Option

variable {α β : Type*} [Preorder α] [Preorder β] {x y : Option α} {a b : α}

def Below (x y : Option α) : Prop := ∀ b, y = some b → ∃ a, x = some a ∧ a ≤ b

theorem Below.some (h : a ≤ b) : Below (some a) (some b) := by
  intro c hc
  cases hc
  exact ⟨a, rfl, h⟩

theorem Below.bind {f g : α → Option β} (h : Below x y) (hfg : ∀ a b, a ≤ b → Below (f a) (g b)) :
    Below (x.bind f) (y.bind g) := by
  intro d hd
  obtain ⟨b, hb, hgb⟩ := bind_eq_some_iff.mp hd
  obtain ⟨a, ha, hab⟩ := h b hb
  obtain ⟨c, hc, hcd⟩ := hfg a b hab d hgb
  exact ⟨c, by rw [ha, bind_some, hc], hcd⟩

theorem Below.map {f : α → β} (h : Below x y) (hf : Monotone f) : Below (x.map f) (y.map f) := by
  intro d hd
  obtain ⟨b, hb, hfb⟩ := map_eq_some_iff.mp hd
  obtain ⟨a, ha, hab⟩ := h b hb
  exact ⟨f a, by rw [ha, map_some], hfb ▸ hf hab⟩

theorem Below.ite {p : α → Prop} [DecidablePred p] (hp : ∀ a b, a ≤ b → p b → p a) (h : a ≤ b) :
    Below (if p a then Option.some a else none) (if p b then Option.some b else none) := by
  intro c hc
  obtain ⟨hb, hbc⟩ := ite_none_right_eq_some.mp hc
  cases hbc
  exact ⟨a, if_pos (hp a b h hb), h⟩

end Rvc.Lib
