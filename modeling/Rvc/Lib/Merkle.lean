import Mathlib.Algebra.Ring.Nat
import Mathlib.Data.Nat.Log

/-!
# Merkle trees

The root of a complete binary tree, top down from its leaves by position, and bottom up by hashing neighbours layer by
layer. The two agree, so a tree that is filled by a streaming hasher has the root that a specification by layers gives.
-/

namespace Rvc.Lib.Merkle

open List

variable {α : Type*} (node : α → α → α)

/-- The subtree of the given depth at position `i` of its layer. -/
def treeRoot (leaf : Nat → α) : Nat → Nat → α
  | 0, i => leaf i
  | depth + 1, i => node (treeRoot leaf depth (2 * i)) (treeRoot leaf depth (2 * i + 1))

def pairUp : List α → List α
  | a :: b :: rest => node a b :: pairUp rest
  | _ => []

def layer (height : Nat) (leaves : List α) : List α := (pairUp node)^[height] leaves

variable {node}

theorem pairUp_map_range (f : Nat → α) (n : Nat) :
    pairUp node ((List.range (2 * n)).map f) = (List.range n).map fun i => node (f (2 * i)) (f (2 * i + 1)) := by
  induction n generalizing f with
  | zero => rfl
  | succ n ih =>
    have hsplit : (range (2 * (n + 1))).map f =
        f 0 :: f 1 :: (range (2 * n)).map fun i => f (i + 2) := by
      rw [show 2 * (n + 1) = 2 * n + 1 + 1 from rfl, range_succ_eq_map, range_succ_eq_map]
      simp only [map_cons, map_map]
      rfl
    rw [hsplit, pairUp, ih, range_succ_eq_map, map_cons, map_map]
    rfl

theorem treeRoot_layer (leaf : Nat → α) (depth i : Nat) :
    treeRoot node (fun k => node (leaf (2 * k)) (leaf (2 * k + 1))) depth i = treeRoot node leaf (depth + 1) i := by
  induction depth generalizing i with
  | zero => rfl
  | succ depth ih =>
    rw [treeRoot, ih, ih]
    rfl

theorem layer_map_range (leaf : Nat → α) (depth : Nat) :
    layer node depth ((List.range (2 ^ depth)).map leaf) = [treeRoot node leaf depth 0] := by
  induction depth generalizing leaf with
  | zero => rfl
  | succ depth ih =>
    rw [layer, Function.iterate_succ_apply, pow_succ', pairUp_map_range]
    exact (ih _).trans (by rw [treeRoot_layer])

end Rvc.Lib.Merkle
