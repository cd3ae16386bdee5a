import Rvc.SignerServer.Dvt.Coordinate

/-!
# The loop over index combinations

`each_index_combination` as the code runs it: a vector of `k` places, an inner loop that walks back from the last place
to the first one that can go up, a `for` loop that lets the places after it follow, and a callback with a state of its
own that may ask to stop. `Coordinate.advance` is what one turn of it comes to (`raise_eq_advance`), so that the
enumeration known of it carries over.
-/

namespace Rvc.SignerServer.Dvt.Combination

open Rvc.Lib Rvc.SignerServer.Dvt.Coordinate Vector

variable {k : ℕ}

/-! ### The loops -/

def follow (idx : Vector ℕ k) (j : ℕ) : (len : ℕ) → j + len ≤ k → Vector ℕ k
  | 0, _ => idx
  | len + 1, h => follow (idx.set j (idx[j - 1] + 1)) (j + 1) len (by omega)

/-- The inner loop with `i` as it is at the top of the body; `none` is `return false`. -/
def raise (n : ℕ) (idx : Vector ℕ k) : (i : ℕ) → i ≤ k → Option (Vector ℕ k)
  | 0, _ => none
  | i + 1, h =>
    if idx[i] < n - k + i then some (follow (idx.set i (idx[i] + 1)) (i + 1) (k - (i + 1)) (by omega))
    else raise n idx i (by omega)

variable {σ : Type}

def visitLoop (n : ℕ) (visit : σ → List ℕ → Bool × σ) : ℕ → Vector ℕ k → σ → Option (Bool × σ)
  | 0, _, _ => none
  | fuel + 1, idx, s =>
    match visit s idx.toList with
    | (true, s') => some (true, s')
    | (false, s') =>
      match raise n idx k (Nat.le_refl k) with
      | none => some (false, s')
      | some idx' => visitLoop n visit fuel idx' s'

/-- `each_index_combination`; `none` is running out of fuel. -/
def eachIndexCombination (fuel n k : ℕ) (visit : σ → List ℕ → Bool × σ) (s : σ) : Option (Bool × σ) :=
  if k = 0 ∨ n < k then some (false, s) else visitLoop n visit fuel (Vector.range k) s

/-! ### One turn -/

variable {idx : Vector ℕ k} {before after : List ℕ}

section

variable {x i : ℕ} (h : idx.toList = before ++ x :: after) (hi : before.length = i) (hik : i < k)

include h hi hik

theorem getElem_of_toList : idx[i] = x := by
  subst hi
  rw [← getElem_toList (by simpa using hik)]
  simp [h]

theorem toList_set (y : ℕ) : (idx.set i y hik).toList = before ++ y :: after := by
  subst hi
  rw [toList_set, h, List.set_append_right _ _ (Nat.le_refl _), Nat.sub_self, List.set_cons_zero]

end

theorem toList_follow {x j len : ℕ} (h : idx.toList = before ++ x :: after)
    (hj : before.length + 1 = j) (hlen : after.length = len) (hk : j + len ≤ k) :
    (follow idx j len hk).toList = before ++ List.range' x (len + 1) := by
  induction len generalizing idx before after x j with
  | zero =>
    rw [List.length_eq_zero_iff.mp hlen] at h
    exact h
  | succ len ih =>
    obtain ⟨y, after, rfl⟩ := List.exists_cons_of_length_eq_add_one hlen
    have hplaces : idx.toList = (before ++ [x]) ++ y :: after := by simpa using h
    have hset : (idx.set j (x + 1)).toList = (before ++ [x]) ++ (x + 1) :: after :=
      toList_set hplaces (by simp [hj]) _ _
    rw [follow, getElem_of_toList h (by omega), ih hset (by simp [hj]) (by simpa using hlen)]
    simp [List.range'_succ]

variable {n : ℕ}

theorem raise_succ (hkn : k ≤ n) {x : ℕ} (h : idx.toList = before ++ x :: after) (hik : before.length + 1 ≤ k) :
    (raise n idx (before.length + 1) hik).map Vector.toList =
      if x < n - (after.length + 1) then some (before ++ List.range' (x + 1) (after.length + 1))
      else (raise n idx before.length (Nat.le_of_succ_le hik)).map Vector.toList := by
  have hk : before.length + (after.length + 1) = k := by simp [← idx.length_toList, h]
  have hbound : n - k + before.length = n - (after.length + 1) := by omega
  have hlen : k - (before.length + 1) = after.length := by omega
  have hset := toList_set h rfl hik (x + 1)
  have hfollow := toList_follow hset rfl hlen.symm (by omega)
  rw [raise, getElem_of_toList h rfl, hbound]
  split
  · rw [Option.map_some, hfollow, hlen]
  · rfl

theorem raise_append (hkn : k ≤ n) {i : ℕ} (h : idx.toList = before ++ after) (hi : before.length = i) (hik : i ≤ k) :
    (raise n idx k (Nat.le_refl k)).map Vector.toList =
      ((advance n after).map (before ++ ·)).or ((raise n idx i hik).map Vector.toList) := by
  subst hi
  induction after generalizing before with
  | nil =>
    have hk : before.length = k := by simp [← idx.length_toList, h]
    subst hk
    rfl
  | cons x after ih =>
    have hk : before.length + (after.length + 1) = k := by simp [← idx.length_toList, h]
    have hplaces : idx.toList = (before ++ [x]) ++ after := by simpa using h
    have hpast := ih hplaces (by simp; omega)
    simp only [List.length_append, List.length_singleton] at hpast
    rw [hpast, raise_succ hkn h, advance_cons]
    cases advance n after with
    | some after' => simp
    | none => split <;> simp

theorem raise_eq_advance (hkn : k ≤ n) (idx : Vector ℕ k) :
    (raise n idx k (Nat.le_refl k)).map Vector.toList = advance n idx.toList := by
  have hwalk : (raise n idx k (Nat.le_refl k)).map toList =
      ((advance n idx.toList).map ([] ++ ·)).or ((raise n idx 0 (Nat.zero_le k)).map toList) :=
    raise_append hkn rfl rfl _
  simpa [raise] using hwalk

/-! ### The visits -/

theorem visitLoop_eq (hkn : k ≤ n) (visit : σ → List ℕ → Bool × σ) {cs : List (List ℕ)}
    (h : Path (advance n) (some idx.toList) cs none) (s : σ) {fuel : ℕ} (hfuel : cs.length ≤ fuel) :
    visitLoop n visit fuel idx s = some (visitUntil visit cs s) := by
  induction fuel generalizing idx cs s with
  | zero =>
    rw [List.length_eq_zero_iff.mp (Nat.le_zero.mp hfuel)] at h
    cases h
  | succ fuel ih =>
    cases h with
    | @cons _ cs _ hrest =>
      rw [visitLoop, visitUntil]
      split
      next s' hvisit => rw [hvisit]
      next s' hvisit =>
        rw [hvisit]
        rw [← raise_eq_advance hkn idx] at hrest
        cases hraise : raise n idx k (Nat.le_refl k) with
        | none =>
          rw [hraise] at hrest
          cases hrest
          rfl
        | some idx' =>
          rw [hraise] at hrest
          exact ih hrest s' (Nat.le_of_succ_le_succ hfuel)

theorem eachIndexCombination_eq (hk : 1 ≤ k) (hkn : k ≤ n) (visit : σ → List ℕ → Bool × σ) (s : σ)
    {fuel : ℕ} (hfuel : n.choose k ≤ fuel) :
    eachIndexCombination fuel n k visit s = some (visitUntil visit (combinations k (List.range n)) s) := by
  have hpath := path_range n k
  rw [if_pos hkn, ← toList_range] at hpath
  rw [eachIndexCombination, if_neg (by omega)]
  exact visitLoop_eq hkn visit hpath s (by simpa [length_combinations] using hfuel)

/-- The callback is shown the increasing `k`-tuples of numbers below `n`, each once and in lexicographic order, until
it asks to stop. The loop ends, after as many visits at most as there are such tuples. -/
theorem each_index_combination_visits {n k : ℕ} (hk : 1 ≤ k) (hkn : k ≤ n) : ∃ cs : List (List ℕ),
      (∀ idx, idx ∈ cs ↔ idx.length = k ∧ idx.Pairwise (· < ·) ∧ ∀ x ∈ idx, x < n) ∧ cs.Nodup ∧ cs.Pairwise (· < ·) ∧
      ∀ (σ : Type) (visit : σ → List ℕ → Bool × σ) (s : σ) (fuel : ℕ), cs.length ≤ fuel →
        eachIndexCombination fuel n k visit s = some (visitUntil visit cs s) := by
  have hsorted := pairwise_lt_combinations (List.pairwise_lt_range (n := n)) k
  refine ⟨combinations k (List.range n), ?_, hsorted.imp ne_of_lt, hsorted, ?_⟩
  · intro idx
    rw [mem_combinations_of_pairwise_lt List.pairwise_lt_range]
    simp only [List.subset_def, List.mem_range]
  · intro σ visit s fuel hfuel
    exact eachIndexCombination_eq hk hkn visit s (by simpa [length_combinations] using hfuel)

/-- The pairs below three. -/
theorem each_index_combination_visits_pairs : ∃ cs : List (List ℕ),
      (∀ idx, idx ∈ cs ↔ idx.length = 2 ∧ idx.Pairwise (· < ·) ∧ ∀ x ∈ idx, x < 3) ∧ cs.Nodup ∧ cs.Pairwise (· < ·) ∧
      ∀ (σ : Type) (visit : σ → List ℕ → Bool × σ) (s : σ) (fuel : ℕ), cs.length ≤ fuel →
        eachIndexCombination fuel 3 2 visit s = some (visitUntil visit cs s) :=
  each_index_combination_visits (by decide) (by decide)

example : eachIndexCombination 6 4 2 (fun seen idx => (idx == [1, 2], seen ++ [idx])) [] =
    some (true, [[0, 1], [0, 2], [0, 3], [1, 2]]) := by
  decide

end Rvc.SignerServer.Dvt.Combination
