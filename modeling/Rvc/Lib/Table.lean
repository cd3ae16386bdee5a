import Mathlib.Data.List.AList

/-!
# Hash maps

A map from keys to values is an association list without repeated keys. Mathlib has insertion, removal
and lookup; here are the update of every value in place, as iterating over `values_mut` does it, and
`retain`.
-/

namespace Rvc.Lib

open List AList

variable {κ ν : Type}

abbrev Table (κ ν : Type) := AList fun _ : κ => ν

namespace Table

def mapValues (f : ν → ν) (t : Table κ ν) : Table κ ν where
  entries := t.entries.map fun e => ⟨e.1, f e.2⟩
  nodupKeys := by
    have hkeys : (t.entries.map fun e => (⟨e.1, f e.2⟩ : (_ : κ) × ν)).keys = t.entries.keys := by
      simp [List.keys, Function.comp_def]
    rw [List.NodupKeys, hkeys]
    exact t.nodupKeys

theorem lookup_mapValues [DecidableEq κ] (f : ν → ν) (t : Table κ ν) (k : κ) :
    (mapValues f t).lookup k = (t.lookup k).map f := by
  show List.dlookup k (t.entries.map fun e => (⟨e.1, f e.2⟩ : (_ : κ) × ν)) =
    (List.dlookup k t.entries).map f
  induction t.entries with
  | nil => rfl
  | cons e rest ih =>
    obtain ⟨k', v⟩ := e
    by_cases hk : k = k'
    · subst hk
      rw [map_cons, dlookup_cons_eq, dlookup_cons_eq, Option.map_some]
    · rw [map_cons, dlookup_cons_ne _ _ hk, dlookup_cons_ne _ _ hk, ih]

def len (t : Table κ ν) : Nat := t.entries.length

theorem len_insert [DecidableEq κ] {t : Table κ ν} {k : κ} (hk : t.lookup k = none) (v : ν) :
    len (t.insert k v) = len t + 1 := by
  rw [len, entries_insert_of_notMem (lookup_eq_none.mp hk), length_cons, len]

def retain (p : ν → Bool) (t : Table κ ν) : Table κ ν where
  entries := t.entries.filter fun e => p e.2
  nodupKeys := t.nodupKeys.sublist List.filter_sublist

theorem lookup_retain [DecidableEq κ] (p : ν → Bool) (t : Table κ ν) (k : κ) :
    (retain p t).lookup k = (t.lookup k).filter p := by
  have hmem : ∀ v, (retain p t).lookup k = some v ↔ t.lookup k = some v ∧ p v = true := by
    intro v
    have hentry : ∀ (t : Table κ ν), t.lookup k = some v ↔ ⟨k, v⟩ ∈ t.entries := fun t =>
      mem_lookup_iff
    rw [hentry, hentry]
    exact mem_filter
  ext v
  rw [hmem, Option.filter_eq_some_iff]

theorem lookup_foldl_insert [DecidableEq κ] (entries : List ((_ : κ) × ν)) (hnodup : entries.NodupKeys)
    (t : Table κ ν) (k : κ) :
    (entries.foldl (fun t entry => t.insert entry.1 entry.2) t).lookup k =
      (entries.dlookup k).or (t.lookup k) := by
  induction entries generalizing t with
  | nil => rfl
  | cons entry entries ih =>
    obtain ⟨key, value⟩ := entry
    obtain ⟨hnotin, hrest⟩ := nodupKeys_cons.mp hnodup
    rw [foldl_cons, ih hrest]
    by_cases hk : k = key
    · subst hk
      rw [dlookup_eq_none.mpr hnotin, dlookup_cons_eq, lookup_insert]
      rfl
    · rw [dlookup_cons_ne _ _ hk, lookup_insert_ne hk]

end Table

end Rvc.Lib
