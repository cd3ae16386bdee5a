import Mathlib.Algebra.Ring.Int.Defs
import Mathlib.Algebra.Ring.Nat
import Mathlib.Tactic.Common

/-!
# The two casts between `u64` and `i64`

A `u64` is a natural number below `2 ^ 64`, an `i64` an integer in `[-2 ^ 63, 2 ^ 63)`. `asI64` and
`asU64` are Rust's `as i64` and `as u64`: the bits stay, the reading changes. On numbers below
`2 ^ 63` both are the identity, and then the signed order is the unsigned one.
-/

namespace Rvc.Lib

def asI64 (n : Nat) : Int :=
  if n % 2 ^ 64 < 2 ^ 63 then (n % 2 ^ 64 : Nat) else (n % 2 ^ 64 : Nat) - 2 ^ 64

def asU64 (i : Int) : Nat := (i % 2 ^ 64).toNat

/-- A stored integer that reads the same signed and unsigned. -/
def SmallInt (i : Int) : Prop := 0 ≤ i ∧ i < 2 ^ 63

instance (i : Int) : Decidable (SmallInt i) := inferInstanceAs (Decidable (_ ∧ _))

variable {n : Nat}

theorem asI64_of_lt (h : n < 2 ^ 63) : asI64 n = n := by
  have hmod : n % 2 ^ 64 = n := Nat.mod_eq_of_lt (by omega)
  rw [asI64, hmod, if_pos h]

variable {i : Int}

theorem asU64_of_smallInt (h : SmallInt i) : (asU64 i : Int) = i := by
  obtain ⟨h0, h1⟩ := h
  have hmod : i % 2 ^ 64 = i := Int.emod_eq_of_lt h0 (by omega)
  rw [asU64, hmod, Int.toNat_of_nonneg h0]

theorem asU64_lt_of_smallInt (h : SmallInt i) : asU64 i < 2 ^ 63 := by
  have := asU64_of_smallInt h
  have := h.2
  omega

theorem asU64_mono {j : Int} (hi : SmallInt i) (hj : SmallInt j) (h : i ≤ j) : asU64 i ≤ asU64 j := by
  have := asU64_of_smallInt hi
  have := asU64_of_smallInt hj
  omega

theorem asI64_mono {m : Nat} (hn : n < 2 ^ 63) (h : m ≤ n) : asI64 m ≤ asI64 n := by
  rw [asI64_of_lt hn, asI64_of_lt (by omega)]
  exact_mod_cast h

theorem le_asU64 (hn : n < 2 ^ 63) (hi : SmallInt i) (h : asI64 n ≤ i) : n ≤ asU64 i := by
  have := asU64_of_smallInt hi
  rw [asI64_of_lt hn] at h
  omega

theorem asU64_asI64 (n : Nat) : asU64 (asI64 n) = n % 2 ^ 64 := by
  unfold asI64 asU64
  split <;> omega

theorem asU64_asI64_of_lt (h : n < 2 ^ 64) : asU64 (asI64 n) = n := by
  rw [asU64_asI64, Nat.mod_eq_of_lt h]

theorem smallInt_asI64 (h : n < 2 ^ 63) : SmallInt (asI64 n) := by
  rw [asI64_of_lt h]
  exact ⟨by omega, by exact_mod_cast h⟩

theorem asU64_lt (i : Int) : asU64 i < 2 ^ 64 := by
  unfold asU64
  omega

/-! ### The signed order of unsigned values -/

def InI64 (i : Int) : Prop := -2 ^ 63 ≤ i ∧ i < 2 ^ 63

theorem inI64_asI64 (n : Nat) : InI64 (asI64 n) := by
  unfold InI64 asI64
  split <;> constructor <;> omega

theorem asI64_asU64 (h : InI64 i) : asI64 (asU64 i) = i := by
  obtain ⟨hlow, hhigh⟩ := h
  unfold asI64 asU64
  split <;> omega

/-- `m` comes before `n` when both are read as `i64`: the upper half comes first. -/
def SignedLt (m n : Nat) : Prop := (2 ^ 63 ≤ m ∧ n < 2 ^ 63) ∨ (m < n ∧ (2 ^ 63 ≤ m ↔ 2 ^ 63 ≤ n))

theorem asI64_lt_asI64 {m : Nat} (hm : m < 2 ^ 64) (hn : n < 2 ^ 64) : asI64 m < asI64 n ↔ SignedLt m n := by
  unfold asI64 SignedLt
  split <;> split <;> omega

theorem asI64_inj {m : Nat} (hm : m < 2 ^ 64) (hn : n < 2 ^ 64) : asI64 m = asI64 n ↔ m = n := by
  refine ⟨fun h => ?_, fun h => by rw [h]⟩
  rw [← asU64_asI64_of_lt hm, ← asU64_asI64_of_lt hn, h]

theorem signedLt_iff_of_lt {m : Nat} (hm : m < 2 ^ 63) (hn : n < 2 ^ 63) : SignedLt m n ↔ m < n := by
  unfold SignedLt
  omega

theorem le_asU64_iff_neg (h : InI64 i) : 2 ^ 63 ≤ asU64 i ↔ i < 0 := by
  obtain ⟨hlow, hhigh⟩ := h
  unfold asU64
  omega

theorem asU64_mono_of_half {j : Int} (hi : InI64 i) (hj : InI64 j) (h : i ≤ j) (hhalf : 0 ≤ i ∨ j < 0) :
    asU64 i ≤ asU64 j := by
  obtain ⟨hilow, hihigh⟩ := hi
  obtain ⟨hjlow, hjhigh⟩ := hj
  unfold asU64
  omega

/-- The signed maximum of some values is their unsigned one exactly when they are all in one half. -/
theorem signedMax_isMax_iff {values : Nat → Prop} (hlt : ∀ v, values v → v < 2 ^ 64) {top : Nat}
    (htop : values top) (hmax : ∀ v, values v → asI64 v ≤ asI64 top) :
    (∀ v, values v → v ≤ top) ↔ ∀ v w, values v → values w → (2 ^ 63 ≤ v ↔ 2 ^ 63 ≤ w) := by
  have hsigned : ∀ v, values v → ¬ SignedLt top v := fun v hv hbefore =>
    absurd ((asI64_lt_asI64 (hlt top htop) (hlt v hv)).mpr hbefore) (Int.not_lt.mpr (hmax v hv))
  unfold SignedLt at hsigned
  constructor
  · intro hall v w hv hw
    have := hsigned v hv
    have := hsigned w hw
    have := hall v hv
    have := hall w hw
    omega
  · intro hhalf v hv
    have := hsigned v hv
    have := hhalf v top hv htop
    omega

end Rvc.Lib
