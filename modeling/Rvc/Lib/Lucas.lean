import Mathlib.NumberTheory.LucasPrimality

/-!
# Primes of a few hundred bits

Lucas' test for a number whose predecessor is given with its prime factors. The powers are computed with one squaring
for each bit of the exponent, on numbers below the modulus.
-/

namespace Rvc.Lib.Lucas

/-- `acc * base ^ e` modulo `m`, from the low bits of `e` on; `fuel` is at least the number of its bits. -/
def powMod (m : ℕ) : ℕ → ℕ → ℕ → ℕ → ℕ
  | 0, acc, _, _ => acc % m
  | fuel + 1, acc, base, e =>
    powMod m fuel (if e % 2 = 1 then acc * base % m else acc) (base * base % m) (e / 2)

theorem natCast_powMod (m : ℕ) {fuel e : ℕ} (hfuel : e < 2 ^ fuel) (acc base : ℕ) :
    (powMod m fuel acc base e : ZMod m) = acc * base ^ e := by
  induction fuel generalizing acc base e with
  | zero =>
    obtain rfl : e = 0 := by simpa using hfuel
    rw [powMod, ZMod.natCast_mod, pow_zero, mul_one]
  | succ fuel ih =>
    have hhalf : e / 2 < 2 ^ fuel := by
      omega
    have hsquare : ((base * base % m : ℕ) : ZMod m) ^ (e / 2) = (base : ZMod m) ^ (2 * (e / 2)) := by
      rw [ZMod.natCast_mod, Nat.cast_mul, pow_mul, sq]
    rw [powMod, ih hhalf, hsquare]
    split
    · next hodd =>
      rw [ZMod.natCast_mod, Nat.cast_mul, mul_assoc, ← pow_succ']
      congr 2
      omega
    · next heven =>
      congr 2
      omega

theorem powMod_lt {m : ℕ} (hm : 0 < m) (fuel acc base e : ℕ) : powMod m fuel acc base e < m := by
  induction fuel generalizing acc base e with
  | zero => exact Nat.mod_lt acc hm
  | succ fuel ih => exact ih ..

/-- `p` is prime when `a` has order `p - 1` modulo `p`. The factors of `p - 1` are given with their exponents. -/
theorem prime_of_order {p fuel : ℕ} (a : ℕ) (factors : List (ℕ × ℕ)) (hp : 2 ≤ p) (hfuel : p ≤ 2 ^ fuel)
    (hprime : ∀ f ∈ factors, f.1.Prime) (hproduct : (factors.map fun f => f.1 ^ f.2).prod = p - 1)
    (hone : powMod p fuel 1 a (p - 1) = 1) (hother : ∀ f ∈ factors, powMod p fuel 1 a ((p - 1) / f.1) ≠ 1) :
    p.Prime := by
  have hpower {e : ℕ} (he : e ≤ p - 1) : (powMod p fuel 1 a e : ZMod p) = (a : ZMod p) ^ e := by
    rw [natCast_powMod p (by omega), Nat.cast_one, one_mul]
  apply lucas_primality p (a : ZMod p)
  · rw [← hpower le_rfl, hone, Nat.cast_one]
  · intro q hq hdvd hpow
    rw [← hproduct] at hdvd
    obtain ⟨x, hx, hqx⟩ := (Prime.dvd_prod_iff hq.prime).mp hdvd
    obtain ⟨f, hf, rfl⟩ := List.mem_map.mp hx
    obtain rfl : q = f.1 := (Nat.prime_dvd_prime_iff_eq hq (hprime f hf)).mp (hq.dvd_of_dvd_pow hqx)
    have hcast : (powMod p fuel 1 a ((p - 1) / f.1) : ZMod p) = (1 : ℕ) := by
      rw [hpower (Nat.div_le_self _ _), hpow, Nat.cast_one]
    rw [ZMod.natCast_eq_natCast_iff', Nat.mod_eq_of_lt (powMod_lt (by omega) ..), Nat.mod_eq_of_lt hp] at hcast
    exact hother f hf hcast

end Rvc.Lib.Lucas
