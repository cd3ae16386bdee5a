import Mathlib.Tactic.NormNum.Prime
import Rvc.EthTypes.Canonical
import Rvc.Lib.Interpolation
import Rvc.Lib.Lucas
import Rvc.Lib.Slices

/-!
# Combining partial signatures

`dvt::lagrange` and the key splitting it inverts. The scalars are those of BLS12-381. The curve of the signatures is any
group with a compression that `blst` can undo; decompression does not look for the subgroup of the scalars' order, so
the points of partial signatures are any points. A message hashes into the subgroup, and its signature is a multiple of
that point.

The coefficients are those of interpolation at zero, so the partial signatures of as many shares as the threshold says,
whichever they are and in whichever order, combine to the signature of the key that was split. The external
`shamir::split_secret` is a parameter; its shares are values of one polynomial (`SharesPolynomial`).
-/

namespace Rvc.SignerServer.Dvt

open Rvc.Lib Rvc.Lib.Interpolation Rvc.EthTypes List ZMod Nat

/-! ### Scalars -/

def scalarOrder : ℕ := 52435875175126190479447740508185965837690552500527637822603658699938581184513

def scalarOrderFactors : List (ℕ × ℕ) :=
  [(2, 32), (3, 1), (11, 1), (19, 1), (10177, 1), (125527, 1), (859267, 1), (906349, 2), (2508409, 1), (2529403, 1),
    (52437899, 1), (254760293, 2)]

theorem prime_scalarOrder : scalarOrder.Prime := by
  apply @Lucas.prime_of_order scalarOrder 255 7 scalarOrderFactors (by decide) (by decide +kernel)
  · intro f hf
    simp only [scalarOrderFactors, mem_cons, not_mem_nil, or_false] at hf
    obtain rfl | rfl | rfl | rfl | rfl | rfl | rfl | rfl | rfl | rfl | rfl | rfl := hf <;> norm_num
  · decide +kernel
  · decide +kernel
  · decide +kernel

instance : Fact scalarOrder.Prime := ⟨prime_scalarOrder⟩

abbrev Scalar := ZMod scalarOrder

def scalarOfU64 (x : UInt64) : Scalar := (x.toNat : Scalar)

def invert (x : Scalar) : Option Scalar := if x = 0 then none else some x⁻¹

/-! ### `lagrange_coefficient` and `combine_partial_signatures` -/

inductive LagrangeError where
  | duplicateIndex (index : UInt64)
  | emptyPartials
  | invalidPartialSignature (index : UInt64)
  | verificationFailed
  deriving DecidableEq

def LagrangeError.message : LagrangeError → String
  | .duplicateIndex index => s!"duplicate index found: {index}"
  | .emptyPartials => "empty partials list"
  | .invalidPartialSignature index => s!"invalid partial signature at index {index}"
  | .verificationFailed => "combined signature verification failed"

def lagrangeFactor (xI : UInt64) (result : Scalar) (xJ : UInt64) : Except LagrangeError Scalar :=
  if xJ = xI then .ok result
  else
    match invert (scalarOfU64 xJ - scalarOfU64 xI) with
    | none => .error (.duplicateIndex xI)
    | some denomInv => .ok (result * (scalarOfU64 xJ * denomInv))

def lagrangeCoefficient (xI : UInt64) (indices : List UInt64) : Except LagrangeError Scalar :=
  indices.foldlM (lagrangeFactor xI) 1

def firstDuplicate : List UInt64 → Option UInt64
  | [] => none
  | index :: rest => if index ∈ rest then some index else firstDuplicate rest

abbrev SignatureBytes := Hex.Bytes 96

/-- Points of the curve of the signatures, as `blst` compresses them, and the messages among them. -/
structure Curve (P : Type) [AddCommGroup P] where
  compress : P → SignatureBytes
  uncompress : SignatureBytes → Option P
  uncompress_compress : ∀ point, uncompress (compress point) = some point
  hash : Root → P
  order_nsmul_hash : ∀ message, scalarOrder • hash message = 0

abbrev Partial := UInt64 × SignatureBytes

section

variable {P : Type} [AddCommGroup P] (curve : Curve P)

def accumulate (indices : List UInt64) (accumulator : Option P) (p : Partial) : Except LagrangeError (Option P) := do
  let coeff ← lagrangeCoefficient p.1 indices
  match curve.uncompress p.2 with
  | none => .error (.invalidPartialSignature p.1)
  | some point =>
    match accumulator with
    | none => .ok (some (coeff.val • point))
    | some sum => .ok (some (sum + coeff.val • point))

def combinePartialSignatures (partials : List Partial) : Except LagrangeError SignatureBytes := do
  if partials = [] then .error .emptyPartials
  else
    let indices := partials.map Prod.fst
    match firstDuplicate indices with
    | some index => .error (.duplicateIndex index)
    | none =>
      let accumulator ← partials.foldlM (accumulate curve indices) none
      .ok (curve.compress (accumulator.getD 0))

def Curve.sign (key : Scalar) (message : Root) : SignatureBytes := curve.compress (key.val • curve.hash message)

end

/-! ### `verify_combined_signature` -/

/-- Public keys beside the signatures, and the pairing that compares the two. -/
structure Scheme (P Q T : Type) [AddCommGroup P] [AddCommGroup Q] [AddCommGroup T] extends Curve P where
  compressKey : Q → Hex.Bytes 48
  uncompressKey : Hex.Bytes 48 → Option Q
  uncompress_compressKey : ∀ point, uncompressKey (compressKey point) = some point
  generator : Q
  generator_ne_zero : generator ≠ 0
  order_nsmul_generator : scalarOrder • generator = 0
  pairing : Q →+ P →+ T

section

variable {P Q T : Type} [AddCommGroup P] [AddCommGroup Q] [AddCommGroup T] (scheme : Scheme P Q T)

def Scheme.publicKey (key : Scalar) : Hex.Bytes 48 := scheme.compressKey (key.val • scheme.generator)

variable [DecidableEq P] [DecidableEq Q] [DecidableEq T]

/-- `Signature::verify` with both checks on: the signature is in the subgroup, the public key is too and is not zero. -/
def Scheme.verify (sig : P) (pk : Q) (message : Root) : Prop :=
  scalarOrder • sig = 0 ∧ pk ≠ 0 ∧ scalarOrder • pk = 0 ∧
    scheme.pairing pk (scheme.hash message) = scheme.pairing scheme.generator sig

instance (sig : P) (pk : Q) (message : Root) : Decidable (scheme.verify sig pk message) :=
  inferInstanceAs (Decidable (_ ∧ _))

def verifyCombinedSignature (sigBytes : SignatureBytes) (pubkeyBytes : Hex.Bytes 48) (message : Root) :
    Except LagrangeError Unit :=
  match scheme.uncompress sigBytes, scheme.uncompressKey pubkeyBytes with
  | some sig, some pk => if scheme.verify sig pk message then .ok () else .error .verificationFailed
  | _, _ => .error .verificationFailed

end

/-! ### Splitting a key -/

inductive SplitKeyError where
  | thresholdZero
  | sharesBelowTwo
  | thresholdAboveShares (threshold shares : UInt64)
  | splitFailed (error : String)
  | shareConversion (index : UInt64)
  deriving DecidableEq

structure SplitKeyArgs where
  threshold : UInt64
  shares : UInt64

def validateArgs (args : SplitKeyArgs) : Except SplitKeyError Unit :=
  if args.threshold = 0 then .error .thresholdZero
  else if args.shares < 2 then .error .sharesBelowTwo
  else if args.shares < args.threshold then .error (.thresholdAboveShares args.threshold args.shares)
  else .ok ()

/-- `vsss_rs::shamir::split_secret` at a threshold, a number of shares and a secret, with what it draws: identifiers and
values, or an error as its debug text. -/
abbrev SplitSecret := ℕ → ℕ → Scalar → Except String (List (Scalar × Scalar))

/-- The shares are values of a polynomial below the threshold's degree that is the secret at zero, at identifiers that
fit in eight bytes. -/
def SplitSecret.SharesPolynomial (splitSecret : SplitSecret) : Prop :=
  ∀ threshold total secret shares, splitSecret threshold total secret = .ok shares →
    ∃ f : Polynomial Scalar, f.degree < threshold ∧ f.eval 0 = secret ∧
      ∀ share ∈ shares, share.1.val < 2 ^ 64 ∧ share.2 = f.eval share.1

def shareIndex (identifier : Scalar) : UInt64 := UInt64.ofNat identifier.val

def toShare (share : Scalar × Scalar) : Except SplitKeyError (UInt64 × Scalar) :=
  if share.2 = 0 then .error (.shareConversion (shareIndex share.1)) else .ok (shareIndex share.1, share.2)

/-- `split_key::execute`, up to the files: the index and the key of every share. -/
def splitKey (splitSecret : SplitSecret) (args : SplitKeyArgs) (secret : Scalar) :
    Except SplitKeyError (List (UInt64 × Scalar)) := do
  validateArgs args
  let shares ← (splitSecret args.threshold.toNat args.shares.toNat secret).mapError .splitFailed
  shares.mapM toShare

/-! ### The coefficients -/

theorem scalarOfU64_injective : Function.Injective scalarOfU64 := by
  intro x y h
  have hlt (z : UInt64) : z.toNat < scalarOrder := lt_trans z.toNat_lt (by decide)
  rw [scalarOfU64, scalarOfU64, natCast_eq_natCast_iff', mod_eq_of_lt (hlt x), mod_eq_of_lt (hlt y)] at h
  exact UInt64.toNat_inj.mp h

theorem invert_sub_eq_some {xI xJ : UInt64} (h : xJ ≠ xI) :
    invert (scalarOfU64 xJ - scalarOfU64 xI) = some (scalarOfU64 xJ - scalarOfU64 xI)⁻¹ :=
  if_neg (sub_ne_zero.mpr (scalarOfU64_injective.ne h))

theorem foldlM_lagrangeFactor (xI : UInt64) (indices : List UInt64) (result : Scalar) :
    indices.foldlM (lagrangeFactor xI) result =
      .ok (result * ((indices.filter (· ≠ xI)).map fun xJ =>
        scalarOfU64 xJ * (scalarOfU64 xJ - scalarOfU64 xI)⁻¹).prod) := by
  induction indices generalizing result with
  | nil => simp [pure, Except.pure]
  | cons xJ indices ih =>
    rw [foldlM_cons]
    by_cases h : xJ = xI
    · have hstep : lagrangeFactor xI result xJ = .ok result := if_pos h
      rw [hstep]
      exact (ih result).trans (by simp [h])
    · have hstep : lagrangeFactor xI result xJ =
          .ok (result * (scalarOfU64 xJ * (scalarOfU64 xJ - scalarOfU64 xI)⁻¹)) := by
        rw [lagrangeFactor, if_neg h, invert_sub_eq_some h]
      rw [hstep]
      exact (ih _).trans (by simp [h, mul_assoc])

theorem lagrangeCoefficient_eq {indices : List UInt64} (hnodup : indices.Nodup) (xI : UInt64) :
    lagrangeCoefficient xI indices = .ok (coefficient indices.toFinset scalarOfU64 xI) := by
  rw [lagrangeCoefficient, foldlM_lagrangeFactor, one_mul, coefficient]
  have herase : indices.toFinset.erase xI = (indices.filter (· ≠ xI)).toFinset := by
    ext
    simp [and_comm]
  rw [herase, prod_toFinset _ (hnodup.filter _)]

/-! ### The sum -/

theorem firstDuplicate_eq_none {indices : List UInt64} : firstDuplicate indices = none ↔ indices.Nodup := by
  induction indices with
  | nil => simp [firstDuplicate]
  | cons index rest ih =>
    by_cases h : index ∈ rest
    · simp [firstDuplicate, h]
    · simp [firstDuplicate, h, ih]

section

variable {P : Type} [AddCommGroup P] {curve : Curve P}

variable (curve) in
def Curve.multiple (message : Root) : Scalar →+ P :=
  ZMod.lift scalarOrder ⟨zmultiplesHom P (curve.hash message), by
    rw [zmultiplesHom_apply, natCast_zsmul, curve.order_nsmul_hash]⟩

theorem Curve.multiple_natCast (message : Root) (n : ℕ) :
    curve.multiple message (n : Scalar) = n • curve.hash message := by
  have hcast : (n : Scalar) = ((n : ℤ) : Scalar) := (Int.cast_natCast n).symm
  rw [hcast, multiple, lift_coe, zmultiplesHom_apply, natCast_zsmul]

theorem Curve.multiple_apply (message : Root) (key : Scalar) :
    curve.multiple message key = key.val • curve.hash message := by
  rw [← multiple_natCast, natCast_zmod_val]

theorem Curve.multiple_mul (message : Root) (coeff key : Scalar) :
    curve.multiple message (coeff * key) = coeff.val • key.val • curve.hash message := by
  rw [← mul_smul, ← multiple_natCast, Nat.cast_mul, natCast_zmod_val, natCast_zmod_val]

open Curve

theorem accumulate_sign {indices : List UInt64} (hnodup : indices.Nodup) (accumulator : Option P) (i : UInt64)
    (key : Scalar) (message : Root) : accumulate curve indices accumulator (i, curve.sign key message) =
      .ok (some (accumulator.getD 0 + curve.multiple message (coefficient indices.toFinset scalarOfU64 i * key))) := by
  have hpoint : curve.uncompress (curve.sign key message) = some (key.val • curve.hash message) :=
    curve.uncompress_compress _
  refine bind_eq_ok.mpr ⟨_, lagrangeCoefficient_eq hnodup i, ?_⟩
  cases accumulator with
  | none | some sum => simp [hpoint, multiple_mul]

theorem foldlM_accumulate {indices : List UInt64} (hnodup : indices.Nodup) (key : UInt64 → Scalar) (message : Root)
    (signers : List UInt64) (accumulator : Option P) : ∃ sum,
      (signers.map fun i => (i, curve.sign (key i) message)).foldlM (accumulate curve indices) accumulator = .ok sum ∧
      sum.getD 0 = accumulator.getD 0 + curve.multiple message
        (signers.map fun i => coefficient indices.toFinset scalarOfU64 i * key i).sum := by
  induction signers generalizing accumulator with
  | nil => exact ⟨accumulator, rfl, by simp⟩
  | cons i rest ih =>
    obtain ⟨sum, hsum, hvalue⟩ :=
      ih (some (accumulator.getD 0 + curve.multiple message (coefficient indices.toFinset scalarOfU64 i * key i)))
    refine ⟨sum, ?_, ?_⟩
    · rw [map_cons, foldlM_cons, accumulate_sign hnodup]
      exact hsum
    · rw [hvalue, map_cons, sum_cons, Option.getD_some, map_add, add_assoc]

/-- Signatures with the values of a polynomial as keys combine to the one with its value at zero, when there are more
of them than its degree. -/
theorem combine_of_eval {indices : List UInt64} (hne : indices ≠ []) (hnodup : indices.Nodup) {f : Polynomial Scalar}
    (hdegree : f.degree < indices.length) (message : Root) :
    combinePartialSignatures curve (indices.map fun i => (i, curve.sign (f.eval (scalarOfU64 i)) message)) =
      .ok (curve.sign (f.eval 0) message) := by
  obtain ⟨sum, hsum, hvalue⟩ := @foldlM_accumulate P _ curve indices hnodup
    (fun i => f.eval (scalarOfU64 i)) message indices none
  have hpoint : sum.getD 0 = (f.eval 0).val • curve.hash message := by
    have hcard : f.degree < indices.toFinset.card := by rwa [toFinset_card_of_nodup hnodup]
    rw [hvalue, ← sum_toFinset _ hnodup, sum_coefficient_mul scalarOfU64_injective.injOn hcard,
      Option.getD_none, zero_add, multiple_apply]
  have hindices : (indices.map fun i => (i, curve.sign (f.eval (scalarOfU64 i)) message)).map Prod.fst = indices := by
    rw [map_map]
    exact map_id indices
  rw [combinePartialSignatures, if_neg (by simpa using hne), hindices]
  dsimp only
  rw [firstDuplicate_eq_none.mpr hnodup]
  exact bind_eq_ok.mpr ⟨sum, hsum, by rw [hpoint, sign]⟩

theorem exists_point_of_foldlM {indices : List UInt64} {partials : List Partial} {accumulator sum : Option P}
    (h : partials.foldlM (accumulate curve indices) accumulator = .ok sum) :
    ∀ p ∈ partials, ∃ point, curve.uncompress p.2 = some point := by
  induction partials generalizing accumulator with
  | nil => exact nofun
  | cons p rest ih =>
    rw [foldlM_cons] at h
    obtain ⟨next, hnext, hrest⟩ := bind_eq_ok.mp h
    obtain ⟨coeff, -, hnext⟩ := bind_eq_ok.mp hnext
    refine forall_mem_cons.mpr ⟨?_, ih hrest⟩
    cases hpoint : curve.uncompress p.2 with
    | none =>
      rw [hpoint] at hnext
      cases hnext
    | some point => exact ⟨point, rfl⟩

/-- One partial that is no point takes the whole combination down. -/
theorem exists_point_of_combine {partials : List Partial} {combined : SignatureBytes}
    (h : combinePartialSignatures curve partials = .ok combined) :
    ∀ p ∈ partials, ∃ point, curve.uncompress p.2 = some point := by
  unfold combinePartialSignatures at h
  split at h
  · cases h
  · dsimp only at h
    split at h
    · cases h
    · obtain ⟨sum, hsum, -⟩ := bind_eq_ok.mp h
      exact exists_point_of_foldlM hsum

theorem combine_of_duplicate {partials : List Partial} (h : ¬(partials.map Prod.fst).Nodup) :
    ∃ index, combinePartialSignatures curve partials = .error (.duplicateIndex index) := by
  obtain ⟨index, hindex⟩ := Option.ne_none_iff_exists'.mp (mt firstDuplicate_eq_none.mp h)
  have hne : partials ≠ [] := by
    rintro rfl
    exact h nodup_nil
  refine ⟨index, ?_⟩
  rw [combinePartialSignatures, if_neg hne]
  dsimp only
  rw [hindex]

end

/-! ### Verification -/

section

variable {P Q T : Type} [AddCommGroup P] [AddCommGroup Q] [AddCommGroup T] (scheme : Scheme P Q T)

theorem Scheme.val_nsmul_generator_ne_zero {key : Scalar} (h : key ≠ 0) : key.val • scheme.generator ≠ 0 := by
  intro hzero
  have horder : addOrderOf scheme.generator = scalarOrder :=
    addOrderOf_eq_prime scheme.order_nsmul_generator scheme.generator_ne_zero
  have hdvd := addOrderOf_dvd_of_nsmul_eq_zero hzero
  rw [horder] at hdvd
  exact h ((val_eq_zero key).mp (eq_zero_of_dvd_of_lt hdvd key.val_lt))

variable [DecidableEq P] [DecidableEq Q] [DecidableEq T]

theorem verify_sign {key : Scalar} (h : key ≠ 0) (message : Root) :
    verifyCombinedSignature scheme (scheme.sign key message) (scheme.publicKey key) message = .ok () := by
  have hverify : scheme.verify (key.val • scheme.hash message) (key.val • scheme.generator) message := by
    refine ⟨?_, scheme.val_nsmul_generator_ne_zero h, ?_, ?_⟩
    · rw [smul_comm, scheme.order_nsmul_hash, smul_zero]
    · rw [smul_comm, scheme.order_nsmul_generator, smul_zero]
    · rw [map_nsmul, map_nsmul, AddMonoidHom.nsmul_apply]
  rw [verifyCombinedSignature, Curve.sign, scheme.uncompress_compress, Scheme.publicKey, scheme.uncompress_compressKey]
  exact if_pos hverify

end

/-! ### Shares of a key -/

theorem threshold_pos {args : SplitKeyArgs} (h : validateArgs args = .ok ()) : 0 < args.threshold.toNat := by
  unfold validateArgs at h
  split at h
  · cases h
  · next hzero => exact pos_of_ne_zero fun heq => hzero (UInt64.toNat_inj.mp heq)

theorem scalarOfU64_shareIndex {identifier : Scalar} (h : identifier.val < 2 ^ 64) :
    scalarOfU64 (shareIndex identifier) = identifier := by
  rw [shareIndex, scalarOfU64, UInt64.toNat_ofNat', mod_eq_of_lt h, natCast_zmod_val]

section

variable {splitSecret : SplitSecret} {args : SplitKeyArgs} {secret : Scalar} {shares : List (UInt64 × Scalar)}

theorem eval_of_splitKey (hsplit : splitSecret.SharesPolynomial) (h : splitKey splitSecret args secret = .ok shares) :
    ∃ f : Polynomial Scalar, f.degree < args.threshold.toNat ∧ f.eval 0 = secret ∧
      ∀ share ∈ shares, share.2 = f.eval (scalarOfU64 share.1) := by
  obtain ⟨_, -, h⟩ := bind_eq_ok.mp h
  obtain ⟨points, hpoints, h⟩ := bind_eq_ok.mp h
  obtain ⟨f, hdegree, hsecret, hvalues⟩ := hsplit _ _ _ _ (mapError_eq_ok.mp hpoints)
  refine ⟨f, hdegree, hsecret, fun share hshare => ?_⟩
  obtain ⟨point, hpoint, hshare⟩ := exists_of_mem_mapM h hshare
  obtain ⟨hsmall, hvalue⟩ := hvalues point hpoint
  unfold toShare at hshare
  split at hshare
  · cases hshare
  · cases hshare
    rw [scalarOfU64_shareIndex hsmall, hvalue]

variable {P : Type} [AddCommGroup P]

theorem combine_of_splitKey (curve : Curve P) (hsplit : splitSecret.SharesPolynomial)
    (h : splitKey splitSecret args secret = .ok shares) {chosen : List (UInt64 × Scalar)} (hchosen : chosen ⊆ shares)
    (hnodup : chosen.Nodup) (hthreshold : args.threshold.toNat ≤ chosen.length) (message : Root) :
    combinePartialSignatures curve (chosen.map fun share => (share.1, curve.sign share.2 message)) =
      .ok (curve.sign secret message) := by
  obtain ⟨_, hargs, -⟩ := bind_eq_ok.mp h
  have hpos := threshold_pos hargs
  obtain ⟨f, hdegree, rfl, hshares⟩ := eval_of_splitKey hsplit h
  have hvalue : ∀ share ∈ chosen, share.2 = f.eval (scalarOfU64 share.1) :=
    fun share hshare => hshares share (hchosen hshare)
  have hindices : (chosen.map Prod.fst).Nodup := by
    refine hnodup.map_on fun a ha b hb hab => Prod.ext hab ?_
    rw [hvalue a ha, hvalue b hb, hab]
  have hpartials : (chosen.map fun share => (share.1, curve.sign share.2 message)) =
      (chosen.map Prod.fst).map fun i => (i, curve.sign (f.eval (scalarOfU64 i)) message) := by
    rw [map_map]
    exact map_congr_left fun share hshare => by rw [Function.comp, ← hvalue share hshare]
  have hne : chosen.map Prod.fst ≠ [] := by
    rintro hnil
    rw [map_eq_nil_iff.mp hnil, length_nil] at hthreshold
    omega
  rw [hpartials]
  refine combine_of_eval hne hindices ?_ message
  rw [length_map]
  exact lt_of_lt_of_le hdegree (cast_le.mpr hthreshold)

/-- The coefficients interpolate at zero, so the partial signatures of at least as many shares of a key as its threshold
combine to the signature of the key; no partials and repeated indices are refused. -/
theorem combine_correct (curve : Curve P) {splitSecret : SplitSecret} (hsplit : splitSecret.SharesPolynomial) :
    (∀ (indices : List UInt64) (f : Polynomial Scalar), indices ≠ [] → indices.Nodup → f.degree < indices.length →
      ∃ coeff : UInt64 → Scalar, (∀ i ∈ indices, lagrangeCoefficient i indices = .ok (coeff i)) ∧
        (indices.map fun i => coeff i * f.eval (scalarOfU64 i)).sum = f.eval 0) ∧
    (∀ args secret shares chosen (message : Root), splitKey splitSecret args secret = .ok shares →
      chosen ⊆ shares → chosen.Nodup → args.threshold.toNat ≤ chosen.length →
      combinePartialSignatures curve (chosen.map fun share => (share.1, curve.sign share.2 message)) =
        .ok (curve.sign secret message)) ∧ combinePartialSignatures curve [] = .error .emptyPartials ∧
    ∀ partials : List Partial, ¬(partials.map Prod.fst).Nodup →
      ∃ index, combinePartialSignatures curve partials = .error (.duplicateIndex index) := by
  refine ⟨?_, ?_, rfl, fun partials => combine_of_duplicate⟩
  · intro indices f _ hnodup hdegree
    refine ⟨coefficient indices.toFinset scalarOfU64, fun i _ => lagrangeCoefficient_eq hnodup i, ?_⟩
    rw [← sum_toFinset _ hnodup]
    exact sum_coefficient_mul scalarOfU64_injective.injOn (by rwa [toFinset_card_of_nodup hnodup])
  · intro args secret shares chosen message h hchosen hnodup hthreshold
    exact combine_of_splitKey curve hsplit h hchosen hnodup hthreshold message

end

/-- The scalars themselves, in 96 bytes; a message is the number that its bytes write. -/
def scalarCurve : Curve Scalar where
  compress point := ⟨LittleEndian.toBytes 96 point.val, LittleEndian.length_toBytes ..⟩
  uncompress bytes :=
    let n := LittleEndian.ofBytes bytes.1
    if n < scalarOrder then some (n : Scalar) else none
  uncompress_compress point := by
    have hlt : point.val < 256 ^ 96 := lt_trans point.val_lt (by decide)
    rw [LittleEndian.ofBytes_toBytes_of_lt hlt, if_pos point.val_lt, ZMod.natCast_zmod_val]
  hash message := (LittleEndian.ofBytes message.1 : Scalar)
  order_nsmul_hash message := by rw [nsmul_eq_mul, ZMod.natCast_self, zero_mul]

/-- Shares of the line of slope one through the secret, from a threshold of two on. -/
def splitByLine : SplitSecret := fun threshold total secret =>
  if threshold < 2 then .error "SharingMinThreshold"
  else .ok ((List.range total).map fun k => (((k + 1) % 2 ^ 64 : ℕ), secret + ((k + 1) % 2 ^ 64 : ℕ)))

theorem splitByLine_sharesPolynomial : splitByLine.SharesPolynomial := by
  intro threshold total secret shares h
  unfold splitByLine at h
  split at h
  · cases h
  next htwo =>
  cases h
  refine ⟨Polynomial.X + Polynomial.C secret, ?_, by simp, fun share hshare => ?_⟩
  · rw [Polynomial.degree_X_add_C]
    exact one_lt_cast.mpr (by omega)
  · obtain ⟨k, -, rfl⟩ := mem_map.mp hshare
    have hsmall : (k + 1) % 2 ^ 64 < 2 ^ 64 := mod_lt _ (by decide)
    refine ⟨?_, by simp [add_comm]⟩
    rwa [val_cast_of_lt (lt_trans hsmall (by decide))]

theorem combine_correct_two_of_three : splitKey splitByLine ⟨2, 3⟩ 5 = .ok [(1, 6), (2, 7), (3, 8)] ∧
      ∀ message, combinePartialSignatures scalarCurve
          [(3, scalarCurve.sign 8 message), (1, scalarCurve.sign 6 message)] =
        .ok (scalarCurve.sign 5 message) := by
  have hsplit : splitKey splitByLine ⟨2, 3⟩ 5 = .ok [(1, 6), (2, 7), (3, 8)] := by decide +kernel
  refine ⟨hsplit, fun message => (combine_correct scalarCurve splitByLine_sharesPolynomial).2.1 _ _ _ [(3, 8), (1, 6)]
    message hsplit ?_ ?_ ?_⟩
  · decide +kernel
  · decide +kernel
  · decide

end Rvc.SignerServer.Dvt
