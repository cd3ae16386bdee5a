import Rvc.Lib.Enumerate
import Rvc.SignerServer.Dvt.Lagrange

/-!
# Coordinating a threshold signature

`DvtSigner::coordinate`. The coordinator signs with its own share, asks its peers for theirs, and combines what comes
back. It has no keys to check a single partial with, only the public key of the group. For a payload attestation it
looks for a subset of the partials that combines to a signature which verifies, so that a peer that lies takes nothing
away from those that do not.

A duty is a session of the payload timeliness committee in two encodings, its own variant and `Root` with the duty's
number. Both have the filter on sessions, and only the first has the search for a subset.
-/

namespace Rvc.SignerServer.Dvt.Coordinate

open Rvc.Lib Rvc.EthTypes List Polynomial Nat

/-! ### Duties and sessions -/

structure ForkInfo where
  currentVersion : List UInt8

def dutyPayloadAttestation : Int32 := 3

inductive PartialSignDuty where
  | beaconBlock
  | attestationData
  | syncCommittee
  | payloadAttestation (forkInfo : ForkInfo) (objectRoot : List UInt8)
  | blockHeader
  | root (forkInfo : ForkInfo) (objectRoot : List UInt8) (duty : Int32)

structure PtcSessionIdentity where
  objectRoot : Root
  forkVersion : Hex.Bytes 4
  deriving DecidableEq

structure PeerPartial where
  shareIndex : UInt64
  signature : SignatureBytes
  ptcSession : Option PtcSessionIdentity

def PeerPartial.ofPair (pair : Partial) : PeerPartial := ⟨pair.1, pair.2, none⟩

def PeerPartial.toPair (p : PeerPartial) : Partial := (p.shareIndex, p.signature)

inductive PtcDutyKind where
  | notPtc
  | session (identity : PtcSessionIdentity)
  | unparsable
  deriving DecidableEq

def ptcSessionFrom (forkInfo : ForkInfo) (objectRoot : List UInt8) : PtcDutyKind :=
  if hroot : objectRoot.length = 32 then
    if hversion : forkInfo.currentVersion.length = 4 then
      .session ⟨⟨objectRoot, hroot⟩, ⟨forkInfo.currentVersion, hversion⟩⟩
    else .unparsable
  else .unparsable

def PartialSignDuty.ptcDutyKind : PartialSignDuty → PtcDutyKind
  | .payloadAttestation forkInfo objectRoot => ptcSessionFrom forkInfo objectRoot
  | .root forkInfo objectRoot duty =>
    if duty = dutyPayloadAttestation then ptcSessionFrom forkInfo objectRoot else .notPtc
  | _ => .notPtc

def PartialSignDuty.isPayloadAttestation : PartialSignDuty → Bool
  | .payloadAttestation .. => true
  | _ => false

def ptcPartialAgreesWithSession (duty : PartialSignDuty) (p : PeerPartial) : Bool :=
  match duty.ptcDutyKind with
  | .notPtc => true
  | .unparsable => false
  | .session session =>
    match p.ptcSession with
    | none => true
    | some peer => peer.objectRoot = session.objectRoot ∧ peer.forkVersion = session.forkVersion

/-! ### `each_index_combination` -/

/-- The inner loop, on a part of the places: the last one that can go up does, and those after it follow it. -/
def advance (n : ℕ) : List ℕ → Option (List ℕ)
  | [] => none
  | x :: rest =>
    match advance n rest with
    | some rest' => some (x :: rest')
    | none =>
      if x < n - (rest.length + 1) then some (List.range' (x + 1) (rest.length + 1)) else none

/-- The visits stop at the first result. There are no more than `2 ^ n` of them. -/
def eachIndexCombination {β : Type} (n k : ℕ) (visit : List ℕ → Option β) : Option β :=
  if k = 0 ∨ n < k then none else search (advance n) visit (2 ^ n) (some (List.range k))

/-! ### `bind_ptc_partials_to_signing_root` -/

section

variable {P Q T : Type} [AddCommGroup P] [AddCommGroup Q] [AddCommGroup T]
variable [DecidableEq P] [DecidableEq Q] [DecidableEq T] (scheme : Scheme P Q T)

def verifyingSubset (partials : List Partial) (pubkey : Hex.Bytes 48) (signingRoot : Root) (idxs : List ℕ) :
    Option (List Partial) :=
  let subset := idxs.filterMap (partials[·]?)
  match combinePartialSignatures scheme.toCurve subset with
  | .error _ => none
  | .ok combined =>
    match verifyCombinedSignature scheme combined pubkey signingRoot with
    | .error _ => none
    | .ok _ => some subset

def bindPtcPartialsToSigningRoot (partials : List Partial) (threshold : UInt64) (pubkey : Hex.Bytes 48)
    (signingRoot : Root) : List Partial :=
  let n := partials.length
  let t := threshold.toNat
  if n < t then partials
  else
    let found := (List.range' t (n + 1 - t)).reverse.findSome? fun size =>
      eachIndexCombination n size (verifyingSubset scheme partials pubkey signingRoot)
    -- with no such subset the own share alone goes to the check of the threshold
    found.getD (partials.take 1)

end

/-! ### `coordinate` -/

inductive SigningBackendError where
  | keyNotFound (pubkey : Hex.Bytes 48)
  | signingFailed (message : String)
  deriving DecidableEq

inductive PeerRequestError where
  | requestFailed (message : String)
  | timeout

/-- What `join_next` gives for one peer: its answer, or that the time was up, or that the task panicked. -/
inductive Joined where
  | answered (result : Except PeerRequestError PeerPartial)
  | elapsed
  | panicked

def Joined.received : Joined → Option PeerPartial
  | .answered (.ok p) => some p
  | _ => none

structure ShareInfo where
  threshold : UInt64
  scalarBytes : Hex.Bytes 32

structure DvtKeyInfo where
  share : ShareInfo
  peerAddrs : List String

structure DvtSigner where
  keys : List (Hex.Bytes 48 × DvtKeyInfo)
  ownIndex : UInt64
  hasPeerRequester : Bool

/-- `SecretKey::from_bytes`: a number below the order, big-endian, and not zero. -/
def secretKeyFromBytes (bytes : Hex.Bytes 32) : Option Scalar :=
  let n := LittleEndian.ofBytes bytes.1.reverse
  if n = 0 ∨ scalarOrder ≤ n then none else some n

def dutyRequired : String :=
  "DVT peer partial requests require a typed duty payload (call sign_with_duty); " ++
    "the v2 PeerSignerService does not accept a raw signing root"

section

variable {P Q T : Type} [AddCommGroup P] [AddCommGroup Q] [AddCommGroup T] (scheme : Scheme P Q T)

def DvtSigner.ownPartial (signer : DvtSigner) (signingRoot : Root) (share : ShareInfo) :
    Except SigningBackendError Partial :=
  match secretKeyFromBytes share.scalarBytes with
  | none => .error (.signingFailed "invalid share scalar bytes")
  | some sk => .ok (signer.ownIndex, scheme.sign sk signingRoot)

def rejectUnparsable (duty : Option PartialSignDuty) : Except SigningBackendError Unit :=
  match duty with
  | none => .ok ()
  | some duty =>
    if duty.ptcDutyKind = .unparsable then
      .error (.signingFailed "PTC duty has unparsable object_root or fork_version")
    else .ok ()

/-- The own partial and those of the peers, in the order they come, without those of another session. -/
def DvtSigner.collect (signer : DvtSigner) (duty : Option PartialSignDuty) (ownPartial : Partial)
    (joined : List Joined) : Except SigningBackendError (List Partial) :=
  if signer.hasPeerRequester then
    match duty with
    | none => .error (.signingFailed dutyRequired)
    | some duty =>
      .ok (ownPartial ::
        ((joined.filterMap Joined.received).filter (ptcPartialAgreesWithSession duty)).map PeerPartial.toPair)
  else .ok [ownPartial]

variable [DecidableEq P] [DecidableEq Q] [DecidableEq T]

def combineVerified (threshold : UInt64) (pubkey : Hex.Bytes 48) (signingRoot : Root) (partials : List Partial) :
    Except SigningBackendError SignatureBytes := do
  if partials.length < threshold.toNat then
    .error (.signingFailed ("insufficient partials: got " ++ toString partials.length ++ ", need " ++
      toString threshold.toNat))
  else
    let combined ← (combinePartialSignatures scheme.toCurve partials).mapError fun e =>
      .signingFailed ("failed to combine partials: " ++ e.message)
    (verifyCombinedSignature scheme combined pubkey signingRoot).mapError fun e =>
      .signingFailed ("combined signature verification failed: " ++ e.message)
    .ok combined

section

variable (signer : DvtSigner) (signingRoot : Root) (pubkey : Hex.Bytes 48)

def DvtSigner.coordinate
    (duty : Option PartialSignDuty) (joined : List Joined) : Except SigningBackendError SignatureBytes := do
  match signer.keys.lookup pubkey with
  | none => .error (.keyNotFound pubkey)
  | some keyInfo =>
    rejectUnparsable duty
    let threshold := keyInfo.share.threshold
    let ownPartial ← signer.ownPartial scheme signingRoot keyInfo.share
    let partials ← signer.collect duty ownPartial joined
    let bound :=
      if duty.any PartialSignDuty.isPayloadAttestation then
        bindPtcPartialsToSigningRoot scheme partials threshold pubkey signingRoot
      else partials
    combineVerified scheme threshold pubkey signingRoot bound

end

end

/-! ### The combinations visited -/

theorem advance_cons (n x : ℕ) (rest : List ℕ) : advance n (x :: rest) = ((advance n rest).map (x :: ·)).or
      (if x < n - (rest.length + 1) then some (List.range' (x + 1) (rest.length + 1)) else none) := by
  rw [advance]
  cases advance n rest with
  | none | some => rfl

theorem path_combinations {n m : ℕ} (hm : m ≤ n) (k : ℕ) :
    Path (advance n) (if k ≤ m then some (List.range' (n - m) k) else none)
      (combinations k (List.range' (n - m) m)) none := by
  induction m generalizing k with
  | zero =>
    cases k with
    | zero => exact .cons (.nil none)
    | succ k => exact .nil none
  | succ m ih =>
    cases k with
    | zero => exact .cons (.nil none)
    | succ k =>
      have hplace : n - (m + 1) + 1 = n - m := by omega
      have hrange (len : ℕ) : range' (n - (m + 1)) (len + 1) = (n - (m + 1)) :: range' (n - m) len := by
        rw [range'_succ, hplace]
      have hrest := ih (le_of_succ_le hm)
      have hnext (rest : List ℕ) (hmem : rest ∈ combinations k (range' (n - m) m)) :
          advance n ((n - (m + 1)) :: rest) = ((advance n rest).map ((n - (m + 1)) :: ·)).or
            (if k + 1 ≤ m then some (range' (n - m) (k + 1)) else none) := by
        have hlt : n - (m + 1) < n - (k + 1) ↔ k + 1 ≤ m := by omega
        rw [advance_cons, (mem_combinations.mp hmem).2, hplace, if_congr hlt rfl rfl]
      have hpath := ((hrest k).map hnext).append (hrest (k + 1))
      have hstart : ((if k ≤ m then some (range' (n - m) k) else none).map ((n - (m + 1)) :: ·)).or
            (if k + 1 ≤ m then some (range' (n - m) (k + 1)) else none) =
          if k + 1 ≤ m + 1 then some (range' (n - (m + 1)) (k + 1)) else none := by
        by_cases hk : k ≤ m
        · rw [if_pos hk, if_pos (succ_le_succ hk), hrange k]
          rfl
        · rw [if_neg hk, if_neg (by omega), if_neg (by omega)]
          rfl
      rw [hstart] at hpath
      rw [hrange m]
      exact hpath

theorem path_range (n k : ℕ) :
    Path (advance n) (if k ≤ n then some (List.range k) else none) (combinations k (List.range n)) none := by
  have hpath := path_combinations (Nat.le_refl n) k
  rwa [Nat.sub_self, ← range_eq_range', ← range_eq_range'] at hpath

theorem eachIndexCombination_eq {β : Type} {n k : ℕ} (hk : 0 < k) (visit : List ℕ → Option β) :
    eachIndexCombination n k visit = (combinations k (List.range n)).findSome? visit := by
  have hfuel : (combinations k (range n)).length ≤ 2 ^ n := by
    simpa using length_combinations_le k (range n)
  rw [← (path_range n k).search_eq hfuel, eachIndexCombination]
  by_cases hkn : k ≤ n
  · rw [if_neg (by omega), if_pos hkn]
  · rw [if_pos (by omega), if_neg hkn, search]

theorem filterMap_getElem?_range {α : Type} (xs : List α) : (List.range xs.length).filterMap (xs[·]?) = xs := by
  induction xs with
  | nil => rfl
  | cons x xs ih =>
    rw [length_cons, range_succ_eq_map, filterMap_cons_some getElem?_cons_zero, filterMap_map]
    exact congrArg (x :: ·) ih

theorem length_filterMap_getElem? {α : Type} {xs : List α} {idxs : List ℕ}
    (h : idxs.Sublist (List.range xs.length)) : (idxs.filterMap (xs[·]?)).length = idxs.length := by
  refine filterMap_length_eq_length.mpr fun i hi => ?_
  rw [getElem?_eq_getElem (mem_range.mp (h.subset hi))]
  rfl

/-! ### The subset that is found -/

variable {signer : DvtSigner}

section

variable {P Q T : Type} [AddCommGroup P] [AddCommGroup Q] [AddCommGroup T]
variable [DecidableEq P] [DecidableEq Q] [DecidableEq T] (scheme : Scheme P Q T)
variable (pubkey : Hex.Bytes 48) (signingRoot : Root)

def Binds (partials : List Partial) : Prop :=
  ∃ combined, combinePartialSignatures scheme.toCurve partials = .ok combined ∧
    verifyCombinedSignature scheme combined pubkey signingRoot = .ok ()

variable {scheme pubkey signingRoot} {partials : List Partial}

theorem verifyingSubset_eq_some {subset : List Partial} {idxs : List ℕ} :
    verifyingSubset scheme partials pubkey signingRoot idxs = some subset ↔
      idxs.filterMap (partials[·]?) = subset ∧ Binds scheme pubkey signingRoot subset := by
  unfold verifyingSubset
  dsimp only
  constructor
  · intro h
    split at h
    · cases h
    · next combined hcombined =>
      split at h
      · cases h
      · next hverify =>
        cases h
        exact ⟨rfl, combined, hcombined, hverify⟩
  · rintro ⟨rfl, combined, hcombined, hverify⟩
    rw [hcombined]
    dsimp only
    rw [hverify]

theorem eachIndexCombination_eq_some {subset : List Partial} {size : ℕ}
    (h : eachIndexCombination partials.length size (verifyingSubset scheme partials pubkey signingRoot) = some subset) :
    subset.Sublist partials ∧ subset.length = size ∧ Binds scheme pubkey signingRoot subset := by
  have hpos : 0 < size := by
    by_contra hzero
    rw [eachIndexCombination, if_pos (.inl (Nat.eq_zero_of_not_pos hzero))] at h
    cases h
  rw [eachIndexCombination_eq hpos] at h
  obtain ⟨idxs, hidxs, hvisit⟩ := exists_of_findSome?_eq_some h
  obtain ⟨hsublist, rfl⟩ := mem_combinations.mp hidxs
  obtain ⟨rfl, hbinds⟩ := verifyingSubset_eq_some.mp hvisit
  refine ⟨?_, length_filterMap_getElem? hsublist, hbinds⟩
  have hpicked := hsublist.filterMap (partials[·]?)
  rwa [filterMap_getElem?_range] at hpicked

theorem Binds.ne_nil (h : Binds scheme pubkey signingRoot partials) : partials ≠ [] := by
  rintro rfl
  obtain ⟨combined, hcombined, -⟩ := h
  cases hcombined

theorem eachIndexCombination_ne_none {chosen : List Partial} (hchosen : chosen.Sublist partials)
    (hbinds : Binds scheme pubkey signingRoot chosen) :
    eachIndexCombination partials.length chosen.length (verifyingSubset scheme partials pubkey signingRoot) ≠ none := by
  intro hnone
  rw [eachIndexCombination_eq (length_pos_of_ne_nil hbinds.ne_nil), findSome?_eq_none_iff] at hnone
  rw [← filterMap_getElem?_range partials] at hchosen
  obtain ⟨idxs, hidxs, hpick⟩ := sublist_filterMap_iff.mp hchosen
  have hmem : idxs ∈ combinations chosen.length (range partials.length) :=
    mem_combinations.mpr ⟨hidxs, by rw [hpick, length_filterMap_getElem? hidxs]⟩
  have hvisit := verifyingSubset_eq_some.mpr ⟨hpick.symm, hbinds⟩
  rw [hnone idxs hmem] at hvisit
  cases hvisit

variable {threshold : UInt64}

theorem bind_sublist :
    (bindPtcPartialsToSigningRoot scheme partials threshold pubkey signingRoot).Sublist partials := by
  unfold bindPtcPartialsToSigningRoot
  dsimp only
  split
  · exact Sublist.refl _
  · cases hfound : (range' threshold.toNat (partials.length + 1 - threshold.toNat)).reverse.findSome? fun size =>
        eachIndexCombination partials.length size (verifyingSubset scheme partials pubkey signingRoot) with
    | none => exact take_sublist 1 partials
    | some subset =>
      obtain ⟨size, -, hsubset⟩ := exists_of_findSome?_eq_some hfound
      exact (eachIndexCombination_eq_some hsubset).1

theorem bind_binds {chosen : List Partial} (hchosen : chosen.Sublist partials)
    (hthreshold : threshold.toNat ≤ chosen.length) (hbinds : Binds scheme pubkey signingRoot chosen) :
    threshold.toNat ≤ (bindPtcPartialsToSigningRoot scheme partials threshold pubkey signingRoot).length ∧
      Binds scheme pubkey signingRoot (bindPtcPartialsToSigningRoot scheme partials threshold pubkey signingRoot) := by
  have hlength := hchosen.length_le
  rw [bindPtcPartialsToSigningRoot, if_neg (by omega)]
  cases hfound : (range' threshold.toNat (partials.length + 1 - threshold.toNat)).reverse.findSome? fun size =>
      eachIndexCombination partials.length size (verifyingSubset scheme partials pubkey signingRoot) with
  | none =>
    refine absurd (findSome?_eq_none_iff.mp hfound chosen.length ?_) (eachIndexCombination_ne_none hchosen hbinds)
    rw [mem_reverse, mem_range'_1]
    omega
  | some subset =>
    obtain ⟨size, hsize, hsubset⟩ := exists_of_findSome?_eq_some hfound
    rw [mem_reverse, mem_range'_1] at hsize
    obtain ⟨-, rfl, hsubsetBinds⟩ := eachIndexCombination_eq_some hsubset
    exact ⟨hsize.1, hsubsetBinds⟩

theorem combineVerified_eq_ok_iff : (∃ signature, combineVerified scheme threshold pubkey signingRoot partials =
      .ok signature) ↔ threshold.toNat ≤ partials.length ∧ Binds scheme pubkey signingRoot partials := by
  unfold combineVerified
  split
  · next hlt => exact ⟨fun ⟨_, h⟩ => (nomatch h), fun h => absurd h.1 (Nat.not_le.mpr hlt)⟩
  · next hge =>
    constructor
    · rintro ⟨signature, h⟩
      obtain ⟨combined, hcombined, h⟩ := bind_eq_ok.mp h
      obtain ⟨_, hverify, -⟩ := bind_eq_ok.mp h
      exact ⟨Nat.le_of_not_lt hge, combined, mapError_eq_ok.mp hcombined, mapError_eq_ok.mp hverify⟩
    · rintro ⟨-, combined, hcombined, hverify⟩
      exact ⟨combined, bind_eq_ok.mpr ⟨combined, mapError_eq_ok.mpr hcombined,
        bind_eq_ok.mpr ⟨(), mapError_eq_ok.mpr hverify, rfl⟩⟩⟩

theorem Binds.exists_point (h : Binds scheme pubkey signingRoot partials) :
    ∀ p ∈ partials, ∃ point, scheme.uncompress p.2 = some point := by
  obtain ⟨combined, hcombined, -⟩ := h
  exact exists_point_of_combine hcombined

variable {signature : SignatureBytes}

theorem verify_of_combineVerified (h : combineVerified scheme threshold pubkey signingRoot partials = .ok signature) :
    verifyCombinedSignature scheme signature pubkey signingRoot = .ok () := by
  unfold combineVerified at h
  split at h
  · cases h
  · obtain ⟨combined, -, h⟩ := bind_eq_ok.mp h
    obtain ⟨_, hverify, h⟩ := bind_eq_ok.mp h
    cases h
    exact mapError_eq_ok.mp hverify

theorem verify_of_coordinate {duty : Option PartialSignDuty} {joined : List Joined}
    (h : signer.coordinate scheme signingRoot pubkey duty joined = .ok signature) :
    verifyCombinedSignature scheme signature pubkey signingRoot = .ok () := by
  unfold DvtSigner.coordinate at h
  split at h
  · cases h
  · obtain ⟨_, -, h⟩ := bind_eq_ok.mp h
    obtain ⟨_, -, h⟩ := bind_eq_ok.mp h
    obtain ⟨_, -, h⟩ := bind_eq_ok.mp h
    exact verify_of_combineVerified h

end

/-! ### Correct partials -/

/-- A key whose shares are the values of a polynomial, so many of which determine it. -/
structure SharedKey where
  threshold : UInt64
  polynomial : Polynomial Scalar
  degree_lt : polynomial.degree < threshold.toNat
  key_ne_zero : polynomial.eval 0 ≠ 0

variable {session : PtcSessionIdentity} {signingRoot : Root}

namespace SharedKey

variable {P Q T : Type} [AddCommGroup P] [AddCommGroup Q] [AddCommGroup T] (scheme : Scheme P Q T)
variable (shared : SharedKey)

def publicKey : Hex.Bytes 48 := scheme.publicKey (shared.polynomial.eval 0)

/-- The signature of the share with that index. -/
def Correct (signingRoot : Root) (p : PeerPartial) : Prop :=
  p.signature = scheme.sign (shared.polynomial.eval (scalarOfU64 p.shareIndex)) signingRoot

theorem threshold_pos : 0 < shared.threshold.toNat := by
  refine pos_of_ne_zero fun hzero => shared.key_ne_zero ?_
  have hdegree := shared.degree_lt
  rw [hzero, cast_zero] at hdegree
  have hpolynomial : shared.polynomial = 0 :=
    by_contra fun hne => absurd hdegree (not_lt.mpr (zero_le_degree_iff.mpr hne))
  rw [hpolynomial, eval_zero]

variable {scheme shared} [DecidableEq P] [DecidableEq Q] [DecidableEq T]

theorem binds_of_correct {chosen : List PeerPartial}
    (hnodup : (chosen.map PeerPartial.shareIndex).Nodup) (hthreshold : shared.threshold.toNat ≤ chosen.length)
    (hcorrect : ∀ p ∈ chosen, shared.Correct scheme signingRoot p) :
    Binds scheme (shared.publicKey scheme) signingRoot (chosen.map PeerPartial.toPair) := by
  have hpairs : chosen.map PeerPartial.toPair = (chosen.map PeerPartial.shareIndex).map fun i =>
      (i, scheme.sign (shared.polynomial.eval (scalarOfU64 i)) signingRoot) := by
    rw [map_map]
    exact map_congr_left fun p hp => Prod.ext rfl (hcorrect p hp)
  have hne : chosen.map PeerPartial.shareIndex ≠ [] := by
    have hpos := shared.threshold_pos
    rw [← length_pos_iff, length_map]
    omega
  have hdegree : shared.polynomial.degree < (chosen.map PeerPartial.shareIndex).length := by
    rw [length_map]
    exact lt_of_lt_of_le shared.degree_lt (cast_le.mpr hthreshold)
  refine ⟨scheme.sign (shared.polynomial.eval 0) signingRoot, ?_, verify_sign scheme shared.key_ne_zero signingRoot⟩
  rw [hpairs, combine_of_eval hne hnodup hdegree]

end SharedKey

/-! ### Sessions -/

/-- The partials that the coordinator has, its own one first. -/
def DvtSigner.received (signer : DvtSigner) (ownPartial : Partial) (joined : List Joined) : List PeerPartial :=
  .ofPair ownPartial :: if signer.hasPeerRequester then joined.filterMap Joined.received else []

/-- Those of them that name no other session go on to be combined. -/
def DvtSigner.kept (signer : DvtSigner) (duty : PartialSignDuty) (ownPartial : Partial) (joined : List Joined) :
    List Partial :=
  ((signer.received ownPartial joined).filter (ptcPartialAgreesWithSession duty)).map PeerPartial.toPair

variable {duty : PartialSignDuty} (hduty : duty.ptcDutyKind = .session session)

include hduty

theorem agrees_of_session {p : PeerPartial} (h : ∀ named, p.ptcSession = some named → named = session) :
    ptcPartialAgreesWithSession duty p = true := by
  rw [ptcPartialAgreesWithSession, hduty]
  dsimp only
  split
  · rfl
  · next named hnamed =>
    obtain rfl := h named hnamed
    simp

theorem collect_of_session (ownPartial : Partial) (joined : List Joined) :
    signer.collect (some duty) ownPartial joined = .ok (signer.kept duty ownPartial joined) := by
  have hown : ptcPartialAgreesWithSession duty (.ofPair ownPartial) = true := agrees_of_session hduty nofun
  rw [DvtSigner.collect, DvtSigner.kept, DvtSigner.received, filter_cons_of_pos hown, map_cons]
  split
  · rfl
  · rfl

omit hduty

section

variable {P Q T : Type} [AddCommGroup P] [AddCommGroup Q] [AddCommGroup T]

/-- The coordinator has a share of the key, and what it received, at distinct indices, has as many correct partials of
the session as the threshold says. -/
structure DvtSigner.ThresholdMet (scheme : Scheme P Q T) (signingRoot : Root) (session : PtcSessionIdentity)
    (shared : SharedKey) (signer : DvtSigner) (keyInfo : DvtKeyInfo) (ownPartial : Partial) (joined : List Joined)
    (chosen : List PeerPartial) : Prop where
  key : signer.keys.lookup (shared.publicKey scheme) = some keyInfo
  threshold : keyInfo.share.threshold = shared.threshold
  own : signer.ownPartial scheme signingRoot keyInfo.share = .ok ownPartial
  distinct : ((signer.received ownPartial joined).map PeerPartial.shareIndex).Nodup
  received : chosen.Sublist (signer.received ownPartial joined)
  enough : shared.threshold.toNat ≤ chosen.length
  correct : ∀ p ∈ chosen, shared.Correct scheme signingRoot p
  session : ∀ p ∈ chosen, ∀ named, p.ptcSession = some named → named = session

variable {scheme : Scheme P Q T} [DecidableEq P] [DecidableEq Q] [DecidableEq T]

variable (scheme) in
/-- Whatever the other partials are, the session has its signature. -/
def Unvetoed (signingRoot : Root) (duty : PartialSignDuty) (session : PtcSessionIdentity) : Prop :=
  ∀ shared signer keyInfo ownPartial joined chosen,
    DvtSigner.ThresholdMet scheme signingRoot session shared signer keyInfo ownPartial joined chosen →
    ∃ signature, signer.coordinate scheme signingRoot (shared.publicKey scheme) (some duty) joined = .ok signature

theorem coordinate_eq_ok_iff {pubkey : Hex.Bytes 48} {keyInfo : DvtKeyInfo} {ownPartial : Partial}
    (hduty : duty.ptcDutyKind = .session session) (hkey : signer.keys.lookup pubkey = some keyInfo)
    (hown : signer.ownPartial scheme signingRoot keyInfo.share = .ok ownPartial) (joined : List Joined) :
    (∃ signature, signer.coordinate scheme signingRoot pubkey (some duty) joined = .ok signature) ↔
      ∃ subset, subset.Sublist (signer.kept duty ownPartial joined) ∧
        keyInfo.share.threshold.toNat ≤ subset.length ∧ Binds scheme pubkey signingRoot subset ∧
        (duty.isPayloadAttestation = false → subset = signer.kept duty ownPartial joined) := by
  have hparsable : rejectUnparsable (some duty) = .ok () := by
    rw [rejectUnparsable, hduty]
    rfl
  have hcoordinate : signer.coordinate scheme signingRoot pubkey (some duty) joined =
      combineVerified scheme keyInfo.share.threshold pubkey signingRoot (if duty.isPayloadAttestation then
          bindPtcPartialsToSigningRoot scheme (signer.kept duty ownPartial joined) keyInfo.share.threshold pubkey
            signingRoot
        else signer.kept duty ownPartial joined) := by
    rw [DvtSigner.coordinate, hkey]
    dsimp only
    rw [hparsable, hown]
    change (signer.collect (some duty) ownPartial joined >>= fun partials => _) = _
    rw [collect_of_session hduty]
    rfl
  rw [hcoordinate, combineVerified_eq_ok_iff]
  cases duty.isPayloadAttestation with
  | true =>
    rw [if_pos rfl]
    constructor
    · rintro ⟨hthreshold, hbinds⟩
      exact ⟨_, bind_sublist, hthreshold, hbinds, nofun⟩
    · rintro ⟨subset, hsubset, hthreshold, hbinds, -⟩
      exact bind_binds hsubset hthreshold hbinds
  | false =>
    rw [if_neg Bool.false_ne_true]
    constructor
    · rintro ⟨hthreshold, hbinds⟩
      exact ⟨_, Sublist.refl _, hthreshold, hbinds, fun _ => rfl⟩
    · rintro ⟨subset, -, hthreshold, hbinds, hall⟩
      obtain rfl := hall rfl
      exact ⟨hthreshold, hbinds⟩

theorem unvetoed_of_isPayloadAttestation (hduty : duty.ptcDutyKind = .session session)
    (hvariant : duty.isPayloadAttestation = true) : Unvetoed scheme signingRoot duty session := by
  intro shared signer keyInfo ownPartial joined chosen hmet
  have hkept : (chosen.map PeerPartial.toPair).Sublist (signer.kept duty ownPartial joined) := by
    have hagree : chosen.filter (ptcPartialAgreesWithSession duty) = chosen :=
      filter_eq_self.mpr fun p hp => agrees_of_session hduty (hmet.session p hp)
    rw [← hagree]
    exact (hmet.received.filter _).map _
  refine (coordinate_eq_ok_iff hduty hmet.key hmet.own joined).mpr
    ⟨_, hkept, ?_, SharedKey.binds_of_correct ((hmet.received.map _).nodup hmet.distinct) hmet.enough hmet.correct, ?_⟩
  · rw [length_map, hmet.threshold]
    exact hmet.enough
  · rw [hvariant]
    exact nofun

/-! ### One bad partial -/

/-- The key 1, of which any share is enough. -/
noncomputable def oneShare : SharedKey where
  threshold := 1
  polynomial := 1
  degree_lt := by
    rw [Polynomial.degree_one]
    exact Nat.cast_pos.mpr (by decide)
  key_ne_zero := by
    rw [Polynomial.eval_one]
    exact one_ne_zero

def oneShareInfo : DvtKeyInfo := ⟨⟨1, ⟨List.replicate 31 0 ++ [1], rfl⟩⟩, ["peer"]⟩

variable (scheme) in
def oneShareSigner : DvtSigner := ⟨[(scheme.publicKey 1, oneShareInfo)], 1, true⟩

theorem secretKey_oneShare : secretKeyFromBytes oneShareInfo.share.scalarBytes = some 1 := by decide +kernel

omit [DecidableEq P] [DecidableEq Q] [DecidableEq T] in
theorem publicKey_oneShare : oneShare.publicKey scheme = scheme.publicKey 1 := by
  rw [SharedKey.publicKey, oneShare, eval_one]

omit [DecidableEq P] [DecidableEq Q] [DecidableEq T] in
theorem oneShare_thresholdMet (scheme : Scheme P Q T) (signingRoot : Root) (session : PtcSessionIdentity)
    (bytes : SignatureBytes) :
    DvtSigner.ThresholdMet scheme signingRoot session oneShare (oneShareSigner scheme) oneShareInfo
      (1, scheme.sign 1 signingRoot) [.answered (.ok ⟨2, bytes, none⟩)]
      [.ofPair (1, scheme.sign 1 signingRoot)] where
  key := by
    rw [publicKey_oneShare]
    exact lookup_cons_self
  threshold := rfl
  own := by
    rw [DvtSigner.ownPartial, secretKey_oneShare]
    rfl
  distinct := by
    change [1, 2].Nodup
    decide
  received := .cons_cons _ (.cons _ .slnil)
  enough := le_refl 1
  correct p hp := by
    obtain rfl := mem_singleton.mp hp
    rw [SharedKey.Correct, oneShare, eval_one]
    rfl
  session p hp := by
    obtain rfl := mem_singleton.mp hp
    exact nofun

theorem isPayloadAttestation_of_unvetoed {bytes : SignatureBytes} (hbytes : scheme.uncompress bytes = none)
    (hduty : duty.ptcDutyKind = .session session) (h : Unvetoed scheme signingRoot duty session) :
    duty.isPayloadAttestation = true := by
  by_contra hvariant
  have hmet := oneShare_thresholdMet scheme signingRoot session bytes
  obtain ⟨subset, -, -, hbinds, hall⟩ :=
    (coordinate_eq_ok_iff hduty hmet.key hmet.own _).mp (h _ _ _ _ _ _ hmet)
  obtain rfl := hall (Bool.eq_false_of_not_eq_true hvariant)
  have hbad : ((2, bytes) : Partial) ∈ (oneShareSigner scheme).kept duty (1, scheme.sign 1 signingRoot)
      [.answered (.ok ⟨2, bytes, none⟩)] := by
    refine mem_map.mpr ⟨⟨2, bytes, none⟩, mem_filter.mpr ⟨?_, agrees_of_session hduty nofun⟩, rfl⟩
    exact mem_cons_of_mem _ (mem_singleton.mpr rfl)
  obtain ⟨point, hpoint⟩ := hbinds.exists_point _ hbad
  rw [hbytes] at hpoint
  cases hpoint

/-- Of the duties that are sessions, those in the variant of their own cannot be vetoed, and as some bytes are no point,
only those. A session has a signature exactly if some of the partials that are kept, all of them but for that variant,
reach the threshold and combine to one that verifies; and what `coordinate` returns verifies, for every duty. -/
theorem coordinate_correct (scheme : Scheme P Q T) (signingRoot : Root) :
    (∀ duty session, duty.ptcDutyKind = .session session → duty.isPayloadAttestation = true →
      Unvetoed scheme signingRoot duty session) ∧
    (∀ bytes, scheme.uncompress bytes = none → ∀ duty session, duty.ptcDutyKind = .session session →
      Unvetoed scheme signingRoot duty session → duty.isPayloadAttestation = true) ∧
    (∀ (signer : DvtSigner) pubkey keyInfo ownPartial duty session joined, duty.ptcDutyKind = .session session →
      signer.keys.lookup pubkey = some keyInfo →
      signer.ownPartial scheme signingRoot keyInfo.share = .ok ownPartial →
      ((∃ signature, signer.coordinate scheme signingRoot pubkey (some duty) joined = .ok signature) ↔
        ∃ subset, subset.Sublist (signer.kept duty ownPartial joined) ∧
          keyInfo.share.threshold.toNat ≤ subset.length ∧ Binds scheme pubkey signingRoot subset ∧
          (duty.isPayloadAttestation = false → subset = signer.kept duty ownPartial joined))) ∧
    ∀ (signer : DvtSigner) pubkey duty joined signature,
      signer.coordinate scheme signingRoot pubkey duty joined = .ok signature →
      verifyCombinedSignature scheme signature pubkey signingRoot = .ok () := by
  refine ⟨?_, ?_, ?_, ?_⟩
  · intro duty session hduty hvariant
    exact unvetoed_of_isPayloadAttestation hduty hvariant
  · intro bytes hbytes duty session hduty h
    exact isPayloadAttestation_of_unvetoed hbytes hduty h
  · intro signer pubkey keyInfo ownPartial duty session joined hduty hkey hown
    exact coordinate_eq_ok_iff hduty hkey hown joined
  · intro signer pubkey duty joined signature h
    exact verify_of_coordinate h

end

/-! ### A session of three -/

/-- The scalars in all places, with their product as the pairing. -/
def scalarScheme : Scheme Scalar Scalar Scalar where
  toCurve := scalarCurve
  compressKey point := ⟨LittleEndian.toBytes 48 point.val, LittleEndian.length_toBytes ..⟩
  uncompressKey bytes := some (LittleEndian.ofBytes bytes.1 : Scalar)
  uncompress_compressKey point := by
    have hlt : point.val < 256 ^ 48 := lt_trans point.val_lt (by decide)
    rw [LittleEndian.ofBytes_toBytes_of_lt hlt, ZMod.natCast_zmod_val]
  generator := 1
  generator_ne_zero := one_ne_zero
  order_nsmul_generator := by rw [nsmul_eq_mul, ZMod.natCast_self, zero_mul]
  pairing := AddMonoidHom.mul

/-- The key 5, of which any two shares are enough; those with the first indices are 6 and 7. -/
noncomputable def sampleShared : SharedKey where
  threshold := 2
  polynomial := .X + .C 5
  degree_lt := by
    rw [Polynomial.degree_X_add_C]
    exact Nat.one_lt_cast.mpr (by decide)
  key_ne_zero := by
    rw [Polynomial.eval_add, Polynomial.eval_X, Polynomial.eval_C, zero_add]
    decide +kernel

theorem eval_sampleShared (x : Scalar) : sampleShared.polynomial.eval x = x + 5 := by
  rw [sampleShared, eval_add, eval_X, eval_C]

def sampleRoot : Root := ⟨List.replicate 32 35, rfl⟩

def sampleSession : PtcSessionIdentity := ⟨⟨List.replicate 32 34, rfl⟩, ⟨[7, 0, 0, 0], rfl⟩⟩

def sampleKeyInfo : DvtKeyInfo := ⟨⟨2, ⟨List.replicate 31 0 ++ [6], rfl⟩⟩, ["liar", "honest"]⟩

def sampleSigner : DvtSigner := ⟨[(scalarScheme.publicKey 5, sampleKeyInfo)], 1, true⟩

def sampleOwn : Partial := (1, scalarScheme.sign 6 sampleRoot)

def honest : PeerPartial := ⟨2, scalarScheme.sign 7 sampleRoot, none⟩

def liar : PeerPartial := ⟨3, ⟨List.replicate 96 255, rfl⟩, none⟩

def sampleJoined : List Joined := [.answered (.ok liar), .answered (.ok honest)]

def sampleForkInfo : ForkInfo := ⟨sampleSession.forkVersion.1⟩

theorem publicKey_sampleShared : sampleShared.publicKey scalarScheme = scalarScheme.publicKey 5 := by
  rw [SharedKey.publicKey, eval_sampleShared, zero_add]

theorem sample_thresholdMet :
    DvtSigner.ThresholdMet scalarScheme sampleRoot sampleSession sampleShared sampleSigner sampleKeyInfo sampleOwn
      sampleJoined [.ofPair sampleOwn, honest] where
  key := by
    rw [publicKey_sampleShared]
    exact lookup_cons_self
  threshold := rfl
  own := rfl
  distinct := by decide
  received := .cons_cons _ (.cons _ (.cons_cons _ .slnil))
  enough := by decide
  correct p hp := by
    have hkey (i : UInt64) (key : Scalar) (h : scalarOfU64 i + 5 = key) :
        sampleShared.Correct scalarScheme sampleRoot ⟨i, scalarScheme.sign key sampleRoot, none⟩ := by
      rw [SharedKey.Correct, eval_sampleShared, h]
    rcases mem_cons.mp hp with rfl | hp
    · exact hkey 1 6 (by decide +kernel)
    · obtain rfl := mem_singleton.mp hp
      exact hkey 2 7 (by decide +kernel)
  session p hp := by
    rcases mem_cons.mp hp with rfl | hp
    · exact nofun
    · obtain rfl := mem_singleton.mp hp
      exact nofun

theorem coordinate_correct_of_three :
    ∃ signature, sampleSigner.coordinate scalarScheme sampleRoot (scalarScheme.publicKey 5)
      (some (.payloadAttestation sampleForkInfo sampleSession.objectRoot.1)) sampleJoined = .ok signature := by
  rw [← publicKey_sampleShared]
  exact (coordinate_correct scalarScheme sampleRoot).1 _ sampleSession rfl rfl _ _ _ _ _ _ sample_thresholdMet

/-- The same session as a `Root`: the partial of the liar takes the two correct ones down. -/
theorem root_session_fails :
    PartialSignDuty.ptcDutyKind (.root sampleForkInfo sampleSession.objectRoot.1 dutyPayloadAttestation) =
        .session sampleSession ∧ sampleSigner.received sampleOwn sampleJoined = [.ofPair sampleOwn, liar, honest] ∧
      DvtSigner.ThresholdMet scalarScheme sampleRoot sampleSession sampleShared sampleSigner sampleKeyInfo sampleOwn
        sampleJoined [.ofPair sampleOwn, honest] ∧
      sampleSigner.coordinate scalarScheme sampleRoot (sampleShared.publicKey scalarScheme)
          (some (.root sampleForkInfo sampleSession.objectRoot.1 dutyPayloadAttestation)) sampleJoined =
        .error (.signingFailed "failed to combine partials: invalid partial signature at index 3") := by
  refine ⟨rfl, rfl, sample_thresholdMet, ?_⟩
  rw [publicKey_sampleShared]
  decide +kernel

end Rvc.SignerServer.Dvt.Coordinate
