import Rvc.EthTypes.Fork
import Rvc.Lib.Decimal
import Rvc.Lib.Hex

/-!
# Attestations and duties

`attestation.rs` up to the signature: a duty is produced and signed on its own (`signOne`). What other parts of the
program answer meanwhile is arbitrary (`AttestAnswers`), and so are the contents of the memo with the attestation data.
A signed attestation is an array of one, in the form of its fork (`attest_items`). Debug assertions are off.
-/

namespace Rvc.Orchestrator.Attestation

open Rvc.Lib Rvc.EthTypes

/-! ### Data -/

structure Checkpoint where
  epoch : String
  root : String
  deriving DecidableEq

structure AttestationData where
  slot : String
  index : String
  beaconBlockRoot : String
  source : Checkpoint
  target : Checkpoint
  deriving DecidableEq

structure LegacyAttestation where
  aggregationBits : String
  data : AttestationData
  signature : String
  deriving DecidableEq

structure SingleAttestation where
  committeeIndex : ℕ
  attesterIndex : ℕ
  data : AttestationData
  signature : String
  deriving DecidableEq

inductive VersionedAttestation where
  | preElectra (items : List LegacyAttestation)
  | electra (items : List SingleAttestation)
  | fulu (items : List SingleAttestation)
  | gloas (items : List SingleAttestation)
  deriving DecidableEq

/-- A `TypedAttesterDuty`; of the beacon node's own text only the validator index is read. -/
structure TypedAttesterDuty where
  pubkey : String
  slot : ℕ
  committeeIndex : ℕ
  validatorIndex : ℕ
  committeeLength : ℕ
  validatorCommitteeIndex : ℕ
  rawValidatorIndex : String
  deriving DecidableEq

inductive AttestationOutcome where
  | published
  | failed (message : String)
  | rejectedByBeaconNode (bn : Option String) (message : String)
  deriving DecidableEq

structure AttestationResult where
  validatorIndex : String
  slot : ℕ
  outcome : AttestationOutcome
  deriving DecidableEq

structure WaveAttribution where
  validatorIndex : String
  pubkey : String
  slot : ℕ
  deriving DecidableEq

structure WaveEntry where
  attribution : WaveAttribution
  attestation : VersionedAttestation
  deriving DecidableEq

/-! ### Producing and signing -/

def usesElectraAttestationWire (fork : ForkName) : Bool := ForkName.electra ≤ fork

def zeroesCommitteeIndex (fork : ForkName) : Bool := ForkName.electra ≤ fork && !(ForkName.gloas ≤ fork : Bool)

structure AttestationDataMemo where
  fork : ForkName
  degraded : Bool
  entries : Option ℕ → Option (Except String AttestationData)

def memoKey (fork : ForkName) (committeeIndex : ℕ) : Option ℕ :=
  if usesElectraAttestationWire fork then none else some committeeIndex

def AttestationDataMemo.get (memo : AttestationDataMemo) (committeeIndex : ℕ) : Except String AttestationData :=
  let key := if memo.degraded then some committeeIndex else memoKey memo.fork committeeIndex
  match memo.entries key with
  | some (.ok data) => .ok data
  | some (.error error) => .error error
  | none => .error "Attestation data was not fetched for this duty"

def makeAggregationBits (duty : TypedAttesterDuty) : Option String :=
  if duty.committeeLength = 0 then none
  else if duty.committeeLength ≤ duty.validatorCommitteeIndex then none
  else
    let bits : List UInt8 := List.replicate ((duty.committeeLength + 8) / 8) 0
    let bits := bits.modify (duty.validatorCommitteeIndex / 8)
      (· ||| (1 <<< UInt8.ofNat (duty.validatorCommitteeIndex % 8)))
    let bits := bits.modify (duty.committeeLength / 8) (· ||| (1 <<< UInt8.ofNat (duty.committeeLength % 8)))
    some ("0x" ++ Hex.encode bits)

/-- What the rest of the program answers while a duty is signed: whether `find_pubkey` knows the key, the conversion of
the data, the clock, the sanity check and the signer. Errors are the texts they display. -/
structure AttestAnswers where
  keyKnown : Bool
  converted : Except String Unit
  clock : Except String Unit
  validated : Except String Unit
  signature : Except String (List UInt8)

/-- The end of `attest`: the signed attestation in the form of its fork. -/
def versionedAttestation (duty : TypedAttesterDuty) (fork : ForkName) (data : AttestationData) (sigHex : String) :
    Except String VersionedAttestation :=
  if usesElectraAttestationWire fork then
    let singleData := if zeroesCommitteeIndex fork then { data with index := "0" } else data
    let single : SingleAttestation := ⟨duty.committeeIndex, duty.validatorIndex, singleData, sigHex⟩
    if fork = .gloas then .ok (.gloas [single])
    else if fork = .fulu then .ok (.fulu [single])
    else .ok (.electra [single])
  else
    match makeAggregationBits duty with
    | some aggregationBits => .ok (.preElectra [⟨aggregationBits, data, sigHex⟩])
    | none => .error ("could not produce aggregation bits (committee_length=0 " ++
        "or validator_committee_index out of range)")

def parseTargetEpoch (data : AttestationData) : Except String ℕ :=
  match parseU64 data.target.epoch with
  | some targetEpoch => .ok targetEpoch
  | none => .error ("Failed to parse target epoch: " ++ data.target.epoch)

section

variable (schedule : ForkSchedule) (memo : AttestationDataMemo) (duty : TypedAttesterDuty) (answers : AttestAnswers)

def attestKnown : Except String VersionedAttestation := do
  let data ← memo.get duty.committeeIndex
  let targetEpoch ← parseTargetEpoch data
  answers.converted.mapError ("Failed to convert attestation data: " ++ ·)
  answers.clock.mapError ("Clock error during attestation validation: " ++ ·)
  answers.validated.mapError ("AttestationData sanity check failed: " ++ ·)
  let signature ← answers.signature.mapError ("Failed to sign attestation: " ++ ·)
  versionedAttestation duty (ForkName.fromEpoch targetEpoch schedule) data ("0x" ++ Hex.encode signature)

def attest : Except String VersionedAttestation :=
  if answers.keyKnown then attestKnown schedule memo duty answers
  else .error ("Public key not found: " ++ duty.pubkey)

def signOne : Except AttestationResult WaveEntry :=
  match attest schedule memo duty answers with
  | .ok attestation => .ok ⟨⟨duty.rawValidatorIndex, duty.pubkey, duty.slot⟩, attestation⟩
  | .error error => .error ⟨duty.rawValidatorIndex, duty.slot, .failed error⟩

end

/-! ### Arrays of attestations -/

def VersionedAttestation.items : VersionedAttestation → List (LegacyAttestation ⊕ SingleAttestation)
  | .preElectra items => items.map .inl
  | .electra items => items.map .inr
  | .fulu items => items.map .inr
  | .gloas items => items.map .inr

theorem versionedAttestation_items {duty : TypedAttesterDuty} {fork : ForkName} {data : AttestationData}
    {sigHex : String} {attestation : VersionedAttestation}
    (h : versionedAttestation duty fork data sigHex = .ok attestation) : ∃ item, attestation.items = [item] := by
  unfold versionedAttestation at h
  split at h
  · dsimp only at h
    split at h
    · cases h
      exact ⟨_, rfl⟩
    · split at h <;> cases h <;> exact ⟨_, rfl⟩
  · split at h <;> cases h
    exact ⟨_, rfl⟩

theorem attest_items {schedule : ForkSchedule} {memo : AttestationDataMemo} {duty : TypedAttesterDuty}
    {answers : AttestAnswers} {attestation : VersionedAttestation}
    (h : attest schedule memo duty answers = .ok attestation) : ∃ item, attestation.items = [item] := by
  unfold attest at h
  split at h
  · simp only [attestKnown, bind_eq_ok] at h
    obtain ⟨_, -, _, -, _, -, _, -, _, -, _, -, hversioned⟩ := h
    exact versionedAttestation_items hversioned
  · cases h

end Rvc.Orchestrator.Attestation
