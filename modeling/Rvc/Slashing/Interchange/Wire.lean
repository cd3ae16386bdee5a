import Rvc.Lib.Decimal
import Rvc.Slashing.Types

/-!
# The EIP-3076 wire format

The `Interchange*` records of `types.rs`, and the part of `db/interchange.rs` that reads a file before the
connection is taken: the metadata check and the numeric parse with its maxima.
-/

namespace Rvc.Slashing

open Rvc.Lib Rvc.EthTypes Rvc.Observability

/-! ### Records -/

structure InterchangeAttestation where
  sourceEpoch : String
  targetEpoch : String
  signingRoot : Option String
  deriving DecidableEq

structure InterchangeBlock where
  slot : String
  signingRoot : Option String
  deriving DecidableEq

structure ValidatorRecord where
  pubkey : String
  signedBlocks : List InterchangeBlock
  signedAttestations : List InterchangeAttestation
  deriving DecidableEq

structure InterchangeMetadata where
  interchangeFormatVersion : String
  genesisValidatorsRoot : String
  deriving DecidableEq

structure InterchangeFormat where
  metadata : InterchangeMetadata
  data : List ValidatorRecord
  deriving DecidableEq

/-! ### Metadata -/

/-- `validate_interchange_metadata`: version `5`, and the root compared as bytes. -/
def validateInterchangeMetadata (interchange : InterchangeFormat) (expected : Root) : Except SlashingError Unit :=
  if interchange.metadata.interchangeFormatVersion ≠ "5" then
    .error (.invalidInterchangeFormat ("unsupported interchange_format_version: expected \"5\", got \"" ++
        interchange.metadata.interchangeFormatVersion ++ "\""))
  else
    match EthTypes.parseGvrHex interchange.metadata.genesisValidatorsRoot with
    | .error _ => .error (.genesisValidatorsRootMismatch (rootToHex expected)
        interchange.metadata.genesisValidatorsRoot)
    | .ok actual =>
        if actual ≠ expected then
          .error (.genesisValidatorsRootMismatch (rootToHex expected) interchange.metadata.genesisValidatorsRoot)
        else
          .ok ()

/-! ### Parsing -/

structure ParsedAttestation where
  sourceEpoch : Nat
  targetEpoch : Nat
  signingRoot : Option String
  deriving DecidableEq

structure ParsedBlock where
  slot : Nat
  signingRoot : Option String
  deriving DecidableEq

/-- One validator of the file, with the maxima its watermarks are raised to. -/
structure ParsedValidator where
  pubkey : String
  attestations : List ParsedAttestation
  blocks : List ParsedBlock
  maxSource : Option Nat
  maxTarget : Option Nat
  maxSlot : Option Nat
  deriving DecidableEq

/-- A numeric field: a `u64` in decimal, or the error that names the field. -/
def parseField (field text : String) : Except SlashingError Nat :=
  match parseU64 text with
  | some value => .ok value
  | none => .error (.invalidInterchangeFormat ("invalid " ++ field ++ ": " ++ text))

def parseAttestation (attestation : InterchangeAttestation) : Except SlashingError ParsedAttestation := do
  let sourceEpoch ← parseField "source_epoch" attestation.sourceEpoch
  let targetEpoch ← parseField "target_epoch" attestation.targetEpoch
  .ok ⟨sourceEpoch, targetEpoch, attestation.signingRoot⟩

def parseBlock (block : InterchangeBlock) : Except SlashingError ParsedBlock := do
  let slot ← parseField "slot" block.slot
  .ok ⟨slot, block.signingRoot⟩

/-- One turn of `parse_interchange`; the running maxima are those of the parsed lists. -/
def parseValidator (validator : ValidatorRecord) : Except SlashingError ParsedValidator := do
  let attestations ← validator.signedAttestations.mapM parseAttestation
  let blocks ← validator.signedBlocks.mapM parseBlock
  .ok {
    pubkey := normalizePubkey validator.pubkey
    attestations
    blocks
    maxSource := (attestations.map (·.sourceEpoch)).max?
    maxTarget := (attestations.map (·.targetEpoch)).max?
    maxSlot := (blocks.map (·.slot)).max? }

def parseInterchange (interchange : InterchangeFormat) : Except SlashingError (List ParsedValidator) :=
  interchange.data.mapM parseValidator

/-! ### Reading a parse back -/

theorem parseField_ok {field text : String} {value : Nat} :
    parseField field text = .ok value ↔ parseU64 text = some value := by
  unfold parseField
  split <;> simp_all

theorem parseAttestation_ok {wire : InterchangeAttestation} {parsed : ParsedAttestation} :
    parseAttestation wire = .ok parsed ↔ parseU64 wire.sourceEpoch = some parsed.sourceEpoch ∧
      parseU64 wire.targetEpoch = some parsed.targetEpoch ∧ wire.signingRoot = parsed.signingRoot := by
  simp only [parseAttestation, bind_eq_ok, parseField_ok]
  constructor
  · rintro ⟨source, hsource, target, htarget, h⟩
    cases h
    exact ⟨hsource, htarget, rfl⟩
  · rintro ⟨hsource, htarget, hroot⟩
    exact ⟨_, hsource, _, htarget, by rw [hroot]⟩

theorem parseBlock_ok {wire : InterchangeBlock} {parsed : ParsedBlock} : parseBlock wire = .ok parsed ↔
      parseU64 wire.slot = some parsed.slot ∧ wire.signingRoot = parsed.signingRoot := by
  simp only [parseBlock, bind_eq_ok, parseField_ok]
  constructor
  · rintro ⟨slot, hslot, h⟩
    cases h
    exact ⟨hslot, rfl⟩
  · rintro ⟨hslot, hroot⟩
    exact ⟨_, hslot, by rw [hroot]⟩

theorem parseValidator_ok {validator : ValidatorRecord} {parsed : ParsedValidator}
    (h : parseValidator validator = .ok parsed) :
    validator.signedAttestations.mapM parseAttestation = .ok parsed.attestations ∧
      validator.signedBlocks.mapM parseBlock = .ok parsed.blocks ∧ parsed.pubkey = normalizePubkey validator.pubkey ∧
      parsed.maxSource = (parsed.attestations.map (·.sourceEpoch)).max? ∧
      parsed.maxTarget = (parsed.attestations.map (·.targetEpoch)).max? ∧
      parsed.maxSlot = (parsed.blocks.map (·.slot)).max? := by
  simp only [parseValidator, bind_eq_ok] at h
  obtain ⟨attestations, hatt, blocks, hblk, h⟩ := h
  cases h
  exact ⟨hatt, hblk, rfl, rfl, rfl, rfl⟩

theorem validateInterchangeMetadata_rootToHex (data : List ValidatorRecord) (gvr : Root) :
    validateInterchangeMetadata ⟨⟨"5", rootToHex gvr⟩, data⟩ gvr = .ok () := by
  simp [validateInterchangeMetadata, parseGvrHex_rootToHex]

end Rvc.Slashing
