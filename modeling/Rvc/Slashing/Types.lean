import Mathlib.Data.List.AList
import Rvc.EthTypes.Canonical
import Rvc.Observability.Pubkey
import Rvc.Lib.Int64

/-!
# The slashing-protection database

The rows, watermarks and errors of the `slashing` crate. Epochs and slots are `u64` values (`Nat`);
the tables store them as SQLite integers (`Int`), through the casts of `Rvc.Lib.Int64`. A watermark
table is an association list without repeated keys, which is the table's `UNIQUE(pubkey, watermark_type)`.
-/

namespace Rvc.Slashing

open Rvc.Lib Rvc.EthTypes

def slotsPerEpoch : Nat := 32

/-! ### Errors -/

inductive AttestationSlashingViolation where
  | doubleVote (targetEpoch : Nat)
  | surroundingVote (newSource newTarget existingSource existingTarget : Nat)
  | surroundedVote (newSource newTarget existingSource existingTarget : Nat)
  | targetEpochBelowMinimum (targetEpoch minTarget : Nat)
  deriving DecidableEq

inductive BlockSlashingViolation where
  | doubleBlockProposal (slot : Nat)
  | slotBelowMinimum (slot minSlot : Nat)
  deriving DecidableEq

inductive WatermarkKind where
  | block
  | attestationSource
  | attestationTarget
  deriving DecidableEq

def WatermarkKind.asSqlStr : WatermarkKind → String
  | .block => "block"
  | .attestationSource => "att_source"
  | .attestationTarget => "att_target"

/-- `SlashingError`, the variants the modelled operations return. -/
inductive SlashingError where
  | databaseError (msg : String)
  | migrationFailed (msg : String)
  | slashableAttestation (violation : AttestationSlashingViolation)
  | slashableBlock (violation : BlockSlashingViolation)
  | genesisValidatorsRootMismatch (expected actual : String)
  | genesisRootMismatch (expected got : Root)
  | invalidInterchangeFormat (msg : String)
  | unrepresentableFloor (pubkey : String) (sourceBound targetBound : Nat)
  | watermarkLowered (pubkey watermarkType : String) (current attempted : Nat)
  | noWatermarksSet
  | belowBlockWatermark (pubkey : String) (slot watermarkSlot : Nat)
  | belowAttestationWatermark (pubkey : String) (targetEpoch watermarkTarget : Nat)
  | belowAttestationSourceWatermark (pubkey : String) (sourceEpoch watermarkSource : Nat)
  | reserveCommitFailed (msg : String)
  | reconcileFailed (msg : String)
  deriving DecidableEq

def AttestationSlashingViolation.display : AttestationSlashingViolation → String
  | .doubleVote t => s!"double vote: already signed attestation for target epoch {t}"
  | .surroundingVote ns nt es et =>
      s!"surrounding vote: new attestation ({ns}, {nt}) surrounds existing ({es}, {et})"
  | .surroundedVote ns nt es et =>
      s!"surrounded vote: new attestation ({ns}, {nt}) is surrounded by existing ({es}, {et})"
  | .targetEpochBelowMinimum t m => s!"target epoch {t} is below minimum existing target epoch {m}"

def BlockSlashingViolation.display : BlockSlashingViolation → String
  | .doubleBlockProposal slot =>
      s!"double block proposal: already signed a different block for slot {slot}"
  | .slotBelowMinimum slot m => s!"slot {slot} is below minimum existing slot {m}"

/-- The `Display` text, which `commit_failed_err` copies into `ReserveCommitFailed`. -/
def SlashingError.display : SlashingError → String
  | .databaseError msg => s!"database error: {msg}"
  | .migrationFailed msg => s!"schema migration failed: {msg}"
  | .slashableAttestation v => "attestation slashable: " ++ v.display
  | .slashableBlock v => "block slashable: " ++ v.display
  | .genesisValidatorsRootMismatch expected actual =>
      s!"genesis validators root mismatch: expected {expected}, got {actual}"
  | .genesisRootMismatch expected got =>
      "genesis root mismatch: expected " ++ rootToHex expected ++ ", got " ++ rootToHex got
  | .invalidInterchangeFormat msg => s!"invalid interchange format: {msg}"
  | .unrepresentableFloor pubkey s t =>
      s!"attestation floor for {pubkey} cannot be represented (source_bound={s}, target_bound={t})"
  | .watermarkLowered pubkey kind current attempted =>
      s!"watermark can only be raised: attempted to lower {kind} for {pubkey} " ++
        s!"(current={current}, attempted={attempted})"
  | .noWatermarksSet =>
      "no watermarks set — import an EIP-3076 interchange (or set watermarks) before pruning; " ++
        "pruning without watermarks would delete all records"
  | .belowBlockWatermark pubkey slot wm =>
      s!"block at slot {slot} is at or below watermark slot {wm} for pubkey {pubkey}"
  | .belowAttestationWatermark pubkey t wm =>
      s!"attestation with target epoch {t} is at or below watermark target epoch {wm} for pubkey {pubkey}"
  | .belowAttestationSourceWatermark pubkey s wm =>
      s!"attestation with source epoch {s} is below watermark source epoch {wm} for pubkey {pubkey}"
  | .reserveCommitFailed msg =>
      s!"slashing-protection reserve commit failed (no row written): {msg}"
  | .reconcileFailed msg =>
      s!"slashing-protection compensating delete failed (row retained): {msg}"

/-- `is_group_member_rejection`: rejections of one member that leave the rest of its batch alone. -/
def SlashingError.isGroupMemberRejection : SlashingError → Bool
  | .slashableBlock _ => true
  | .slashableAttestation _ => true
  | .genesisRootMismatch _ _ => true
  | .belowBlockWatermark _ _ _ => true
  | .belowAttestationWatermark _ _ _ => true
  | .belowAttestationSourceWatermark _ _ _ => true
  | _ => false

def SlashingError.isReserveCommitFailure : SlashingError → Bool
  | .reserveCommitFailed _ => true
  | _ => false

/-- The two refusals that only say "older than everything recorded". -/
def SlashingError.isBelowMinimum : SlashingError → Bool
  | .slashableAttestation (.targetEpochBelowMinimum _ _) => true
  | .slashableBlock (.slotBelowMinimum _ _) => true
  | _ => false

/-- Refusals by an EIP-3076 rule: a floor, a slashable pair or the minimum. -/
def SlashingError.isEip3076 : SlashingError → Bool
  | .slashableBlock _ => true
  | .slashableAttestation _ => true
  | .belowBlockWatermark _ _ _ => true
  | .belowAttestationWatermark _ _ _ => true
  | .belowAttestationSourceWatermark _ _ _ => true
  | _ => false

/-! ### Tables -/

structure AttestationRow where
  clientCn : String
  pubkey : String
  sourceEpoch : Int
  targetEpoch : Int
  signingRoot : Option String
  genesisValidatorsRoot : Option String
  deriving DecidableEq

structure BlockRow where
  clientCn : String
  pubkey : String
  slot : Int
  signingRoot : Option String
  genesisValidatorsRoot : Option String
  deriving DecidableEq

abbrev Watermarks := AList (fun _ : String × WatermarkKind => Int)

structure Tables where
  attestations : List AttestationRow
  blocks : List BlockRow
  watermarks : Watermarks
  metadataGvr : Option String

/-- The attestation rows of one (canonical) pubkey, in row order. -/
def Tables.attestationsOf (t : Tables) (pubkey : String) : List AttestationRow :=
  t.attestations.filter fun row => row.pubkey = pubkey

def Tables.blocksOf (t : Tables) (pubkey : String) : List BlockRow :=
  t.blocks.filter fun row => row.pubkey = pubkey

open Tables

@[simp] theorem Tables.mem_attestationsOf {t : Tables} {pubkey : String} {row : AttestationRow} :
    row ∈ t.attestationsOf pubkey ↔ row ∈ t.attestations ∧ row.pubkey = pubkey := by
  simp [attestationsOf]

@[simp] theorem Tables.mem_blocksOf {t : Tables} {pubkey : String} {row : BlockRow} :
    row ∈ t.blocksOf pubkey ↔ row ∈ t.blocks ∧ row.pubkey = pubkey := by
  simp [blocksOf]

def Tables.empty : Tables := ⟨[], [], ∅, none⟩

def auditOrigin : String := "local-vc"

/-- The database handle without its connection: the two knobs that decide strictness. -/
structure SlashingDb where
  strictSemantics : Bool
  gloasForkEpoch : Nat

/-- `fork_aware_strict`: operator-strict, or the candidate epoch is at or after Gloas. -/
def SlashingDb.forkAwareStrict (db : SlashingDb) (epoch : Nat) : Bool :=
  db.strictSemantics || decide (db.gloasForkEpoch ≤ epoch)

/-! ### Values that read the same signed and unsigned -/

def AttestationRow.Small (row : AttestationRow) : Prop :=
  SmallInt row.sourceEpoch ∧ SmallInt row.targetEpoch

def BlockRow.Small (row : BlockRow) : Prop := SmallInt row.slot

instance (row : AttestationRow) : Decidable row.Small := inferInstanceAs (Decidable (_ ∧ _))

instance (row : BlockRow) : Decidable row.Small := inferInstanceAs (Decidable (SmallInt _))

structure Tables.Small (t : Tables) : Prop where
  attestations : ∀ row ∈ t.attestations, row.Small
  blocks : ∀ row ∈ t.blocks, row.Small
  watermarks : ∀ key value, t.watermarks.lookup key = some value → SmallInt value

theorem Tables.small_empty : Tables.empty.Small :=
  ⟨fun _ h => absurd h (by simp [empty]), fun _ h => absurd h (by simp [empty]),
    fun _ _ h => absurd h (by simp [empty])⟩

end Rvc.Slashing
