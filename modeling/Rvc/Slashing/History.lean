import Rvc.Slashing.Rules
import Rvc.Slashing.Watermarks

/-!
# The SQL history

`history.rs` answers the rules' questions from the tables. Stored integers are compared signed, so the
queries speak about `Vote Int`; only the watermark floors are compared unsigned, and on values below
`2 ^ 63` that is the signed order again (`admits_iff`).

`Tables.checkBlock` and `Tables.checkAttestation` are the check phase that `stage_*` and the group commit
share; `AttestationRefusal`, `AttestationAccepted` and their counterparts for blocks say in terms of rows
what it decides.
-/

namespace Rvc.Slashing

open Rvc.Lib Option Tables List

/-! ### Queries -/

def AttestationRow.toExisting (row : AttestationRow) : ExistingAtt :=
  ⟨asU64 row.sourceEpoch, asU64 row.targetEpoch, row.signingRoot⟩

def AttestationRow.epochs (row : AttestationRow) : Nat × Nat :=
  (asU64 row.sourceEpoch, asU64 row.targetEpoch)

def AttestationCandidate.vote (candidate : AttestationCandidate) : Vote Int :=
  ⟨asI64 candidate.sourceEpoch, asI64 candidate.targetEpoch⟩

section

variable (t : Tables) (pubkey : String)

/-- `SELECT … WHERE pubkey = ? AND target_epoch = ? LIMIT 1`. -/
def Tables.rowAtTarget (target : Int) : Option AttestationRow :=
  (t.attestationsOf pubkey).find? fun row => row.targetEpoch = target

/-- `SELECT … WHERE pubkey = ? AND source_epoch > ? AND target_epoch < ? LIMIT 1`. -/
def Tables.rowSurroundedBy (v : Vote Int) : Option AttestationRow :=
  (t.attestationsOf pubkey).find? fun row => v.Surrounds row.vote

/-- `SELECT … WHERE pubkey = ? AND source_epoch < ? AND target_epoch > ? LIMIT 1`. -/
def Tables.rowSurrounding (v : Vote Int) : Option AttestationRow :=
  (t.attestationsOf pubkey).find? fun row => row.vote.Surrounds v

/-- `SELECT … FROM blocks WHERE pubkey = ? AND slot = ? LIMIT 1`. -/
def Tables.rowAtSlot (slot : Int) : Option BlockRow :=
  (t.blocksOf pubkey).find? fun row => row.slot = slot

def targetedSqlAttestationHistory : AttestationHistory where
  conflictingAtTarget target := .ok ((t.rowAtTarget pubkey (asI64 target)).map (·.toExisting))
  surroundingExists source target :=
    .ok ((t.rowSurroundedBy pubkey ⟨asI64 source, asI64 target⟩).map (·.epochs))
  surroundedExists source target :=
    .ok ((t.rowSurrounding pubkey ⟨asI64 source, asI64 target⟩).map (·.epochs))
  minTarget := .ok ((((t.attestationsOf pubkey).map (·.targetEpoch)).min?).map asU64)

def targetedSqlBlockHistory : BlockHistory where
  signingRootAtSlot slot := .ok ((t.rowAtSlot pubkey (asI64 slot)).map (·.signingRoot))
  minSlot := .ok ((((t.blocksOf pubkey).map (·.slot)).min?).map asU64)

def Tables.blockWatermarks : BlockWatermarks :=
  ⟨readWatermark t pubkey .block⟩

def Tables.attestationWatermarks : AttestationWatermarks :=
  ⟨readWatermark t pubkey .attestationSource, readWatermark t pubkey .attestationTarget⟩

/-- The check phase for a block: the floor is read, then the rules run on the SQL history. -/
def Tables.checkBlock (candidate : BlockCandidate) (strict : Bool) : Except SlashingError BlockVerdict :=
  Slashing.checkBlock pubkey (targetedSqlBlockHistory t pubkey) (t.blockWatermarks pubkey) candidate strict

def Tables.checkAttestation (candidate : AttestationCandidate)
    (strict : Bool) : Except SlashingError AttestationVerdict :=
  Slashing.checkAttestation pubkey (targetedSqlAttestationHistory t pubkey)
    (t.attestationWatermarks pubkey) candidate strict

end

/-! ### Reading the answers -/

variable {pubkey : String} {t : Tables} {row : AttestationRow}

theorem Tables.rowAtTarget_some {target : Int} (h : t.rowAtTarget pubkey target = some row) :
    row ∈ t.attestations ∧ row.pubkey = pubkey ∧ row.targetEpoch = target := by
  have hmem := mem_attestationsOf.mp (mem_of_find?_eq_some h)
  exact ⟨hmem.1, hmem.2, by simpa using find?_some h⟩

theorem Tables.rowAtTarget_none {target : Int} : t.rowAtTarget pubkey target = none ↔
      ∀ row ∈ t.attestations, row.pubkey = pubkey → row.targetEpoch ≠ target := by
  simp [Tables.rowAtTarget, find?_eq_none, and_imp]

variable {v : Vote Int}

theorem Tables.rowSurroundedBy_none : t.rowSurroundedBy pubkey v = none ↔
      ∀ row ∈ t.attestations, row.pubkey = pubkey → ¬ v.Surrounds row.vote := by
  simp [Tables.rowSurroundedBy, find?_eq_none, and_imp]

theorem Tables.rowSurroundedBy_some (h : t.rowSurroundedBy pubkey v = some row) :
    row ∈ t.attestations ∧ row.pubkey = pubkey ∧ v.Surrounds row.vote := by
  have hmem := mem_attestationsOf.mp (mem_of_find?_eq_some h)
  exact ⟨hmem.1, hmem.2, by simpa using find?_some h⟩

theorem Tables.rowSurrounding_none : t.rowSurrounding pubkey v = none ↔
      ∀ row ∈ t.attestations, row.pubkey = pubkey → ¬ row.vote.Surrounds v := by
  simp [Tables.rowSurrounding, find?_eq_none, and_imp]

theorem Tables.rowSurrounding_some (h : t.rowSurrounding pubkey v = some row) :
    row ∈ t.attestations ∧ row.pubkey = pubkey ∧ row.vote.Surrounds v := by
  have hmem := mem_attestationsOf.mp (mem_of_find?_eq_some h)
  exact ⟨hmem.1, hmem.2, by simpa using find?_some h⟩

theorem Tables.rowAtSlot_some {slot : Int} {row : BlockRow} (h : t.rowAtSlot pubkey slot = some row) :
    row ∈ t.blocks ∧ row.pubkey = pubkey ∧ row.slot = slot := by
  have hmem := mem_blocksOf.mp (mem_of_find?_eq_some h)
  exact ⟨hmem.1, hmem.2, by simpa using find?_some h⟩

theorem Tables.rowAtSlot_none {slot : Int} : t.rowAtSlot pubkey slot = none ↔
      ∀ row ∈ t.blocks, row.pubkey = pubkey → row.slot ≠ slot := by
  simp [Tables.rowAtSlot, find?_eq_none, and_imp]

/-! ### What the check phase decides -/

section

variable (t : Tables) (pubkey : String) (candidate : AttestationCandidate) (strict : Bool)

/-- Why an attestation is refused, and the row or watermark that stands against it. -/
inductive AttestationRefusal : SlashingError → Prop
  | belowSource {ws : Int} (hwm : t.watermarks.lookup (pubkey, .attestationSource) = some ws)
      (hlt : candidate.sourceEpoch < asU64 ws) : AttestationRefusal
        (.belowAttestationSourceWatermark pubkey candidate.sourceEpoch (asU64 ws))
  | belowTarget {wt : Int} (hwm : t.watermarks.lookup (pubkey, .attestationTarget) = some wt)
      (hle : candidate.targetEpoch ≤ asU64 wt) : AttestationRefusal
        (.belowAttestationWatermark pubkey candidate.targetEpoch (asU64 wt))
  | doubleVote {row : AttestationRow} (hrow : t.rowAtTarget pubkey candidate.vote.target = some row)
      (hne : isResign row.signingRoot candidate.signingRoot strict = false) : AttestationRefusal
        (.slashableAttestation (.doubleVote candidate.targetEpoch))
  | surrounding {row : AttestationRow} (hrow : row ∈ t.attestations) (hpk : row.pubkey = pubkey)
      (hsurrounds : candidate.vote.Surrounds row.vote) : AttestationRefusal
        (.slashableAttestation (.surroundingVote candidate.sourceEpoch candidate.targetEpoch row.epochs.1 row.epochs.2))
  | surrounded {row : AttestationRow} (hrow : row ∈ t.attestations) (hpk : row.pubkey = pubkey)
      (hsurrounds : row.vote.Surrounds candidate.vote) : AttestationRefusal
        (.slashableAttestation (.surroundedVote candidate.sourceEpoch candidate.targetEpoch row.epochs.1 row.epochs.2))
  | belowMinimum {row : AttestationRow} (hrow : row ∈ t.attestations) (hpk : row.pubkey = pubkey)
      (hmin : ∀ other ∈ t.attestations, other.pubkey = pubkey → row.targetEpoch ≤ other.targetEpoch)
      (hlt : candidate.targetEpoch < asU64 row.targetEpoch)
      (hfree : t.rowAtTarget pubkey candidate.vote.target = none) : AttestationRefusal (.slashableAttestation
          (.targetEpochBelowMinimum candidate.targetEpoch (asU64 row.targetEpoch)))

end

variable {candidate : AttestationCandidate} {strict : Bool} {e : SlashingError}

theorem AttestationRefusal.grounds (h : AttestationRefusal t pubkey candidate strict e) :
    (∃ ws, t.watermarks.lookup (pubkey, .attestationSource) = some ws ∧ candidate.sourceEpoch < asU64 ws) ∨
      (∃ wt, t.watermarks.lookup (pubkey, .attestationTarget) = some wt ∧ candidate.targetEpoch ≤ asU64 wt) ∨
      (∃ row ∈ t.attestations, row.pubkey = pubkey ∧ row.vote.Conflicts candidate.vote) ∨
      ∃ row ∈ t.attestations, row.pubkey = pubkey ∧ candidate.targetEpoch < asU64 row.targetEpoch ∧
        e.isBelowMinimum = true := by
  cases h with
  | belowSource hwm hlt => exact .inl ⟨_, hwm, hlt⟩
  | belowTarget hwm hle => exact .inr (.inl ⟨_, hwm, hle⟩)
  | doubleVote hfound =>
    obtain ⟨hrow, hpk, htarget⟩ := rowAtTarget_some hfound
    exact .inr (.inr (.inl ⟨_, hrow, hpk, .inl htarget⟩))
  | surrounding hrow hpk hsurr => exact .inr (.inr (.inl ⟨_, hrow, hpk, .inr (.inr hsurr)⟩))
  | surrounded hrow hpk hsurr => exact .inr (.inr (.inl ⟨_, hrow, hpk, .inr (.inl hsurr)⟩))
  | belowMinimum hrow hpk _ hlt _ => exact .inr (.inr (.inr ⟨_, hrow, hpk, hlt, rfl⟩))

structure AttestationAccepted (t : Tables) (pubkey : String) (candidate : AttestationCandidate)
    (strict : Bool) (verdict : AttestationVerdict) : Prop where
  floor : (t.attestationWatermarks pubkey).Admits candidate
  notSurrounding : ∀ row ∈ t.attestations, row.pubkey = pubkey → ¬ candidate.vote.Surrounds row.vote
  notSurrounded : ∀ row ∈ t.attestations, row.pubkey = pubkey → ¬ row.vote.Surrounds candidate.vote
  /-- A staged vote is alone at its target; a repeated one meets its own root there. -/
  target : match verdict with
    | .stage => ∀ row ∈ t.attestations, row.pubkey = pubkey →
        row.targetEpoch ≠ candidate.vote.target
    | .duplicate => ∃ row, t.rowAtTarget pubkey candidate.vote.target = some row ∧
        isResign row.signingRoot candidate.signingRoot strict = true
  minimum : verdict = .stage → ∀ min, ((t.attestationsOf pubkey).map (·.targetEpoch)).min? = some min →
    asU64 min ≤ candidate.targetEpoch

theorem Tables.checkAttestation_outcome (t : Tables) (pubkey : String) (candidate : AttestationCandidate)
    (strict : Bool) : AttestationOutcome pubkey ((t.rowAtTarget pubkey candidate.vote.target).map (·.toExisting))
      ((t.rowSurroundedBy pubkey candidate.vote).map (·.epochs))
      ((t.rowSurrounding pubkey candidate.vote).map (·.epochs))
      ((((t.attestationsOf pubkey).map (·.targetEpoch)).min?).map asU64)
      (t.attestationWatermarks pubkey) candidate strict
      (t.checkAttestation pubkey candidate strict) :=
  Slashing.checkAttestation_outcome rfl rfl rfl rfl

theorem readWatermark_some {kind : WatermarkKind} {value : Nat} (h : readWatermark t pubkey kind = some value) :
    ∃ wm, t.watermarks.lookup (pubkey, kind) = some wm ∧ asU64 wm = value :=
  map_eq_some_iff.mp h

theorem Tables.checkAttestation_error (h : t.checkAttestation pubkey candidate strict = .error e) :
    AttestationRefusal t pubkey candidate strict e := by
  have hout := t.checkAttestation_outcome pubkey candidate strict
  rw [h] at hout
  cases hout with
  | belowSource hwm hlt =>
    obtain ⟨ws, hws, rfl⟩ := readWatermark_some hwm
    exact .belowSource hws hlt
  | belowTarget hwm hle =>
    obtain ⟨wt, hwt, rfl⟩ := readWatermark_some hwm
    exact .belowTarget hwt hle
  | doubleVote hfloor hrow hne =>
    obtain ⟨row, hfound, rfl⟩ := map_eq_some_iff.mp hrow
    exact .doubleVote hfound hne
  | surrounding hfloor hrow =>
    obtain ⟨row, hfound, rfl⟩ := map_eq_some_iff.mp hrow
    obtain ⟨hmem, hpk, hsurr⟩ := rowSurroundedBy_some hfound
    exact .surrounding hmem hpk hsurr
  | surrounded hfloor hnone hrow =>
    obtain ⟨row, hfound, rfl⟩ := map_eq_some_iff.mp hrow
    obtain ⟨hmem, hpk, hsurr⟩ := rowSurrounding_some hfound
    exact .surrounded hmem hpk hsurr
  | belowMinimum hfloor hrow hs hd hmin hlt =>
    obtain ⟨min, hleast, rfl⟩ := map_eq_some_iff.mp hmin
    obtain ⟨hmem, hle⟩ := min?_eq_some_iff.mp hleast
    obtain ⟨row, hfound, rfl⟩ := mem_map.mp hmem
    obtain ⟨hin, hpk⟩ := mem_attestationsOf.mp hfound
    exact .belowMinimum hin hpk (fun other hother hopk =>
      hle _ (mem_map.mpr ⟨other, mem_attestationsOf.mpr ⟨hother, hopk⟩, rfl⟩)) hlt (map_eq_none_iff.mp hrow)

variable {verdict : AttestationVerdict}

theorem Tables.checkAttestation_ok (h : t.checkAttestation pubkey candidate strict = .ok verdict) :
    AttestationAccepted t pubkey candidate strict verdict := by
  have hout := t.checkAttestation_outcome pubkey candidate strict
  rw [h] at hout
  cases hout with
  | duplicate hfloor hrow heq hs hd =>
    obtain ⟨row, hfound, rfl⟩ := map_eq_some_iff.mp hrow
    exact ⟨hfloor, rowSurroundedBy_none.mp (map_eq_none_iff.mp hs),
      rowSurrounding_none.mp (map_eq_none_iff.mp hd), ⟨row, hfound, heq⟩, by simp⟩
  | stage hfloor hrow hs hd hmin =>
    exact ⟨hfloor, rowSurroundedBy_none.mp (map_eq_none_iff.mp hs), rowSurrounding_none.mp (map_eq_none_iff.mp hd),
      rowAtTarget_none.mp (map_eq_none_iff.mp hrow),
      fun _ min hm => hmin _ (by rw [hm]; rfl)⟩

namespace AttestationAccepted

variable (h : AttestationAccepted t pubkey candidate strict verdict)

include h

theorem at_target (hrow : t.rowAtTarget pubkey candidate.vote.target = some row) :
    verdict = .duplicate ∧ isResign row.signingRoot candidate.signingRoot strict = true := by
  cases verdict with
  | stage =>
    obtain ⟨hin, hpk, heq⟩ := rowAtTarget_some hrow
    exact absurd heq (h.target row hin hpk)
  | duplicate =>
    obtain ⟨row', hrow', heq⟩ := h.target
    cases hrow.symm.trans hrow'
    exact ⟨rfl, heq⟩

theorem eq_stage (hfree : t.rowAtTarget pubkey candidate.vote.target = none) : verdict = .stage := by
  cases verdict with
  | stage => rfl
  | duplicate =>
    obtain ⟨row, hfound, -⟩ := h.target
    cases hfree.symm.trans hfound

theorem verdict_eq {verdict' : AttestationVerdict} (h' : AttestationAccepted t pubkey candidate strict verdict') :
    verdict = verdict' := by
  cases hrow : t.rowAtTarget pubkey candidate.vote.target with
  | some row => rw [(h.at_target hrow).1, (h'.at_target hrow).1]
  | none => rw [h.eq_stage hrow, h'.eq_stage hrow]

theorem least_le (hstage : verdict = .stage) (hrow : row ∈ t.attestations) (hpk : row.pubkey = pubkey)
    (hmin : ∀ other ∈ t.attestations, other.pubkey = pubkey → row.targetEpoch ≤ other.targetEpoch) :
    asU64 row.targetEpoch ≤ candidate.targetEpoch := by
  refine h.minimum hstage _ (min?_eq_some_iff.mpr ⟨mem_map_of_mem (mem_attestationsOf.mpr ⟨hrow, hpk⟩), ?_⟩)
  intro target htarget
  obtain ⟨other, hother, rfl⟩ := mem_map.mp htarget
  obtain ⟨hin, hopk⟩ := mem_attestationsOf.mp hother
  exact hmin other hin hopk

end AttestationAccepted

theorem AttestationRefusal.not_accepted (h : AttestationRefusal t pubkey candidate strict e) :
    ¬ AttestationAccepted t pubkey candidate strict verdict := by
  intro hacc
  cases h with
  | belowSource hwm hlt => exact absurd (hacc.floor.1 _ (readWatermark_of_lookup hwm)) (Nat.not_le.mpr hlt)
  | belowTarget hwm hle => exact absurd (hacc.floor.2 _ (readWatermark_of_lookup hwm)) (Nat.not_lt.mpr hle)
  | doubleVote hrow hne => exact Bool.false_ne_true (hne.symm.trans (hacc.at_target hrow).2)
  | surrounding hrow hpk hsurr => exact hacc.notSurrounding _ hrow hpk hsurr
  | surrounded hrow hpk hsurr => exact hacc.notSurrounded _ hrow hpk hsurr
  | belowMinimum hrow hpk hmin hlt hfree =>
    exact absurd (hacc.least_le (hacc.eq_stage hfree) hrow hpk hmin) (Nat.not_le.mpr hlt)

theorem Tables.checkAttestation_ok_iff : t.checkAttestation pubkey candidate strict = .ok verdict ↔
      AttestationAccepted t pubkey candidate strict verdict := by
  refine ⟨checkAttestation_ok, fun hacc => ?_⟩
  cases hcheck : t.checkAttestation pubkey candidate strict with
  | error e => exact absurd hacc (checkAttestation_error hcheck).not_accepted
  | ok verdict' => rw [(checkAttestation_ok hcheck).verdict_eq hacc]

section

variable (t : Tables) (pubkey : String) (candidate : BlockCandidate) (strict : Bool)

inductive BlockRefusal :
    SlashingError → Prop
  | belowWatermark {wm : Int} (hwm : t.watermarks.lookup (pubkey, .block) = some wm)
      (hle : candidate.slot ≤ asU64 wm) : BlockRefusal (.belowBlockWatermark pubkey candidate.slot (asU64 wm))
  | doubleProposal {row : BlockRow} (hrow : t.rowAtSlot pubkey (asI64 candidate.slot) = some row)
      (hne : isResign row.signingRoot candidate.signingRoot strict = false) :
      BlockRefusal (.slashableBlock (.doubleBlockProposal candidate.slot))
  | belowMinimum {row : BlockRow} (hrow : row ∈ t.blocks) (hpk : row.pubkey = pubkey)
      (hlt : candidate.slot < asU64 row.slot) (hmin : ((t.blocksOf pubkey).map (·.slot)).min? = some row.slot)
      (hfree : t.rowAtSlot pubkey (asI64 candidate.slot) = none) : BlockRefusal
        (.slashableBlock (.slotBelowMinimum candidate.slot (asU64 row.slot)))

end

structure BlockAccepted (t : Tables) (pubkey : String) (candidate : BlockCandidate) (strict : Bool)
    (verdict : BlockVerdict) : Prop where
  floor : (t.blockWatermarks pubkey).Admits candidate.slot
  slot : match verdict with
    | .stage => ∀ row ∈ t.blocks, row.pubkey = pubkey → row.slot ≠ asI64 candidate.slot
    | .resign => ∃ row, t.rowAtSlot pubkey (asI64 candidate.slot) = some row ∧
        isResign row.signingRoot candidate.signingRoot strict = true
  minimum : verdict = .stage → ∀ min, ((t.blocksOf pubkey).map (·.slot)).min? = some min → asU64 min ≤ candidate.slot

theorem Tables.checkBlock_outcome (t : Tables) (pubkey : String) (candidate : BlockCandidate) (strict : Bool) :
    BlockOutcome pubkey ((t.rowAtSlot pubkey (asI64 candidate.slot)).map (·.signingRoot))
      ((((t.blocksOf pubkey).map (·.slot)).min?).map asU64) (t.blockWatermarks pubkey) candidate strict
      (t.checkBlock pubkey candidate strict) :=
  Slashing.checkBlock_outcome rfl rfl

section

variable {candidate : BlockCandidate} {verdict : BlockVerdict}

theorem Tables.checkBlock_error (h : t.checkBlock pubkey candidate strict = .error e) :
    BlockRefusal t pubkey candidate strict e := by
  have hout := t.checkBlock_outcome pubkey candidate strict
  rw [h] at hout
  cases hout with
  | belowWatermark hwm hle =>
    obtain ⟨wm, hfound, rfl⟩ := readWatermark_some hwm
    exact .belowWatermark hfound hle
  | doubleProposal hfloor hrow hne =>
    obtain ⟨row, hfound, rfl⟩ := map_eq_some_iff.mp hrow
    exact .doubleProposal hfound hne
  | belowMinimum hfloor hrow hmin hlt =>
    obtain ⟨min, hleast, rfl⟩ := map_eq_some_iff.mp hmin
    obtain ⟨row, hfound, rfl⟩ := mem_map.mp (min?_mem hleast)
    obtain ⟨hin, hpk⟩ := mem_blocksOf.mp hfound
    exact .belowMinimum hin hpk hlt hleast (map_eq_none_iff.mp hrow)

theorem Tables.checkBlock_ok (h : t.checkBlock pubkey candidate strict = .ok verdict) :
    BlockAccepted t pubkey candidate strict verdict := by
  have hout := t.checkBlock_outcome pubkey candidate strict
  rw [h] at hout
  cases hout with
  | resign hfloor hrow heq =>
    obtain ⟨row, hfound, rfl⟩ := map_eq_some_iff.mp hrow
    exact ⟨hfloor, ⟨row, hfound, heq⟩, nofun⟩
  | stage hfloor hrow hmin =>
    exact ⟨hfloor, rowAtSlot_none.mp (map_eq_none_iff.mp hrow), fun _ min hm => hmin _ (by rw [hm]; rfl)⟩

namespace BlockAccepted

variable (h : BlockAccepted t pubkey candidate strict verdict)

include h

theorem at_slot {row : BlockRow} (hrow : t.rowAtSlot pubkey (asI64 candidate.slot) = some row) :
    verdict = .resign ∧ isResign row.signingRoot candidate.signingRoot strict = true := by
  cases verdict with
  | stage =>
    obtain ⟨hin, hpk, heq⟩ := rowAtSlot_some hrow
    exact absurd heq (h.slot row hin hpk)
  | resign =>
    obtain ⟨row', hrow', heq⟩ := h.slot
    cases hrow.symm.trans hrow'
    exact ⟨rfl, heq⟩

theorem eq_stage (hfree : t.rowAtSlot pubkey (asI64 candidate.slot) = none) : verdict = .stage := by
  cases verdict with
  | stage => rfl
  | resign =>
    obtain ⟨row, hfound, -⟩ := h.slot
    cases hfree.symm.trans hfound

theorem verdict_eq {verdict' : BlockVerdict} (h' : BlockAccepted t pubkey candidate strict verdict') :
    verdict = verdict' := by
  cases hrow : t.rowAtSlot pubkey (asI64 candidate.slot) with
  | some row => rw [(h.at_slot hrow).1, (h'.at_slot hrow).1]
  | none => rw [h.eq_stage hrow, h'.eq_stage hrow]

end BlockAccepted

theorem BlockRefusal.not_accepted (h : BlockRefusal t pubkey candidate strict e) :
    ¬ BlockAccepted t pubkey candidate strict verdict := by
  intro hacc
  cases h with
  | belowWatermark hwm hle => exact absurd (hacc.floor _ (readWatermark_of_lookup hwm)) (Nat.not_lt.mpr hle)
  | doubleProposal hrow hne => exact Bool.false_ne_true (hne.symm.trans (hacc.at_slot hrow).2)
  | belowMinimum hrow hpk hlt hmin hfree =>
    exact absurd (hacc.minimum (hacc.eq_stage hfree) _ hmin) (Nat.not_le.mpr hlt)

theorem Tables.checkBlock_ok_iff : t.checkBlock pubkey candidate strict = .ok verdict ↔
      BlockAccepted t pubkey candidate strict verdict := by
  refine ⟨checkBlock_ok, fun hacc => ?_⟩
  cases hcheck : t.checkBlock pubkey candidate strict with
  | error e => exact absurd hacc (checkBlock_error hcheck).not_accepted
  | ok verdict' => rw [(checkBlock_ok hcheck).verdict_eq hacc]

end

/-! ### Messages with a new root -/

def Tables.FreshRoot (t : Tables) (root : String) : Prop :=
  (∀ row ∈ t.attestations, row.signingRoot ≠ some root) ∧ ∀ row ∈ t.blocks, row.signingRoot ≠ some root

theorem isResign_of_ne {stored : Option String} {root : String}
    (h : stored ≠ some root) : isResign stored (some root) strict = false := by
  cases stored with
  | none => rfl
  | some other => simpa [isResign] using h

theorem eq_of_isResign {existing new : Option String} (h : isResign existing new strict = true) : existing = new := by
  rcases existing with _ | er <;> rcases new with _ | nr <;> simp_all [isResign]

inductive Tables.RefusesFresh (t : Tables) (pubkey : String) (candidate : AttestationCandidate) : Prop
  | floor (h : ¬ (t.attestationWatermarks pubkey).Admits candidate)
  | double {row : AttestationRow} (hrow : row ∈ t.attestations) (hpk : row.pubkey = pubkey)
      (htarget : row.targetEpoch = candidate.vote.target)
  | surrounding {row : AttestationRow} (hrow : row ∈ t.attestations) (hpk : row.pubkey = pubkey)
      (hsurrounds : candidate.vote.Surrounds row.vote)
  | surrounded {row : AttestationRow} (hrow : row ∈ t.attestations) (hpk : row.pubkey = pubkey)
      (hsurrounds : row.vote.Surrounds candidate.vote)
  | minimum {row : AttestationRow} (hrow : row ∈ t.attestations) (hpk : row.pubkey = pubkey)
      (hmin : ∀ other ∈ t.attestations, other.pubkey = pubkey → row.targetEpoch ≤ other.targetEpoch)
      (hlt : candidate.targetEpoch < asU64 row.targetEpoch)

theorem Tables.checkAttestation_fresh {root : String} (strict : Bool) (hroot : candidate.signingRoot = some root)
    (hfresh : t.FreshRoot root) :
    (∃ e, t.checkAttestation pubkey candidate strict = .error e) ↔ t.RefusesFresh pubkey candidate := by
  constructor
  · rintro ⟨e, he⟩
    cases checkAttestation_error he with
    | belowSource hwm hlt =>
      exact .floor fun hadm => absurd (hadm.1 _ (readWatermark_of_lookup hwm)) (Nat.not_le.mpr hlt)
    | belowTarget hwm hle =>
      exact .floor fun hadm => absurd (hadm.2 _ (readWatermark_of_lookup hwm)) (Nat.not_lt.mpr hle)
    | doubleVote hrow hne =>
      obtain ⟨hmem, hpk, htarget⟩ := rowAtTarget_some hrow
      exact .double hmem hpk htarget
    | surrounding hrow hpk hsurrounds => exact .surrounding hrow hpk hsurrounds
    | surrounded hrow hpk hsurrounds => exact .surrounded hrow hpk hsurrounds
    | belowMinimum hrow hpk hmin hlt => exact .minimum hrow hpk hmin hlt
  · intro href
    cases hok : t.checkAttestation pubkey candidate strict with
    | error e => exact ⟨e, rfl⟩
    | ok verdict =>
      exfalso
      have hacc := checkAttestation_ok hok
      -- a new root repeats no row, so the vote was staged
      have hstage : verdict = .stage := by
        cases verdict with
        | stage => rfl
        | duplicate =>
          obtain ⟨row, hrow, hres⟩ := hacc.target
          have hne := hfresh.1 row (rowAtTarget_some hrow).1
          rw [hroot, isResign_of_ne hne] at hres
          cases hres
      subst hstage
      cases href with
      | floor h => exact h hacc.floor
      | double hrow hpk htarget => exact hacc.target _ hrow hpk htarget
      | surrounding hrow hpk hsurrounds => exact hacc.notSurrounding _ hrow hpk hsurrounds
      | surrounded hrow hpk hsurrounds => exact hacc.notSurrounded _ hrow hpk hsurrounds
      | minimum hrow hpk hmin hlt => exact absurd (hacc.least_le rfl hrow hpk hmin) (Nat.not_le.mpr hlt)

theorem Tables.checkBlock_fresh {root : String} {candidate : BlockCandidate}
    (strict : Bool) (hroot : candidate.signingRoot = some root) (hfresh : t.FreshRoot root)
    {row : BlockRow} (hrow : row ∈ t.blocks) (hpk : row.pubkey = pubkey) (hslot : row.slot = asI64 candidate.slot) :
    ∃ e, t.checkBlock pubkey candidate strict = .error e := by
  cases hok : t.checkBlock pubkey candidate strict with
  | error e => exact ⟨e, rfl⟩
  | ok verdict =>
    exfalso
    have hacc := checkBlock_ok hok
    cases verdict with
    | stage => exact hacc.slot row hrow hpk hslot
    | resign =>
      obtain ⟨stored, hstored, hres⟩ := hacc.slot
      have hne := hfresh.2 stored (rowAtSlot_some hstored).1
      rw [hroot, isResign_of_ne hne] at hres
      cases hres

/-! ### Below `2 ^ 63` -/

def AttestationCandidate.Small (candidate : AttestationCandidate) : Prop :=
  candidate.sourceEpoch < 2 ^ 63 ∧ candidate.targetEpoch < 2 ^ 63

def BlockCandidate.Small (candidate : BlockCandidate) : Prop := candidate.slot < 2 ^ 63

theorem AttestationCandidate.Small.vote (h : candidate.Small) :
    candidate.vote = ⟨candidate.sourceEpoch, candidate.targetEpoch⟩ := by
  rw [AttestationCandidate.vote, asI64_of_lt h.1, asI64_of_lt h.2]

theorem AttestationRow.Small.casts (h : row.Small) :
    (asU64 row.sourceEpoch : Int) = row.sourceEpoch ∧ (asU64 row.targetEpoch : Int) = row.targetEpoch :=
  ⟨asU64_of_smallInt h.1, asU64_of_smallInt h.2⟩

theorem AttestationRow.Small.of_conflicts (h : row.Small) (hc : candidate.Small)
    (hconf : row.vote.Conflicts candidate.vote) :
    candidate.sourceEpoch < asU64 row.sourceEpoch ∨ candidate.targetEpoch ≤ asU64 row.targetEpoch := by
  obtain ⟨hsource, htarget⟩ := h.casts
  rw [hc.vote] at hconf
  simp only [Vote.Conflicts, Vote.Surrounds, AttestationRow.vote] at hconf
  omega

theorem Tables.Small.asU64_watermark (h : t.Small) {key : String × WatermarkKind} {wm : Int}
    (hwm : t.watermarks.lookup key = some wm) : (asU64 wm : Int) = wm :=
  asU64_of_smallInt (h.watermarks key wm hwm)

theorem Tables.Small.admits_iff (h : t.Small) (hc : candidate.Small) :
    (t.attestationWatermarks pubkey).Admits candidate ↔ (t.floor pubkey).Admits candidate.vote := by
  rw [hc.vote]
  constructor
  · rintro ⟨hs, ht⟩
    refine ⟨fun ws hws => ?_, fun wt hwt => ?_⟩
    · have := hs _ (readWatermark_of_lookup hws)
      have := h.asU64_watermark hws
      show ws ≤ (candidate.sourceEpoch : Int)
      omega
    · have := ht _ (readWatermark_of_lookup hwt)
      have := h.asU64_watermark hwt
      show wt < (candidate.targetEpoch : Int)
      omega
  · rintro ⟨hs, ht⟩
    refine ⟨fun ws hws => ?_, fun wt hwt => ?_⟩
    · obtain ⟨wm, hwm, rfl⟩ := readWatermark_some hws
      have : wm ≤ (candidate.sourceEpoch : Int) := hs wm hwm
      have := h.asU64_watermark hwm
      omega
    · obtain ⟨wm, hwm, rfl⟩ := readWatermark_some hwt
      have : wm < (candidate.targetEpoch : Int) := ht wm hwm
      have := h.asU64_watermark hwm
      omega

end Rvc.Slashing
