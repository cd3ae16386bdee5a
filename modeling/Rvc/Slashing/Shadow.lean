import Rvc.Lib.Keyed
import Rvc.Slashing.History

/-!
# Rows in the shadow of the floors

A row at or below its validator's floors never decides a check: a candidate that passes the floors is above
it, so it is no double vote and no surround either way. Two databases that differ only in such rows, and
whose least values are the same, give the same verdicts above the floors. `Tables.Shadowed` says so in the
form in which one database may have lower floors; its `checkAttestation` and `checkBlock` carry verdicts over.
-/

namespace Rvc.Slashing

open Rvc.Lib List Option Tables

/-! ### Differing only under the floors -/

def Tables.above (t : Tables) (row : AttestationRow) : Bool := !decide ((t.floor row.pubkey).Covers row.vote)

def Tables.aboveBlock (t : Tables) (row : BlockRow) : Bool :=
  !decide (t.BlockCovered row.pubkey row.slot)

/-- `t'` has the floors of `t` or higher ones, the same rows above its floors, and no target or slot that `t`
has not. -/
structure Tables.Shadowed (t t' : Tables) : Prop where
  watermarks : ∀ key wm, t.watermarks.lookup key = some wm →
    ∃ wm', t'.watermarks.lookup key = some wm' ∧ wm ≤ wm'
  attestations : t.attestations.filter t'.above = t'.attestations.filter t'.above
  targets : ∀ row ∈ t'.attestations, ∃ row' ∈ t.attestations, row'.pubkey = row.pubkey ∧
    row'.targetEpoch = row.targetEpoch
  blocks : t.blocks.filter t'.aboveBlock = t'.blocks.filter t'.aboveBlock
  slots : ∀ row ∈ t'.blocks, ∃ row' ∈ t.blocks, row'.pubkey = row.pubkey ∧ row'.slot = row.slot

namespace Tables.Shadowed

variable {t t' : Tables} {pubkey : String} {strict : Bool} {candidate : AttestationCandidate}
  {verdict : AttestationVerdict}

theorem floor_raised (h : t.Shadowed t') : (t.floor pubkey).Raised (t'.floor pubkey) :=
  ⟨h.watermarks (pubkey, .attestationSource), h.watermarks (pubkey, .attestationTarget)⟩

theorem attestation_cases (h : t.Shadowed t') {row : AttestationRow} (hrow : row ∈ t.attestations) :
    row ∈ t'.attestations ∨ (t'.floor row.pubkey).Covers row.vote := by
  by_cases habove : t'.above row = true
  · left
    have hmem : row ∈ t.attestations.filter t'.above := mem_filter.mpr ⟨hrow, habove⟩
    rw [h.attestations] at hmem
    exact mem_of_mem_filter hmem
  · right
    simpa [above] using habove

theorem block_cases (h : t.Shadowed t') {row : BlockRow} (hrow : row ∈ t.blocks) :
    row ∈ t'.blocks ∨ t'.BlockCovered row.pubkey row.slot := by
  by_cases habove : t'.aboveBlock row = true
  · left
    have hmem : row ∈ t.blocks.filter t'.aboveBlock := mem_filter.mpr ⟨hrow, habove⟩
    rw [h.blocks] at hmem
    exact mem_of_mem_filter hmem
  · right
    simpa [aboveBlock] using habove

theorem rowAtTarget_eq (h : t.Shadowed t') {v : Vote Int} (hv : (t'.floor pubkey).Admits v) :
    t.rowAtTarget pubkey v.target = t'.rowAtTarget pubkey v.target := by
  unfold rowAtTarget attestationsOf
  rw [find?_filter, find?_filter]
  -- a covered row is at or below the floor, where no admitted vote has its target
  have hkept : ∀ row : AttestationRow, row.pubkey = pubkey ∧ row.targetEpoch = v.target →
      t'.above row = true := by
    rintro row ⟨rfl, htarget⟩
    have hnot : ¬ (t'.floor row.pubkey).Covers row.vote := fun hcov =>
      hcov.not_conflicts hv (.inl htarget)
    simp [above, hnot]
  exact find?_eq_of_filter_eq h.attestations (fun row _ hfound => hkept row (by simpa using hfound))
    fun row _ hfound => hkept row (by simpa using hfound)

section

variable (h : t.Shadowed t') (hsmall : t.Small) (hsmall' : t'.Small)

include h hsmall hsmall'

theorem rowAtSlot_eq {slot : Nat} (hslot : slot < 2 ^ 64) (hfloor : (t'.blockWatermarks pubkey).Admits slot) :
    t.rowAtSlot pubkey (asI64 slot) = t'.rowAtSlot pubkey (asI64 slot) := by
  unfold rowAtSlot blocksOf
  rw [find?_filter, find?_filter]
  have hkept : ∀ row : BlockRow, row.Small → row.pubkey = pubkey ∧ row.slot = asI64 slot →
      t'.aboveBlock row = true := by
    rintro row hrow ⟨rfl, heq⟩
    have hnot : ¬ t'.BlockCovered row.pubkey row.slot := by
      rintro ⟨wm, hwm, hle⟩
      have hlt := hfloor _ (readWatermark_of_lookup hwm)
      have hmono := asU64_mono hrow (hsmall'.watermarks _ _ hwm) hle
      rw [heq, asU64_asI64_of_lt hslot] at hmono
      omega
    simp [aboveBlock, hnot]
  exact find?_eq_of_filter_eq h.blocks (fun row hin hfound => hkept row (hsmall.blocks row hin) (by simpa using hfound))
    fun row hin hfound => hkept row (hsmall'.blocks row hin) (by simpa using hfound)

/-- **Attestations.** What is accepted over the higher floors was accepted over the lower ones. -/
theorem attestationAccepted (hc : candidate.Small) (hacc : AttestationAccepted t' pubkey candidate strict verdict) :
    AttestationAccepted t pubkey candidate strict verdict := by
  have hadmits : (t'.floor pubkey).Admits candidate.vote := (hsmall'.admits_iff hc).mp hacc.floor
  have hrow := h.rowAtTarget_eq hadmits
  -- a row only `t` has is under the floor, and conflicts with nothing above it
  have hconf : ∀ row ∈ t.attestations, row.pubkey = pubkey → row ∈ t'.attestations ∨
      ¬ row.vote.Conflicts candidate.vote := by
    intro row hin hpk
    rcases h.attestation_cases hin with hkept | hcov
    · exact .inl hkept
    · exact .inr ((hpk ▸ hcov).not_conflicts hadmits)
  refine ⟨(hsmall.admits_iff hc).mpr (hadmits.anti h.floor_raised), ?_, ?_, ?_, ?_⟩
  · intro row hin hpk hsurr
    rcases hconf row hin hpk with hkept | hnot
    · exact hacc.notSurrounding row hkept hpk hsurr
    · exact hnot (.inr (.inr hsurr))
  · intro row hin hpk hsurr
    rcases hconf row hin hpk with hkept | hnot
    · exact hacc.notSurrounded row hkept hpk hsurr
    · exact hnot (.inr (.inl hsurr))
  · cases verdict with
    | stage => exact rowAtTarget_none.mp (hrow.trans (rowAtTarget_none.mpr hacc.target))
    | duplicate =>
      obtain ⟨row, hfound, heq⟩ := hacc.target
      exact ⟨row, hrow.trans hfound, heq⟩
  · intro hstage min hmin
    obtain ⟨hmem, hle⟩ := min?_eq_some_iff.mp hmin
    obtain ⟨row, hrow, rfl⟩ := mem_map.mp hmem
    obtain ⟨hin, hpk⟩ := mem_attestationsOf.mp hrow
    have hread := asU64_of_smallInt (hsmall.attestations row hin).2
    rcases h.attestation_cases hin with hkept | ⟨-, wt, hwt, hbelow⟩
    · -- the least target of `t'` is a target of `t`
      obtain ⟨min', hmin'⟩ : ∃ min', ((t'.attestationsOf pubkey).map (·.targetEpoch)).min? = some min' := by
        apply isSome_iff_exists.mp
        apply isSome_min?_iff.mpr
        exact ne_nil_of_mem (mem_map_of_mem (mem_attestationsOf.mpr ⟨hkept, hpk⟩))
      obtain ⟨row', hrow', rfl⟩ := mem_map.mp (min?_mem hmin')
      obtain ⟨hin', hpk'⟩ := mem_attestationsOf.mp hrow'
      obtain ⟨other, hother, hopk, hotarget⟩ := h.targets row' hin'
      have hleast : row.targetEpoch ≤ row'.targetEpoch := hotarget ▸
        hle _ (mem_map_of_mem (mem_attestationsOf.mpr ⟨hother, hopk.trans hpk'⟩))
      exact (asU64_mono (hsmall.attestations row hin).2 (hsmall'.attestations row' hin').2 hleast).trans
        (hacc.minimum hstage _ hmin')
    · have hlt := hadmits.2 wt (hpk ▸ hwt)
      rw [hc.vote] at hlt
      have hbelow' : row.targetEpoch ≤ wt := hbelow
      simp only at hlt
      omega

theorem min_slot_le {slot : Nat} (hfloor : (t'.blockWatermarks pubkey).Admits slot)
    (hmin' : ∀ min, ((t'.blocksOf pubkey).map (·.slot)).min? = some min → asU64 min ≤ slot) {min : Int}
    (hmin : ((t.blocksOf pubkey).map (·.slot)).min? = some min) : asU64 min ≤ slot := by
  obtain ⟨hmem, hle⟩ := min?_eq_some_iff.mp hmin
  obtain ⟨row, hrow, rfl⟩ := mem_map.mp hmem
  obtain ⟨hin, hpk⟩ := mem_blocksOf.mp hrow
  rcases h.block_cases hin with hkept | ⟨wm, hwm, hbelow⟩
  · obtain ⟨min', hleast⟩ : ∃ min', ((t'.blocksOf pubkey).map (·.slot)).min? = some min' := by
      apply isSome_iff_exists.mp
      apply isSome_min?_iff.mpr
      exact ne_nil_of_mem (mem_map_of_mem (mem_blocksOf.mpr ⟨hkept, hpk⟩))
    obtain ⟨row', hrow', rfl⟩ := mem_map.mp (min?_mem hleast)
    obtain ⟨hin', hpk'⟩ := mem_blocksOf.mp hrow'
    obtain ⟨other, hother, hopk, hoslot⟩ := h.slots row' hin'
    have hmono : row.slot ≤ row'.slot := hoslot ▸ hle _ (mem_map_of_mem (mem_blocksOf.mpr ⟨hother, hopk.trans hpk'⟩))
    exact (asU64_mono (hsmall.blocks row hin) (hsmall'.blocks row' hin') hmono).trans (hmin' _ hleast)
  · have hlt := hfloor _ (readWatermark_of_lookup (hpk ▸ hwm))
    have hmono := asU64_mono (hsmall.blocks row hin) (hsmall'.watermarks _ _ hwm) hbelow
    omega

theorem blockAccepted {candidate : BlockCandidate} (hc : candidate.slot < 2 ^ 64) {verdict : BlockVerdict}
    (hacc : BlockAccepted t' pubkey candidate strict verdict) :
    BlockAccepted t pubkey candidate strict verdict := by
  have hrow := h.rowAtSlot_eq hsmall hsmall' hc hacc.floor
  refine ⟨?_, ?_, fun hstage min => h.min_slot_le hsmall hsmall' hacc.floor (hacc.minimum hstage)⟩
  · intro wm hwm
    obtain ⟨stored, hstored, rfl⟩ := readWatermark_some hwm
    obtain ⟨stored', hstored', hle⟩ := h.watermarks _ _ hstored
    have hlt := hacc.floor _ (readWatermark_of_lookup hstored')
    have hmono := asU64_mono (hsmall.watermarks _ _ hstored) (hsmall'.watermarks _ _ hstored') hle
    omega
  · cases verdict with
    | stage => exact rowAtSlot_none.mp (hrow.trans (rowAtSlot_none.mpr hacc.slot))
    | resign =>
      obtain ⟨row, hfound, heq⟩ := hacc.slot
      exact ⟨row, hrow.trans hfound, heq⟩

/-- **Verdicts go down the floors**: what `t'` accepts, `t` accepts with the same verdict. -/
theorem checkAttestation (hc : candidate.Small) (hok : t'.checkAttestation pubkey candidate strict = .ok verdict) :
    t.checkAttestation pubkey candidate strict = .ok verdict :=
  checkAttestation_ok_iff.mpr (h.attestationAccepted hsmall hsmall' hc (checkAttestation_ok_iff.mp hok))

theorem checkBlock {candidate : BlockCandidate} (hc : candidate.slot < 2 ^ 64) {verdict : BlockVerdict}
    (hok : t'.checkBlock pubkey candidate strict = .ok verdict) :
    t.checkBlock pubkey candidate strict = .ok verdict :=
  checkBlock_ok_iff.mpr (h.blockAccepted hsmall hsmall' hc (checkBlock_ok_iff.mp hok))

end

end Tables.Shadowed

end Rvc.Slashing
