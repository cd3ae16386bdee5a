import Rvc.Slashing.Shadow

/-!
# Pruning enables nothing

A prune deletes rows below the block and target floors, after it has raised the source floors over the rows
it is about to delete. So every deleted row is in the shadow of the floors the prune leaves, and
`Tables.Shadowed` applies: what is accepted after it was accepted before, with the same verdict. A second
prune finds no row below a floor and changes nothing.
-/

namespace Rvc.Slashing

open Rvc.Lib List AList

section

variable {t t' : Tables} {stats : PruneStats}

theorem Tables.Advances.shadowed (h : t.Advances t') {keep : AttestationRow → Bool}
    (hatts : t'.attestations = t.attestations.filter keep) {keepBlock : BlockRow → Bool}
    (hblocks : t'.blocks = t.blocks.filter keepBlock) : t.Shadowed t' := by
  refine ⟨h.watermarks, ?_, fun row hrow => ?_, ?_, fun row hrow => ?_⟩
  · rw [hatts, filter_filter]
    apply filter_congr
    intro row hrow
    by_cases habove : t'.above row = true
    · have hnot : ¬ (t'.floor row.pubkey).Covers row.vote := by simpa [Tables.above] using habove
      have hin := (h.attestations row hrow).resolve_right hnot
      rw [hatts] at hin
      simp [habove, (mem_filter.mp hin).2]
    · simp [habove]
  · rw [hatts] at hrow
    exact ⟨row, mem_of_mem_filter hrow, rfl, rfl⟩
  · rw [hblocks, filter_filter]
    apply filter_congr
    intro row hrow
    by_cases habove : t'.aboveBlock row = true
    · have hnot : ¬ t'.BlockCovered row.pubkey row.slot := by simpa [Tables.aboveBlock] using habove
      have hin := (h.blocks row hrow).resolve_right hnot
      rw [hblocks] at hin
      simp [habove, (mem_filter.mp hin).2]
    · simp [habove]
  · rw [hblocks] at hrow
    exact ⟨row, mem_of_mem_filter hrow, rfl, rfl⟩

theorem prune_eq (h : pruneBelowWatermarks t = .ok (t', stats)) :
    t.watermarks.entries ≠ [] ∧ t'.watermarks = ((targetFloors t).foldl raiseSourceBound t).watermarks ∧
      t'.attestations = t.attestations.filter (fun row => !belowTargetFloor t' row) ∧
      t'.blocks = t.blocks.filter (fun row => !belowBlockFloor t' row) := by
  unfold pruneBelowWatermarks at h
  split at h
  · cases h
  next hne =>
  cases h
  have hraised := foldl_raiseSourceBound_raised (targetFloors t) t
  refine ⟨fun hnil => hne (by rw [hnil]; rfl), rfl, ?_, ?_⟩
  · rw [← hraised.attestations]
    rfl
  · rw [← hraised.blocks]
    rfl

theorem prune_shadowed (hsmall : t.Small) (h : pruneBelowWatermarks t = .ok (t', stats)) : t.Shadowed t' := by
  obtain ⟨hadv, -⟩ := prune_spec hsmall h
  obtain ⟨-, -, hatts, hblocks⟩ := prune_eq h
  exact hadv.shadowed hatts hblocks

theorem foldl_raiseSourceBound_eq {floors : List (String × Int)} (hfloors : ∀ floor ∈ floors,
    ∀ row ∈ t.attestations, row.pubkey = floor.1 → ¬ row.targetEpoch < floor.2) :
    floors.foldl raiseSourceBound t = t := by
  induction floors with
  | nil => rfl
  | cons floor floors ih =>
    have hnone : maxSourceBelow t floor.1 floor.2 = none := by
      rw [maxSourceBelow, List.max?_eq_none_iff, map_eq_nil_iff, filter_eq_nil_iff]
      intro row hrow
      obtain ⟨hin, hpk⟩ := Tables.mem_attestationsOf.mp hrow
      simpa using hfloors floor mem_cons_self row hin hpk
    have hstep : raiseSourceBound t floor = t := by rw [raiseSourceBound, hnone]
    rw [foldl_cons, hstep]
    exact ih fun other hother => hfloors other (mem_cons_of_mem _ hother)

theorem prune_idempotent (h : pruneBelowWatermarks t = .ok (t', stats)) :
    pruneBelowWatermarks t' = .ok (t', ⟨0, 0⟩) := by
  obtain ⟨hne, hwms, hatts, hblocks⟩ := prune_eq h
  have hraised := foldl_raiseSourceBound_raised (targetFloors t) t
  have hnonempty : t'.watermarks.entries.length ≠ 0 := by
    obtain ⟨⟨key, wm⟩, hentry⟩ := exists_mem_of_ne_nil _ hne
    obtain ⟨wm', hwm', -⟩ := hraised.watermarks key wm (mem_lookup_iff.mpr hentry)
    rw [← hwms] at hwm'
    exact length_pos_iff_exists_mem.mpr ⟨_, mem_lookup_iff.mp hwm'⟩ |>.ne'
  have hatt : ∀ row ∈ t'.attestations, belowTargetFloor t' row = false := by
    intro row hrow
    rw [hatts] at hrow
    simpa using (mem_filter.mp hrow).2
  have hblock : ∀ row ∈ t'.blocks, belowBlockFloor t' row = false := by
    intro row hrow
    rw [hblocks] at hrow
    simpa using (mem_filter.mp hrow).2
  have hloop : (targetFloors t').foldl raiseSourceBound t' = t' := by
    apply foldl_raiseSourceBound_eq
    rintro ⟨pubkey, wm⟩ hfloor row hrow rfl hlt
    have hlookup : t'.watermarks.lookup (row.pubkey, .attestationTarget) = some wm := by
      obtain ⟨⟨⟨key, kind⟩, value⟩, hentry, heq⟩ := mem_filterMap.mp hfloor
      simp only [Option.ite_none_right_eq_some, Option.some.injEq, Prod.mk.injEq] at heq
      obtain ⟨rfl, rfl, rfl⟩ := heq
      exact mem_lookup_iff.mpr hentry
    have hbelow := hatt row hrow
    simp only [belowTargetFloor, hlookup, decide_eq_false_iff_not] at hbelow
    exact hbelow hlt
  unfold pruneBelowWatermarks
  rw [if_neg hnonempty]
  simp only [hloop]
  have hkeep : t'.attestations.filter (fun row => !belowTargetFloor t' row) = t'.attestations :=
    filter_eq_self.mpr fun row hrow => by simp [hatt row hrow]
  have hkeep' : t'.blocks.filter (fun row => !belowBlockFloor t' row) = t'.blocks :=
    filter_eq_self.mpr fun row hrow => by simp [hblock row hrow]
  have hcount : t'.attestations.countP (belowTargetFloor t') = 0 :=
    countP_eq_zero.mpr fun row hrow => by simp [hatt row hrow]
  have hcount' : t'.blocks.countP (belowBlockFloor t') = 0 :=
    countP_eq_zero.mpr fun row hrow => by simp [hblock row hrow]
  rw [hkeep, hkeep', hcount, hcount']

end

/-- **Pruning enables nothing.** With a watermark set and values below `2 ^ 63`, a prune succeeds; what the
pruned database accepts the database before it accepted with the same verdict; no watermark decreases; and
pruning again changes nothing. -/
theorem prune_never_enables {t : Tables} (hsmall : t.Small) (hwm : t.watermarks.entries ≠ []) :
    ∃ t' stats, pruneBelowWatermarks t = .ok (t', stats) ∧ (∀ pubkey candidate strict verdict, candidate.Small →
        t'.checkAttestation pubkey candidate strict = .ok verdict →
        t.checkAttestation pubkey candidate strict = .ok verdict) ∧
      (∀ pubkey candidate strict verdict, candidate.slot < 2 ^ 64 →
        t'.checkBlock pubkey candidate strict = .ok verdict → t.checkBlock pubkey candidate strict = .ok verdict) ∧
      (∀ key wm, t.watermarks.lookup key = some wm → ∃ wm', t'.watermarks.lookup key = some wm' ∧ wm ≤ wm') ∧
      pruneBelowWatermarks t' = .ok (t', ⟨0, 0⟩) := by
  have hlength : t.watermarks.entries.length ≠ 0 := fun hzero => hwm (length_eq_zero_iff.mp hzero)
  obtain ⟨t', stats, h⟩ : ∃ t' stats, pruneBelowWatermarks t = .ok (t', stats) :=
    ⟨_, _, by rw [pruneBelowWatermarks, if_neg hlength]⟩
  obtain ⟨hadv, hsmall', -⟩ := prune_spec hsmall h
  have hshadow := prune_shadowed hsmall h
  refine ⟨t', stats, h, ?_, ?_, hadv.watermarks, prune_idempotent h⟩
  · intro pubkey candidate strict verdict hc hok
    exact hshadow.checkAttestation hsmall hsmall' hc hok
  · intro pubkey candidate strict verdict hc hok
    exact hshadow.checkBlock hsmall hsmall' hc hok

/-- A vote from 3 to 4 below the target floor 5, and one above it. -/
def prunableTables : Tables where
  attestations :=
    [⟨auditOrigin, "0xaa", 3, 4, some "0x01", none⟩, ⟨auditOrigin, "0xaa", 3, 6, some "0x02", none⟩]
  blocks := []
  watermarks := (∅ : Watermarks).insert ("0xaa", .attestationTarget) 5
  metadataGvr := none

/-- The prune deletes one vote, and the vote from 4 to 9 that is accepted after it was accepted before. -/
theorem prune_never_enables_oneDeleted :
    ∃ t' stats, pruneBelowWatermarks prunableTables = .ok (t', stats) ∧ stats.attestationsDeleted = 1 ∧
      t'.checkAttestation "0xaa" ⟨4, 9, some "0x03"⟩ true = .ok .stage ∧
      prunableTables.checkAttestation "0xaa" ⟨4, 9, some "0x03"⟩ true = .ok .stage := by
  have hsmall : prunableTables.Small := by
    refine ⟨by decide, by decide, fun key wm hwm => ?_⟩
    by_cases hkey : key = ("0xaa", .attestationTarget)
    · rw [prunableTables, hkey, lookup_insert] at hwm
      cases hwm
      decide
    · rw [prunableTables, lookup_insert_ne hkey] at hwm
      cases hwm
  obtain ⟨t', stats, h, hatt, -⟩ := prune_never_enables hsmall (by decide)
  cases h.symm.trans rfl
  have hbefore := hatt "0xaa" ⟨4, 9, some "0x03"⟩ true .stage ⟨by decide, by decide⟩ (by decide)
  exact ⟨_, _, h, by decide, by decide, hbefore⟩

end Rvc.Slashing
