import Rvc.Slashing.Interchange.Transport
import Rvc.Slashing.Operations
import Rvc.Slashing.Prune

/-!
# The roots of an export

Every writer stores the text of a signing root as it is given, and the export copies it as it is stored. So a
property of root texts holds of all rows when every call writes such texts only (`Tables.RootsIn.runAll`), and it
holds of an exported file exactly when the rows the export copies have it (`exportInterchange_rootsIn_iff`).
-/

namespace Rvc.Slashing

open Rvc.Lib Rvc.EthTypes Rvc.Observability List

variable {P : Option String → Prop}

structure Tables.RootsIn (P : Option String → Prop) (t : Tables) : Prop where
  attestations : ∀ row ∈ t.attestations, P row.signingRoot
  blocks : ∀ row ∈ t.blocks, P row.signingRoot

structure InterchangeFormat.RootsIn (P : Option String → Prop) (file : InterchangeFormat) : Prop where
  attestations : ∀ record ∈ file.data, ∀ attestation ∈ record.signedAttestations, P attestation.signingRoot
  blocks : ∀ record ∈ file.data, ∀ block ∈ record.signedBlocks, P block.signingRoot

variable {file : InterchangeFormat}

theorem InterchangeFormat.RootsIn.mono {Q : Option String → Prop} (h : file.RootsIn P)
    (himp : ∀ root, P root → Q root) : file.RootsIn Q :=
  ⟨fun record hrecord a ha => himp _ (h.attestations record hrecord a ha),
    fun record hrecord b hb => himp _ (h.blocks record hrecord b hb)⟩

def Operation.RootsIn (P : Option String → Prop) : Operation → Prop
  | .reserve _ _ signingRootHex _ => P signingRootHex
  | .stage _ _ signingRootHex _ => P signingRootHex
  | .importFile file _ => file.RootsIn P
  | _ => True

/-! ### What calls keep -/

section

variable {db : SlashingDb} {t t' : Tables}

theorem Tables.RootsIn.shrink (h : t.RootsIn P) (hblocks : t'.blocks ⊆ t.blocks)
    (hattestations : t'.attestations ⊆ t.attestations) : t'.RootsIn P :=
  ⟨fun row hrow => h.attestations row (hattestations hrow), fun row hrow => h.blocks row (hblocks hrow)⟩

theorem Tables.RootsIn.afterReserve (h : t.RootsIn P) {spec : ReserveSpec} (hroot : P spec.signingRootHex)
    (reservation : CommittedReservation) : (t.afterReserve spec reservation).RootsIn P where
  attestations row hrow := by
    rcases Tables.mem_afterReserve.2 row hrow with hold | his
    · exact h.attestations row hold
    · obtain ⟨_, _, _, _, _, _, heq⟩ := AttestationRow.is_iff.mp his
      rwa [heq]
  blocks row hrow := by
    rcases Tables.mem_afterReserve.1 row hrow with hold | his
    · exact h.blocks row hold
    · obtain ⟨_, _, _, _, heq⟩ := BlockRow.is_iff.mp his
      rwa [heq]

theorem InterchangeFormat.RootsIn.parsed (h : file.RootsIn P)
    {parsed : List ParsedValidator} (hparse : parseInterchange file = .ok parsed) :
    ∀ validator ∈ parsed, (∀ attestation ∈ validator.attestations, P attestation.signingRoot) ∧
      ∀ block ∈ validator.blocks, P block.signingRoot := by
  intro validator hvalidator
  obtain ⟨record, hrecord, hparsed⟩ := exists_of_mem_mapM hparse hvalidator
  obtain ⟨hattestations, hblocks, -⟩ := parseValidator_ok hparsed
  refine ⟨fun attestation hmem => ?_, fun block hmem => ?_⟩
  · obtain ⟨wire, hwire, heq⟩ := exists_of_mem_mapM hattestations hmem
    obtain ⟨-, -, hroot⟩ := parseAttestation_ok.mp heq
    rw [← hroot]
    exact h.attestations record hrecord wire hwire
  · obtain ⟨wire, hwire, heq⟩ := exists_of_mem_mapM hblocks hmem
    obtain ⟨-, hroot⟩ := parseBlock_ok.mp heq
    rw [← hroot]
    exact h.blocks record hrecord wire hwire

theorem Tables.RootsIn.importStatements (h : t.RootsIn P) (gvrHex : String) {parsed : List ParsedValidator}
    (hparsed : ∀ validator ∈ parsed, (∀ attestation ∈ validator.attestations, P attestation.signingRoot) ∧
      ∀ block ∈ validator.blocks, P block.signingRoot) :
    (applyAll (Slashing.importStatements gvrHex parsed) t).RootsIn P := by
  refine import_invariant (fun t t' hstep ht => ?_) h
  cases hstep with
  | kept => exact ht
  | attestation hvalidator ha hrow =>
    refine ⟨forall_mem_append.mpr ⟨ht.attestations, forall_mem_singleton.mpr ?_⟩, ht.blocks⟩
    exact hrow ▸ (hparsed _ hvalidator).1 _ ha
  | block hvalidator hb hrow =>
    refine ⟨ht.attestations, forall_mem_append.mpr ⟨ht.blocks, forall_mem_singleton.mpr ?_⟩⟩
    exact hrow ▸ (hparsed _ hvalidator).2 _ hb
  | @raised validator kind value =>
    have hraised := raiseWatermarkMax_raised t validator.pubkey kind value
    exact ht.shrink (hraised.blocks ▸ List.Subset.refl _) (hraised.attestations ▸ List.Subset.refl _)

theorem Tables.RootsIn.run (h : t.RootsIn P) {operation : Operation} (hoperation : operation.RootsIn P) :
    (operation.run db t).2.RootsIn P := by
  have heffect := operation.run_effect db t
  generalize (operation.run db t).2 = t' at heffect ⊢
  cases heffect with
  | unchanged => exact h
  | reserved | staged =>
    refine h.afterReserve ?_ _
    exact hoperation
  | reconciled => exact h.shrink (filter_subset_self _) (filter_subset_self _)
  | imported hparse => exact h.importStatements _ (InterchangeFormat.RootsIn.parsed hoperation hparse)
  | pruned hprune =>
    obtain ⟨-, -, hattestations, hblocks⟩ := prune_eq hprune
    exact h.shrink (hblocks ▸ filter_subset_self _) (hattestations ▸ filter_subset_self _)
  | blockRaised hok =>
    obtain ⟨rfl, -⟩ := raiseWatermark_ok hok
    exact ⟨h.attestations, h.blocks⟩
  | attestationRaised hok =>
    obtain ⟨raised, hsource, htarget⟩ := bind_eq_ok.mp hok
    obtain ⟨rfl, -⟩ := raiseWatermark_ok hsource
    obtain ⟨rfl, -⟩ := raiseWatermark_ok htarget
    exact ⟨h.attestations, h.blocks⟩

theorem Tables.RootsIn.runAll (h : t.RootsIn P) {operations : List Operation}
    (hoperations : ∀ operation ∈ operations, operation.RootsIn P) : (Operation.runAll db t operations).RootsIn P :=
  Operation.runAll_invariant (fun operation hop _ ht => ht.run (hoperations operation hop)) h

theorem Tables.rootsIn_empty (pinned : Option String) : Tables.RootsIn P { Tables.empty with metadataGvr := pinned } :=
  ⟨fun _ hrow => (not_mem_nil hrow).elim, fun _ hrow => (not_mem_nil hrow).elim⟩

end

/-! ### What the export copies -/

section

variable {t : Tables} {pubkey : String}

/-- The row is above the synthetic attestation of its validator, if there is one. -/
def Tables.CopiesAttestation (t : Tables) (row : AttestationRow) : Prop :=
  ∀ sourceWm targetWm, readWatermark t row.pubkey .attestationSource = some sourceWm →
    readWatermark t row.pubkey .attestationTarget = some targetWm →
      (syntheticLoop (exportRows t row.pubkey) sourceWm targetWm).2 < asU64 row.targetEpoch

/-- The row is above the synthetic block of its validator, if there is one. -/
def Tables.CopiesBlock (t : Tables) (row : BlockRow) : Prop :=
  ∀ slotWm, readWatermark t row.pubkey .block = some slotWm → slotWm < asU64 row.slot

theorem mem_exportAttestations {synthetic : Option InterchangeAttestation} {copied : List InterchangeAttestation}
    (h : exportAttestations t pubkey = .ok (synthetic, copied)) :
    (∀ a ∈ synthetic, a.signingRoot = none) ∧ ∀ a, a ∈ copied ↔
      ∃ row ∈ t.attestations, row.pubkey = pubkey ∧ t.CopiesAttestation row ∧ wireAttestation row.toSigned = a := by
  unfold exportAttestations at h
  split at h
  next hs ht =>
    cases h
    refine ⟨by simp, fun a => ?_⟩
    simp only [mem_map, mem_readAttestations]
    constructor
    · rintro ⟨_, ⟨row, hrow, rfl, rfl⟩, rfl⟩
      exact ⟨row, hrow, rfl, fun _ _ hsource => by simp [hs] at hsource, rfl⟩
    · rintro ⟨row, hrow, hpk, -, rfl⟩
      exact ⟨_, ⟨row, hrow, hpk, rfl⟩, rfl⟩
  next sourceWm targetWm hs ht =>
    split at h
    next source target hbounds =>
      cases h
      have hloop : syntheticLoop (exportRows t pubkey) sourceWm targetWm = (source, target) := by
        unfold attestationSyntheticBounds at hbounds
        split at hbounds
        · cases hbounds
        · exact Except.ok.inj hbounds
      refine ⟨by simp, fun a => ?_⟩
      simp only [mem_map, mem_filter, mem_readAttestations, decide_eq_true_eq]
      constructor
      · rintro ⟨_, ⟨⟨row, hrow, rfl, rfl⟩, habove⟩, rfl⟩
        refine ⟨row, hrow, rfl, fun sourceWm' targetWm' hs' ht' => ?_, rfl⟩
        cases hs.symm.trans hs'
        cases ht.symm.trans ht'
        rwa [hloop]
      · rintro ⟨row, hrow, rfl, hcopies, rfl⟩
        have habove := hcopies sourceWm targetWm hs ht
        rw [hloop] at habove
        exact ⟨_, ⟨⟨row, hrow, rfl, rfl⟩, habove⟩, rfl⟩
    next => cases h
  next => cases h

theorem mem_exportBlocks (t : Tables) (pubkey : String) :
    (∀ b ∈ (exportBlocks t pubkey).1, b.signingRoot = none) ∧ ∀ b, b ∈ (exportBlocks t pubkey).2 ↔
      ∃ row ∈ t.blocks, row.pubkey = pubkey ∧ t.CopiesBlock row ∧ wireBlock row.toSigned = b := by
  unfold exportBlocks
  cases hwm : readWatermark t pubkey .block with
  | none =>
    refine ⟨by simp, fun b => ?_⟩
    simp only [mem_map, mem_readBlocks]
    constructor
    · rintro ⟨_, ⟨row, hrow, rfl, rfl⟩, rfl⟩
      exact ⟨row, hrow, rfl, fun _ hsome => by simp [hwm] at hsome, rfl⟩
    · rintro ⟨row, hrow, hpk, -, rfl⟩
      exact ⟨_, ⟨row, hrow, hpk, rfl⟩, rfl⟩
  | some slotWm =>
    refine ⟨by simp, fun b => ?_⟩
    simp only [mem_map, mem_filter, mem_readBlocks, decide_eq_true_eq]
    constructor
    · rintro ⟨_, ⟨⟨row, hrow, rfl, rfl⟩, habove⟩, rfl⟩
      refine ⟨row, hrow, rfl, fun slotWm' hwm' => ?_, rfl⟩
      cases hwm.symm.trans hwm'
      exact habove
    · rintro ⟨row, hrow, rfl, hcopies, rfl⟩
      exact ⟨_, ⟨⟨row, hrow, rfl, rfl⟩, hcopies slotWm hwm⟩, rfl⟩

/-- **The roots of a file are those of the rows it copies.** -/
theorem exportInterchange_rootsIn_iff {gvr : Root} (hnone : P none) (h : exportInterchange t gvr = .ok file) :
    file.RootsIn P ↔ (∀ row ∈ t.attestations, t.CopiesAttestation row → P row.signingRoot) ∧
      ∀ row ∈ t.blocks, t.CopiesBlock row → P row.signingRoot := by
  obtain ⟨-, -, hrecords⟩ := exportInterchange_spec h
  constructor
  · intro hfile
    refine ⟨fun row hrow hcopies => ?_, fun row hrow hcopies => ?_⟩
    · obtain ⟨record, hrecord, hpk⟩ := exists_record h (mem_readAllPubkeys.mpr (.inl ⟨row, hrow, rfl⟩))
      obtain ⟨synthetic, copied, hexport, hall, -⟩ := hrecords record hrecord
      refine hfile.attestations record hrecord (wireAttestation row.toSigned) ?_
      rw [hall, mem_append]
      exact .inr (((mem_exportAttestations hexport).2 _).mpr ⟨row, hrow, hpk.symm, hcopies, rfl⟩)
    · obtain ⟨record, hrecord, hpk⟩ := exists_record h (mem_readAllPubkeys.mpr (.inr (.inl ⟨row, hrow, rfl⟩)))
      obtain ⟨-, -, -, -, hall⟩ := hrecords record hrecord
      refine hfile.blocks record hrecord (wireBlock row.toSigned) ?_
      rw [hall, mem_append]
      exact .inr (((mem_exportBlocks t record.pubkey).2 _).mpr ⟨row, hrow, hpk.symm, hcopies, rfl⟩)
  · rintro ⟨hattestations, hblocks⟩
    refine ⟨fun record hrecord attestation hmem => ?_, fun record hrecord block hmem => ?_⟩
    · obtain ⟨synthetic, copied, hexport, hall, -⟩ := hrecords record hrecord
      obtain ⟨hsynthetic, hcopied⟩ := mem_exportAttestations hexport
      rw [hall, mem_append, Option.mem_toList] at hmem
      rcases hmem with hmem | hmem
      · rwa [hsynthetic attestation hmem]
      · obtain ⟨row, hrow, -, hcopies, rfl⟩ := (hcopied attestation).mp hmem
        exact hattestations row hrow hcopies
    · obtain ⟨-, -, -, -, hall⟩ := hrecords record hrecord
      obtain ⟨hsynthetic, hcopied⟩ := mem_exportBlocks t record.pubkey
      rw [hall, mem_append, Option.mem_toList] at hmem
      rcases hmem with hmem | hmem
      · rwa [hsynthetic block hmem]
      · obtain ⟨row, hrow, -, hcopies, rfl⟩ := (hcopied block).mp hmem
        exact hblocks row hrow hcopies

end

end Rvc.Slashing
