import Rvc.Slashing.Interchange.Export
import Rvc.Slashing.Interchange.Import

/-!
# Moving to a new database

An exported file imported into an empty database. The two hold different rows and watermarks, but every
row and floor of the first is dominated by some record of the file (`covers_row`, `covers_source`,
`covers_target`), and the second's watermarks are the maxima over those records.
-/

namespace Rvc.Slashing

open Rvc.Lib Rvc.EthTypes Rvc.Observability List Tables

variable {e : SlashingError} {strict : Bool}

section

variable {t : Tables} {pubkey : String}

namespace AttestationsExported

variable {synthetic : Option ParsedAttestation} {copied : List ParsedAttestation}

section

variable (hexp : AttestationsExported t pubkey synthetic copied)

include hexp

theorem covers_row {row : AttestationRow} (hrow : row ∈ t.attestations) (hpk : row.pubkey = pubkey) :
    ∃ a ∈ synthetic.toList ++ copied,
      asU64 row.sourceEpoch ≤ a.sourceEpoch ∧ asU64 row.targetEpoch ≤ a.targetEpoch := by
  cases hexp with
  | rows hs ht hmem => exact ⟨row.toParsed, (hmem _).mpr ⟨row, hrow, hpk, rfl⟩, le_rfl, le_rfl⟩
  | @floor ws wt source target _ hs ht hbounds hmem =>
    by_cases hlt : target < asU64 row.targetEpoch
    · exact ⟨row.toParsed, mem_append_right _ ((hmem _).mpr ⟨row, hrow, hpk, hlt, rfl⟩), le_rfl, le_rfl⟩
    · have hle := Nat.not_lt.mp hlt
      exact ⟨⟨source, target, none⟩, mem_cons_self, hbounds.below _ (mem_exportRows.mpr ⟨row, hrow, hpk, rfl⟩) hle, hle⟩

theorem covers_source {ws : Int} (hwm : t.watermarks.lookup (pubkey, .attestationSource) = some ws) :
    ∃ a ∈ synthetic.toList ++ copied, asU64 ws ≤ a.sourceEpoch := by
  cases hexp with
  | rows hs => rw [hs] at hwm; cases hwm
  | floor hs _ hbounds =>
    rw [hs] at hwm
    cases hwm
    exact ⟨_, mem_cons_self, hbounds.sourceWm_le⟩

theorem covers_target {wt : Int} (hwm : t.watermarks.lookup (pubkey, .attestationTarget) = some wt) :
    ∃ a ∈ synthetic.toList ++ copied, asU64 wt ≤ a.targetEpoch := by
  cases hexp with
  | rows _ ht => rw [ht] at hwm; cases hwm
  | floor _ ht hbounds =>
    rw [ht] at hwm
    cases hwm
    exact ⟨_, mem_cons_self, hbounds.targetWm_le⟩

theorem dominates (hsmall : t.Small) {candidate : AttestationCandidate} (hc : candidate.Small)
    (href : AttestationRefusal t pubkey candidate strict e) : ∃ a ∈ synthetic.toList ++ copied,
      candidate.sourceEpoch < a.sourceEpoch ∨ candidate.targetEpoch ≤ a.targetEpoch := by
  rcases href.grounds with ⟨ws, hwm, hlt⟩ | ⟨wt, hwm, hle⟩ | ⟨row, hrow, hpk, hconf⟩ | ⟨row, hrow, hpk, hlt, -⟩
  · obtain ⟨a, ha, hle⟩ := hexp.covers_source hwm
    exact ⟨a, ha, .inl (hlt.trans_le hle)⟩
  · obtain ⟨a, ha, hle'⟩ := hexp.covers_target hwm
    exact ⟨a, ha, .inr (hle.trans hle')⟩
  · obtain ⟨a, ha, hsource, htarget⟩ := hexp.covers_row hrow hpk
    exact ⟨a, ha, ((hsmall.attestations row hrow).of_conflicts hc hconf).imp (·.trans_le hsource) (·.trans htarget)⟩
  · obtain ⟨a, ha, -, hle⟩ := hexp.covers_row hrow hpk
    exact ⟨a, ha, .inr (hlt.le.trans hle)⟩

theorem small (hsmall : t.Small) :
    ∀ a ∈ synthetic.toList ++ copied, a.sourceEpoch < 2 ^ 63 ∧ a.targetEpoch < 2 ^ 63 := by
  have hrow : ∀ row ∈ t.attestations, asU64 row.sourceEpoch < 2 ^ 63 ∧ asU64 row.targetEpoch < 2 ^ 63 :=
    fun row hrow => ⟨asU64_lt_of_smallInt (hsmall.attestations row hrow).1,
      asU64_lt_of_smallInt (hsmall.attestations row hrow).2⟩
  cases hexp with
  | rows _ _ hmem =>
    intro a ha
    obtain ⟨row, hin, -, rfl⟩ := (hmem a).mp ha
    exact hrow row hin
  | floor hs ht hbounds hmem =>
    rintro a (_ | ⟨_, ha⟩)
    · constructor
      · rcases hbounds.source_mem with heq | ⟨pair, hpair, heq⟩
        · exact heq.trans_lt (asU64_lt_of_smallInt (hsmall.watermarks _ _ hs))
        · obtain ⟨row, hin, -, rfl⟩ := mem_exportRows.mp hpair
          exact heq.trans_lt (hrow row hin).1
      · rcases hbounds.target_mem with heq | ⟨pair, hpair, heq⟩
        · exact heq.trans_lt (asU64_lt_of_smallInt (hsmall.watermarks _ _ ht))
        · obtain ⟨row, hin, -, rfl⟩ := mem_exportRows.mp hpair
          exact heq.trans_lt (hrow row hin).2
    · obtain ⟨row, hin, -, -, rfl⟩ := (hmem a).mp ha
      exact hrow row hin

end

end AttestationsExported

namespace BlocksExported

variable {synthetic : Option ParsedBlock} {copied : List ParsedBlock}

section

variable (hexp : BlocksExported t pubkey synthetic copied)

include hexp

theorem covers_row {row : BlockRow} (hrow : row ∈ t.blocks) (hpk : row.pubkey = pubkey) :
    ∃ b ∈ synthetic.toList ++ copied, asU64 row.slot ≤ b.slot := by
  cases hexp with
  | rows _ hmem => exact ⟨row.toParsed, (hmem _).mpr ⟨row, hrow, hpk, rfl⟩, le_rfl⟩
  | @floor wm _ _ hmem =>
    by_cases hlt : asU64 wm < asU64 row.slot
    · exact ⟨row.toParsed, mem_append_right _ ((hmem _).mpr ⟨row, hrow, hpk, hlt, rfl⟩), le_rfl⟩
    · exact ⟨⟨asU64 wm, none⟩, mem_cons_self, Nat.not_lt.mp hlt⟩

theorem dominates {candidate : BlockCandidate} (hc : candidate.Small)
    (href : BlockRefusal t pubkey candidate strict e) :
    ∃ b ∈ synthetic.toList ++ copied, candidate.slot ≤ b.slot := by
  cases href with
  | belowWatermark hwm hle =>
    cases hexp with
    | rows hnone => rw [hnone] at hwm; cases hwm
    | floor hfloor =>
      rw [hfloor] at hwm
      cases hwm
      exact ⟨_, mem_cons_self, hle⟩
  | doubleProposal hfound =>
    obtain ⟨hrow, hpk, hslot⟩ := rowAtSlot_some hfound
    obtain ⟨b, hb, hle⟩ := hexp.covers_row hrow hpk
    have hc' : candidate.slot < 2 ^ 63 := hc
    rw [hslot, asU64_asI64_of_lt (by omega)] at hle
    exact ⟨b, hb, hle⟩
  | belowMinimum hrow hpk hlt =>
    obtain ⟨b, hb, hle⟩ := hexp.covers_row hrow hpk
    exact ⟨b, hb, hlt.le.trans hle⟩

theorem small (hsmall : t.Small) : ∀ b ∈ synthetic.toList ++ copied, b.slot < 2 ^ 63 := by
  cases hexp with
  | rows _ hmem =>
    intro b hb
    obtain ⟨row, hrow, -, rfl⟩ := (hmem b).mp hb
    exact asU64_lt_of_smallInt (hsmall.blocks row hrow)
  | floor hwm hmem =>
    rintro b (_ | ⟨_, hb⟩)
    · exact asU64_lt_of_smallInt (hsmall.watermarks _ _ hwm)
    · obtain ⟨row, hrow, -, -, rfl⟩ := (hmem b).mp hb
      exact asU64_lt_of_smallInt (hsmall.blocks row hrow)

end

end BlocksExported

end

/-! ### The file, parsed -/

/-- A parsed validator of an exported file: its lists are the export of one pubkey. -/
structure ExportedValidator (t : Tables) (pubkey : String) (validator : ParsedValidator) : Prop where
  key : validator.pubkey = normalizePubkey pubkey
  attestations : ∃ synthetic copied, AttestationsExported t pubkey synthetic copied ∧
    validator.attestations = synthetic.toList ++ copied
  blocks : ∃ synthetic copied, BlocksExported t pubkey synthetic copied ∧
    validator.blocks = synthetic.toList ++ copied

section

variable {t : Tables} {gvr : Root} {file : InterchangeFormat}

theorem parseValidator_exported (hexport : exportInterchange t gvr = .ok file) {record : ValidatorRecord}
    (hrecord : record ∈ file.data) :
    ∃ validator, parseValidator record = .ok validator ∧ ExportedValidator t record.pubkey validator := by
  obtain ⟨-, -, hrecords⟩ := exportInterchange_spec hexport
  obtain ⟨synthetic, copied, hatt, hatts, hblks⟩ := hrecords record hrecord
  obtain ⟨synAtt, atts, hexp, hsyn, hparse⟩ := exportAttestations_spec hatt
  obtain ⟨synBlock, blocks, hexp', hsyn', hparse'⟩ :=
    exportBlocks_spec (Prod.mk.eta (p := exportBlocks t record.pubkey)).symm
  have hatts' := mapM_append_ok hsyn hparse
  have hblks' := mapM_append_ok hsyn' hparse'
  rw [← hatts] at hatts'
  rw [← hblks] at hblks'
  obtain ⟨validator, hv⟩ : ∃ validator, parseValidator record = .ok validator :=
    ⟨_, by rw [parseValidator, hatts', hblks']; rfl⟩
  obtain ⟨hva, hvb, hkey, -⟩ := parseValidator_ok hv
  exact ⟨validator, hv, hkey, ⟨synAtt, atts, hexp, Except.ok.inj (hva.symm.trans hatts')⟩,
    ⟨synBlock, blocks, hexp', Except.ok.inj (hvb.symm.trans hblks')⟩⟩

theorem parseInterchange_exported (hexport : exportInterchange t gvr = .ok file) :
    ∃ parsed, parseInterchange file = .ok parsed ∧
      (∀ record ∈ file.data, ∃ validator ∈ parsed, ExportedValidator t record.pubkey validator) ∧
      ∀ validator ∈ parsed, ∃ pubkey, ExportedValidator t pubkey validator := by
  obtain ⟨parsed, hparse⟩ : ∃ parsed, parseInterchange file = .ok parsed := by
    refine mapM_ok_of_forall fun record hrecord => ?_
    obtain ⟨validator, hv, -⟩ := parseValidator_exported hexport hrecord
    exact ⟨validator, hv⟩
  have hone : ∀ record ∈ file.data, ∀ validator, parseValidator record = .ok validator →
      ExportedValidator t record.pubkey validator := by
    intro record hrecord validator hv
    obtain ⟨validator', hv', hexp⟩ := parseValidator_exported hexport hrecord
    exact Except.ok.inj (hv'.symm.trans hv) ▸ hexp
  refine ⟨parsed, hparse, fun record hrecord => ?_, fun validator hvalidator => ?_⟩
  · obtain ⟨validator, hvalidator, hv⟩ := exists_result_of_mem hparse hrecord
    exact ⟨validator, hvalidator, hone record hrecord validator hv⟩
  · obtain ⟨record, hrecord, hv⟩ := exists_of_mem_mapM hparse hvalidator
    exact ⟨record.pubkey, hone record hrecord validator hv⟩

theorem small_of_exported (hsmall : t.Small) (hexport : exportInterchange t gvr = .ok file) : file.Small := by
  intro parsed hparse validator hvalidator
  obtain ⟨parsed', hparse', -, hexported⟩ := parseInterchange_exported hexport
  cases hparse'.symm.trans hparse
  obtain ⟨pubkey, -, ⟨_, _, hatt, hatts⟩, ⟨_, _, hblk, hblks⟩⟩ := hexported validator hvalidator
  exact ⟨hatts ▸ hatt.small hsmall, hblks ▸ hblk.small hsmall⟩

theorem exists_record (hexport : exportInterchange t gvr = .ok file) {pubkey : String}
    (h : pubkey ∈ readAllPubkeys t) : ∃ record ∈ file.data, record.pubkey = pubkey := by
  obtain ⟨-, hkeys, -⟩ := exportInterchange_spec hexport
  rw [← hkeys] at h
  obtain ⟨record, hrecord, heq⟩ := mem_map.mp h
  exact ⟨record, hrecord, heq⟩

end

theorem AttestationRefusal.mem_readAllPubkeys {t : Tables} {pubkey : String} {candidate : AttestationCandidate}
    (h : AttestationRefusal t pubkey candidate strict e) : pubkey ∈ readAllPubkeys t := by
  rw [Slashing.mem_readAllPubkeys]
  rcases h.grounds with ⟨ws, hwm, -⟩ | ⟨wt, hwm, -⟩ | ⟨row, hrow, hpk, -⟩ | ⟨row, hrow, hpk, -⟩
  · exact .inr (.inr ⟨_, ws, hwm⟩)
  · exact .inr (.inr ⟨_, wt, hwm⟩)
  · exact .inl ⟨row, hrow, hpk⟩
  · exact .inl ⟨row, hrow, hpk⟩

theorem BlockRefusal.mem_readAllPubkeys {t : Tables} {pubkey : String} {candidate : BlockCandidate}
    (h : BlockRefusal t pubkey candidate strict e) :
    pubkey ∈ readAllPubkeys t := by
  rw [Slashing.mem_readAllPubkeys]
  cases h with
  | belowWatermark hwm => exact .inr (.inr ⟨_, _, hwm⟩)
  | doubleProposal hfound =>
    obtain ⟨hrow, hpk, -⟩ := rowAtSlot_some hfound
    exact .inr (.inl ⟨_, hrow, hpk⟩)
  | belowMinimum hrow hpk => exact .inr (.inl ⟨_, hrow, hpk⟩)

/-- **Migration transport.** An exported file imports into an empty database, and what the first database
refuses by any EIP-3076 rule the second refuses, whatever the root and the strictness of either. -/
theorem export_import_transport {t : Tables} (hsmall : t.Small) {gvr : Root} {file : InterchangeFormat}
    (hexport : exportInterchange t gvr = .ok file) :
    ∃ t', importInterchange .none ⟨Tables.empty, none⟩ file gvr = (.ok (), ⟨t', none⟩) ∧
      (∀ db db' pubkeyHex source target signingRoot signGvr signGvr' e, source < 2 ^ 63 →
        target < 2 ^ 63 → stageAttestation db t pubkeyHex source target signingRoot signGvr = .error e →
        e.isEip3076 = true → ∃ e', stageAttestation db' t' pubkeyHex source target signingRoot signGvr' = .error e' ∧
          e'.isEip3076 = true) ∧ (∀ db db' pubkeyHex slot signingRoot signGvr signGvr' e, slot < 2 ^ 63 →
        stageBlock db t pubkeyHex slot signingRoot signGvr = .error e → e.isEip3076 = true →
        ∃ e', stageBlock db' t' pubkeyHex slot signingRoot signGvr' = .error e' ∧
          e'.isEip3076 = true) := by
  obtain ⟨parsed, hparse, hrecords, -⟩ := parseInterchange_exported hexport
  have hfile := small_of_exported hsmall hexport
  have hgvr : ∀ signGvr, checkGvrBeforeLock
      (applyAll (importStatements (rootToHex gvr) parsed) empty) signGvr = .ok () := fun _ =>
    checkGvrBeforeLock_none (applyAll_importStatements_extends (rootToHex gvr) parsed _).metadataGvr
  have hmeta : validateInterchangeMetadata file gvr = .ok () := by
    obtain ⟨hmd, -⟩ := exportInterchange_spec hexport
    obtain ⟨metadata, data⟩ := file
    obtain rfl := hmd
    exact validateInterchangeMetadata_rootToHex data gvr
  refine ⟨_, importInterchange_ok hmeta hparse, ?_, ?_⟩
  · intro db db' pubkeyHex source target signingRoot signGvr signGvr' e hs ht hstage he
    have href := stageAttestation_error hstage he
    obtain ⟨record, hrecord, hpk⟩ := exists_record hexport href.mem_readAllPubkeys
    obtain ⟨validator, hvalidator, hkey, ⟨_, _, hexp, hatts⟩, -⟩ := hrecords record hrecord
    rw [hpk, normalizePubkey_idem] at hkey
    rw [hpk] at hexp
    obtain ⟨a, ha, hdom⟩ := hexp.dominates hsmall ⟨hs, ht⟩ href
    rw [← hatts] at ha
    obtain ⟨e', hstage', he'⟩ := stageAttestation_refused fun verdict => by
      rw [← hkey]
      exact not_accepted_of_imported hfile hparse hvalidator ha (rootToHex gvr) small_empty hdom
    exact ⟨e', hstage', he' (hgvr signGvr')⟩
  · intro db db' pubkeyHex slot signingRoot signGvr signGvr' e hslot hstage he
    have href := stageBlock_error hstage he
    obtain ⟨record, hrecord, hpk⟩ := exists_record hexport href.mem_readAllPubkeys
    obtain ⟨validator, hvalidator, hkey, -, ⟨_, _, hexp, hblks⟩⟩ := hrecords record hrecord
    rw [hpk, normalizePubkey_idem] at hkey
    rw [hpk] at hexp
    have hsmallSlot : BlockCandidate.Small ⟨slot, signingRoot⟩ := hslot
    obtain ⟨b, hb, hdom⟩ := hexp.dominates hsmallSlot href
    rw [← hblks] at hb
    obtain ⟨e', hstage', he'⟩ := stageBlock_refused fun verdict => by
      rw [← hkey]
      exact not_accepted_of_imported_block hfile hparse hvalidator hb (rootToHex gvr) small_empty hdom
    exact ⟨e', hstage', he' (hgvr signGvr')⟩

/-- The vote `(2, 9)` surrounds a row of the first database; the second refuses it by its source floor. -/
theorem export_import_transport_sample :
    ∃ t', importInterchange .none ⟨Tables.empty, none⟩ sampleExport zeroRoot = (.ok (), ⟨t', none⟩) ∧
      ∃ e, stageAttestation ⟨false, 2 ^ 64 - 1⟩ t' "aa" 2 9 none zeroRoot = .error e :=
  have hstage : stageAttestation ⟨true, 0⟩ sampleTables "aa" 2 9 none zeroRoot =
      .error (.slashableAttestation (.surroundingVote 2 9 3 8)) := by decide +kernel
  let ⟨t', himport, hatt, _⟩ := export_import_transport sampleTables_small sampleTables_export
  let ⟨e, he, _⟩ := hatt ⟨true, 0⟩ ⟨false, 2 ^ 64 - 1⟩ "aa" 2 9 none zeroRoot zeroRoot _ (by decide)
    (by decide) hstage rfl
  ⟨t', himport, e, he⟩

end Rvc.Slashing
